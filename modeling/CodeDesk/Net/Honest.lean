/-
# A secured stream between honest ends

Two `FramedStream`s with one key, each counting its frames on from where the
other expects them, over a network that keeps the bytes and their order and
hands them over in chunks of any size. Either end may send, and ask for the
next payload, at any time.

The frames of an end are its payloads, the `k`-th sealed under the `k`-th number
after the first (`boxes`); what is under way to an end is those frames less as
many as it has taken (`Flow`). A sealed payload has 16 bytes more, so no frame
is short enough for `dec` to pass it on unopened.

* `honest_exact`: each answer of `next` is the payload the other end sent at
  that place, opened from its own frame; and when everything has arrived, as
  many calls as payloads were sent give all of them.
-/
import CodeDesk.Net.Channel
import CodeDesk.Net.Codec

namespace CodeDesk.Net

open Sealing Framing Function

variable {S : Box}

structure Duplex (S : Box) where
  stream : Side → Stream S
  /-- What is under way to each end. -/
  pipe : Side → Pipe := fun _ => {}
  sent : Side → List Bytes := fun _ => []
  taken : Side → List (Frame × Next) := fun _ => []

namespace Duplex

inductive Act where
  | send (x : Side) (msg : Bytes)
  | arrive (x : Side) (n : ℕ)
  | next (x : Side)

def send (x : Side) (msg : Bytes) (d : Duplex S) : Duplex S :=
  { d with
    stream := update d.stream x ((d.stream x).sendRaw msg).1
    pipe := update d.pipe x.other
      ((d.pipe x.other).put (d.stream x) ((d.stream x).sendRaw msg).2)
    sent := update d.sent x (d.sent x ++ [msg]) }

def arrive (x : Side) (n : ℕ) (d : Duplex S) : Duplex S :=
  { d with pipe := update d.pipe x ((d.pipe x).arrive n) }

/-- `next`, polled once: without a whole frame it goes on waiting. -/
def next (x : Side) (d : Duplex S) : Duplex S :=
  match (d.pipe x).get (d.stream x) with
  | (p, none) => { d with pipe := update d.pipe x p }
  | (p, some f) =>
    { d with
      pipe := update d.pipe x p
      stream := update d.stream x ((d.stream x).next f).1
      taken := update d.taken x (d.taken x ++ [(f, ((d.stream x).next f).2)]) }

def step (d : Duplex S) : Act → Duplex S
  | .send x msg => d.send x msg
  | .arrive x n => d.arrive x n
  | .next x => d.next x

/-- Two TCP streams with key `key`; end `x` has sealed `number x` frames before,
and the other end has opened as many. -/
def start (key : S.Key) (number : Side → ℕ) : Duplex S where
  stream := fun x =>
    { kind := .tcp
      encrypt := some { key := key, sent := number x, received := number x.other } }

def Act.Fits : Act → Prop
  | .send _ msg => msg.length + 16 ≤ 0x3FFFFFFF
  | _ => True

end Duplex

/-! ### The frames of an end -/

def box (key : S.Key) (n k : ℕ) (m : Bytes) : Bytes :=
  S.sealBox key (getNonce ((n + k + 1) % 2 ^ 64)) m

def boxes (key : S.Key) (n : ℕ) (ms : List Bytes) : List Bytes := ms.mapIdx (box key n)

theorem boxes_concat (key : S.Key) (n : ℕ) (ms : List Bytes) (m : Bytes) :
    boxes key n (ms ++ [m]) = boxes key n ms ++ [box key n ms.length m] := by
  simp [boxes, List.mapIdx_append]

theorem boxes_drop {key : S.Key} {n k : ℕ} {ms : List Bytes} {m : Bytes} (hm : ms[k]? = some m) :
    (boxes key n ms).drop k = box key n k m :: (boxes key n ms).drop (k + 1) := by
  have hb : (boxes key n ms)[k]? = some (box key n k m) := by
    rw [boxes, List.getElem?_mapIdx, hm]
    rfl
  obtain ⟨hlt, hg⟩ := List.getElem?_eq_some_iff.1 hb
  rw [← hg, List.getElem_cons_drop]

theorem box_length (key : S.Key) (n k : ℕ) (m : Bytes) :
    (box key n k m).length = m.length + 16 := S.length_seal _ _ _

/-- A stream with key `key` that has sealed `m` frames and opened `r`. -/
def Stream.Counts (key : S.Key) (m r : ℕ) (s : Stream S) : Prop :=
  s.kind = .tcp ∧ s.raw = false ∧
    ∃ e, s.encrypt = some e ∧ e.key = key ∧ e.sent % 2 ^ 64 = m % 2 ^ 64 ∧
      e.received % 2 ^ 64 = r % 2 ^ 64

namespace Stream.Counts

variable {key : S.Key} {m r : ℕ} {s : Stream S}

theorem sendRaw (h : s.Counts key m r) (msg : Bytes) : (s.sendRaw msg).1.Counts key (m + 1) r ∧
      (s.sendRaw msg).2 = S.sealBox key (getNonce ((m + 1) % 2 ^ 64)) msg := by
  obtain ⟨hk, hr, e, he, hkey, hs, ho⟩ := h
  have hnum : (e.sent + 1) % 2 ^ 64 = (m + 1) % 2 ^ 64 := by omega
  simp only [Stream.sendRaw, he, Encrypt.enc, Encrypt.sealNonce, hnum, hkey]
  refine ⟨⟨hk, hr, _, rfl, rfl, ?_, ho⟩, trivial⟩
  exact Nat.mod_mod _ _

theorem next (h : s.Counts key m r) (msg : Bytes) :
    (s.next (.data (S.sealBox key (getNonce ((r + 1) % 2 ^ 64)) msg))).1.Counts key m (r + 1) ∧
      (s.next (.data (S.sealBox key (getNonce ((r + 1) % 2 ^ 64)) msg))).2 = .ok msg := by
  obtain ⟨hk, hr, e, he, hkey, hs, ho⟩ := h
  have hnum : (e.received + 1) % 2 ^ 64 = (r + 1) % 2 ^ 64 := by omega
  have hl : ¬ (S.sealBox key (getNonce ((r + 1) % 2 ^ 64)) msg).length ≤ 1 := by
    rw [S.length_seal]
    omega
  simp only [Stream.next, Stream.decrypt, he, Encrypt.dec, if_neg hl, Encrypt.openNonce, hnum,
    hkey, S.open_seal]
  refine ⟨⟨hk, hr, _, rfl, rfl, hs, ?_⟩, trivial⟩
  exact Nat.mod_mod _ _

end Stream.Counts

/-! ### One direction -/

/-- Payloads `sent` go to an end that has taken `taken`, the first under the
number after `n`. -/
structure Flow (key : S.Key) (n : ℕ) (p : Pipe) (sent : List Bytes)
    (taken : List (Frame × Next)) : Prop where
  answers : ∀ (k : ℕ) (f : Frame) (r : Next), taken[k]? = some (f, r) →
    ∃ m, sent[k]? = some m ∧ f = .data (box key n k m) ∧ r = .ok m
  carries : Holds header p.reader p.wire ((boxes key n sent).drop taken.length) []

namespace Flow

variable {key : S.Key} {n : ℕ} {p : Pipe} {sent : List Bytes} {taken : List (Frame × Next)}

theorem start (key : S.Key) (n : ℕ) : Flow key n {} [] [] := ⟨nofun, Holds.init⟩

section

variable (h : Flow key n p sent taken)

include h

theorem length_le : taken.length ≤ sent.length := by
  by_contra hl
  have hk : sent.length < taken.length := by omega
  obtain ⟨m, hm, -⟩ := h.answers sent.length _ _ (List.getElem?_eq_getElem hk)
  rw [List.getElem?_eq_none (by omega)] at hm
  cases hm

theorem arrive (i : ℕ) : Flow key n (p.arrive i) sent taken := ⟨h.answers, h.carries.arrive i⟩

theorem send {s : Stream S} {r : ℕ}
    (hs : s.Counts key (n + sent.length) r) {msg : Bytes} (hl : msg.length + 16 ≤ 0x3FFFFFFF) :
    Flow key n (p.put s (s.sendRaw msg).2) (sent ++ [msg]) taken where
  answers := by
    intro k f r hk
    obtain ⟨m, hm, hf⟩ := h.answers k f r hk
    have hlt : k < sent.length := (List.getElem?_eq_some_iff.1 hm).1
    exact ⟨m, by rw [List.getElem?_append_left hlt, hm], hf⟩
  carries := by
    obtain ⟨w, hw⟩ : ∃ w, header.frame (box key n sent.length msg) = some w :=
      frame_isSome (by rw [box_length]; exact hl)
    have hdrop : (boxes key n (sent ++ [msg])).drop taken.length =
        (boxes key n sent).drop taken.length ++ [box key n sent.length msg] := by
      have := h.length_le
      rw [boxes_concat, List.drop_append_of_le_length (by simpa [boxes] using this)]
    have hbytes : (s.sendRaw msg).2 = box key n sent.length msg := (hs.sendRaw msg).2
    rw [hdrop, hbytes]
    simp only [Pipe.put, hs.1, BytesCodec.encode, hs.2.1, Bool.false_eq_true, if_false, hw]
    exact h.carries.putFrame hw

theorem due {m : Bytes} (hm : sent[taken.length]? = some m) : Holds header p.reader p.wire
      (box key n taken.length m :: (boxes key n sent).drop (taken.length + 1)) [] := by
  rw [← boxes_drop hm]
  exact h.carries

theorem take {q : Pipe} {m : Bytes} (hm : sent[taken.length]? = some m)
    (hc : Holds header q.reader q.wire ((boxes key n sent).drop (taken.length + 1)) []) :
    Flow key n q sent (taken ++ [(.data (box key n taken.length m), .ok m)]) where
  answers := by
    intro k f r hk
    rcases Nat.lt_or_ge k taken.length with hlt | hge
    · rw [List.getElem?_append_left hlt] at hk
      exact h.answers k f r hk
    · rw [List.getElem?_append_right hge] at hk
      obtain ⟨h0, he⟩ := List.getElem?_eq_some_iff.1 hk
      have hke : k = taken.length := by
        simp only [List.length_singleton] at h0
        omega
      subst hke
      simp only [Nat.sub_self, List.getElem_cons_zero, Prod.mk.injEq] at he
      exact ⟨m, hm, he.1.symm, he.2.symm⟩
  carries := by
    rwa [List.length_append, List.length_singleton]

theorem all (hl : taken.length = sent.length) : taken.map (·.2) = sent.map .ok := by
  apply List.ext_getElem?
  intro k
  rcases Nat.lt_or_ge k taken.length with hlt | hge
  · obtain ⟨m, hm, -, hr⟩ := h.answers k _ _ (List.getElem?_eq_getElem hlt)
    rw [List.getElem?_map, List.getElem?_map, List.getElem?_eq_getElem hlt, hm]
    exact congrArg some hr
  · rw [List.getElem?_eq_none (by simpa using hge),
      List.getElem?_eq_none (by simpa [← hl] using hge)]

end

end Flow

/-! ### Both directions -/

namespace Duplex

structure Inv (key : S.Key) (number : Side → ℕ) (d : Duplex S) : Prop where
  counts : ∀ x, (d.stream x).Counts key (number x + (d.sent x).length)
    (number x.other + (d.taken x).length)
  flow : ∀ x, Flow key (number x.other) (d.pipe x) (d.sent x.other) (d.taken x)

variable {key : S.Key} {number : Side → ℕ} {d : Duplex S}

theorem inv_start (key : S.Key) (number : Side → ℕ) : Inv key number (start key number) where
  counts := fun _ => ⟨rfl, rfl, _, rfl, rfl, rfl, rfl⟩
  flow := fun _ => Flow.start key _

variable (x : Side)

theorem other_ne : x.other ≠ x := by cases x <;> decide

section

variable (h : Inv key number d)

include h

theorem Inv.send {msg : Bytes}
    (hl : msg.length + 16 ≤ 0x3FFFFFFF) : Inv key number (d.send x msg) := by
  have hx := h.counts x
  constructor
  · intro y
    by_cases hy : y = x
    · subst hy
      simp only [Duplex.send, update_self, List.length_append, List.length_singleton,
        ← Nat.add_assoc]
      exact (hx.sendRaw msg).1
    · simp only [Duplex.send, update_of_ne hy]
      exact h.counts y
  · intro y
    by_cases hy : y = x
    · subst hy
      simp only [Duplex.send, update_of_ne (other_ne y), update_of_ne (other_ne y).symm]
      exact h.flow y
    · obtain rfl := Side.eq_other hy
      have hoo : x.other.other = x := by cases x <;> rfl
      have hf := h.flow x.other
      rw [hoo] at hf
      simp only [Duplex.send, update_self, hoo]
      exact hf.send hx hl

theorem Inv.wait {p : Pipe} (hf : Flow key (number x.other) p (d.sent x.other) (d.taken x)) :
    Inv key number { d with pipe := update d.pipe x p } where
  counts := h.counts
  flow := (forall_update_iff d.pipe fun y p => Flow key (number y.other) p (d.sent y.other)
    (d.taken y)).2 ⟨hf, fun y _ => h.flow y⟩

theorem Inv.arrive (n : ℕ) : Inv key number (d.arrive x n) := h.wait x ((h.flow x).arrive n)

theorem Inv.take {p : Pipe} {m : Bytes} (hm : (d.sent x.other)[(d.taken x).length]? = some m)
    (hg : (d.pipe x).get (d.stream x) =
      (p, some (.data (box key (number x.other) (d.taken x).length m))))
    (hc : Holds header p.reader p.wire
      ((boxes key (number x.other) (d.sent x.other)).drop ((d.taken x).length + 1)) []) :
    Inv key number (d.next x) ∧ (d.next x).taken x =
        d.taken x ++ [(.data (box key (number x.other) (d.taken x).length m), .ok m)] := by
  have hn : ((d.stream x).next (.data (box key (number x.other) (d.taken x).length m))).1.Counts key
        (number x + (d.sent x).length) (number x.other + (d.taken x).length + 1) ∧
      ((d.stream x).next (.data (box key (number x.other) (d.taken x).length m))).2 = .ok m :=
    (h.counts x).next m
  simp only [Duplex.next, hg, hn.2]
  refine ⟨⟨?_, ?_⟩, update_self ..⟩
  · intro y
    by_cases hy : y = x
    · subst hy
      simp only [update_self, List.length_append, List.length_singleton, ← Nat.add_assoc]
      exact hn.1
    · simp only [update_of_ne hy]
      exact h.counts y
  · intro y
    by_cases hy : y = x
    · subst hy
      simp only [update_self]
      exact (h.flow y).take hm hc
    · simp only [update_of_ne hy]
      exact h.flow y

theorem Inv.get : (d.pipe x).get (d.stream x) =
      ({ d.pipe x with reader := ((d.pipe x).reader.decode header).1 },
        ((d.pipe x).reader.decode header).2.map .data) := by
  simp [Pipe.get, (h.counts x).1, BytesCodec.decode, (h.counts x).2.1]

theorem Inv.next : Inv key number (d.next x) := by
  have hflow := h.flow x
  have hget := h.get x
  rcases Nat.lt_or_ge (d.taken x).length (d.sent x.other).length with hlt | hge
  · have hm := List.getElem?_eq_getElem hlt
    rcases (hflow.due hm).decode with ⟨hn, hc⟩ | ⟨hs, hc⟩
    · -- The frame that is due has not arrived in full.
      rw [hn] at hget
      simp only [Duplex.next, hget, Option.map_none]
      refine h.wait x ⟨hflow.answers, ?_⟩
      rwa [boxes_drop hm]
    · rw [hs] at hget
      exact (h.take x hm hget hc).1
  · -- Every payload has been taken, so nothing is under way.
    have hnil : (boxes key (number x.other) (d.sent x.other)).drop (d.taken x).length = [] :=
      List.drop_eq_nil_of_le (by simpa [boxes] using hge)
    have hc := hflow.carries
    rw [hnil] at hc
    rw [hc.decode_nil] at hget
    simp only [Duplex.next, hget, Option.map_none]
    exact h.wait x hflow

theorem Inv.step {i : Act} (hi : i.Fits) : Inv key number (d.step i) := by
  cases i with
  | send x => exact h.send x hi
  | arrive x n => exact h.arrive x n
  | next x => exact h.next x

theorem Inv.run {is : List Act} (his : ∀ i ∈ is, i.Fits) :
    Inv key number (Run.run Duplex.step d is) :=
  Run.inv_run_of_mem (fun _ i hi h => h.step (his i hi)) h

end

/-! ### Once everything has arrived -/

theorem sent_next (d : Duplex S) : (d.next x).sent = d.sent := by
  unfold Duplex.next
  split <;> rfl

theorem sent_nexts (n : ℕ) (d : Duplex S) :
    (Run.run step d (List.replicate n (.next x))).sent = d.sent := by
  induction n generalizing d with
  | zero => rfl
  | succ n ih => exact (ih (d.next x)).trans (sent_next x d)

theorem taken_next_length (d : Duplex S) : (d.taken x).length ≤ ((d.next x).taken x).length := by
  unfold Duplex.next
  split <;> simp

theorem wire_next (h : Inv key number d) (x : Side) :
    ((d.next x).pipe x).wire = (d.pipe x).wire := by
  have hget := h.get x
  unfold Duplex.next
  split <;> rename_i he <;> rw [he] at hget <;> simp [(Prod.mk.inj hget).1]

theorem Inv.next_due (h : Inv key number d) (x : Side) (hw : (d.pipe x).wire = [])
    (hlt : (d.taken x).length < (d.sent x.other).length) :
    ((d.next x).taken x).length = (d.taken x).length + 1 := by
  have hm := List.getElem?_eq_getElem hlt
  have hdue := (h.flow x).due hm
  rw [hw] at hdue
  obtain ⟨hs, hc⟩ := hdue.decode_arrived
  have hget := h.get x
  rw [hs] at hget
  rw [(h.take x hm hget (by rw [hw]; exact hc)).2, List.length_append, List.length_singleton]

theorem Inv.drain (h : Inv key number d) (x : Side) (hw : (d.pipe x).wire = []) {n : ℕ}
    (hn : (d.sent x.other).length ≤ (d.taken x).length + n) :
    ((Run.run Duplex.step d (List.replicate n (.next x))).taken x).length =
      (d.sent x.other).length := by
  induction n generalizing d with
  | zero => exact le_antisymm (h.flow x).length_le hn
  | succ n ih =>
    rw [List.replicate_succ, Run.run_cons]
    change ((Run.run Duplex.step (d.next x) _).taken x).length = _
    have hsent : (d.next x).sent = d.sent := sent_next x d
    have hw' : ((d.next x).pipe x).wire = [] := by rw [wire_next h x, hw]
    rw [← hsent]
    refine ih (h.next x) hw' ?_
    rw [hsent]
    rcases Nat.lt_or_ge (d.taken x).length (d.sent x.other).length with hlt | hge
    · rw [h.next_due x hw hlt]
      omega
    · have := taken_next_length x d
      omega

def after (key : S.Key) (number : Side → ℕ) (is : List Act) : Duplex S :=
  Run.run Duplex.step (start key number) is

/-- Every answer an end got is the payload the other end sent at that place, out
of a frame longer than `dec` passes on unopened; and once the bytes under way
have arrived, enough calls of `next` give every payload. -/
theorem honest_exact (key : S.Key) (number : Side → ℕ) {is : List Act}
    (his : ∀ i ∈ is, i.Fits) (x : Side) :
    (∀ (k : ℕ) (f : Frame) (r : Next), ((after key number is).taken x)[k]? = some (f, r) →
      ∃ m bytes, ((after key number is).sent x.other)[k]? = some m ∧ r = .ok m ∧
        f = .data bytes ∧ 1 < bytes.length ∧
        S.openBox key (getNonce ((number x.other + k + 1) % 2 ^ 64)) bytes = some m) ∧
    ∀ n, ((after key number is).sent x.other).length ≤ ((after key number is).taken x).length + n →
      ((Run.run Duplex.step (after key number is)
          (.arrive x ((after key number is).pipe x).wire.length ::
            List.replicate n (.next x))).taken x).map (·.2) =
        ((after key number is).sent x.other).map .ok := by
  have hinv : Inv key number (after key number is) := (inv_start key number).run his
  generalize after key number is = d at hinv
  constructor
  · intro k f r hk
    obtain ⟨m, hm, hf, hr⟩ := (hinv.flow x).answers k f r hk
    refine ⟨m, _, hm, hr, hf, ?_, S.open_seal _ _ _⟩
    rw [box_length]
    omega
  · intro n hn
    have ha := hinv.arrive x (d.pipe x).wire.length
    have hw : ((d.arrive x (d.pipe x).wire.length).pipe x).wire = [] := by
      simp [Duplex.arrive, Pipe.arrive]
    have hl := ha.drain x hw hn
    have hfits : ∀ i ∈ List.replicate n (Act.next x), i.Fits := by
      intro i hi
      rw [List.eq_of_mem_replicate hi]
      trivial
    have hall := ((ha.run hfits).flow x).all (by rw [hl, sent_nexts])
    rwa [sent_nexts] at hall

/-- Both ends talk: an empty payload, one of one byte, and one whose box is just
too long for a header of one byte. The first bytes arrive one at a time. -/
def smallTalk : List Act :=
  [.send .one [], .arrive .two 1, .next .two, .send .two [5], .send .one [7], .arrive .two 1,
    .arrive .two 20, .next .two, .send .one (List.replicate 48 1), .arrive .one 3, .next .one]

theorem honest_exact_smallTalk : (∀ i ∈ smallTalk, i.Fits) ∧
    (((after [9] (fun _ => 2 ^ 64 - 1) smallTalk : Duplex Box.keyed).taken .two)[0]?).map (·.2) =
      some (.ok []) ∧
    ((Run.run Duplex.step (after [9] (fun _ => 2 ^ 64 - 1) smallTalk : Duplex Box.keyed)
        (.arrive .two ((after [9] (fun _ => 2 ^ 64 - 1) smallTalk :
          Duplex Box.keyed).pipe .two).wire.length :: List.replicate 2 (.next .two))).taken
        .two).map (·.2) = [.ok [], .ok [7], .ok (List.replicate 48 1)] := by
  have hfits : ∀ i ∈ smallTalk, i.Fits := by
    simp [smallTalk, Act.Fits]
  refine ⟨hfits, by decide +kernel, ?_⟩
  exact (honest_exact (S := Box.keyed) [9] (fun _ => 2 ^ 64 - 1) hfits .two).2 2 (by decide +kernel)

end Duplex
end CodeDesk.Net
