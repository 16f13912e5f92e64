/-
# Two endpoints that share a key

Both ends of a secured stream with everything that can happen between them: an
end sends a payload, or the network gives an end a frame, any frame it likes.
The link keeps what each end passed to `send_raw`, each `secretbox::seal` that
was made, and each frame an end took with what `next` made of it.

The boxes an end has sealed are those of its payloads, the `k`-th under number
`k + 1` (`Keyed`). With that, and a cipher nobody forges, what an end takes out
of the frames of more than one byte that it did not seal itself is a
subsequence of what the other end sent (`taken_sublist_sent`). Both ends count
from one under the same key, so a nonce is used by both (`nonce_unique_iff`).
-/
import CodeDesk.Run
import CodeDesk.Net.Stream
import Mathlib.Data.List.Infix
import Mathlib.Logic.Function.Basic

namespace CodeDesk.Net

open Sealing Function

inductive Side where
  | one
  | two
  deriving DecidableEq, Repr

def Side.other : Side → Side
  | one => two
  | two => one

theorem Side.eq_other {s t : Side} (h : s ≠ t) : s = t.other := by
  cases s <;> cases t <;> first | rfl | exact absurd rfl h

variable {S : Box}

structure Sealed (S : Box) where
  side : Side
  key : S.Key
  nonce : Bytes
  plain : Bytes

def Sealed.box (r : Sealed S) : Bytes := S.sealBox r.key r.nonce r.plain

structure Link (S : Box) where
  stream : Side → Stream S
  /-- What each end passed to `send_raw`. -/
  sent : Side → List Bytes := fun _ => []
  seals : List (Sealed S) := []
  /-- The frames each end took from the network, with the answers of `next`. -/
  delivered : Side → List (Frame × Next) := fun _ => []

inductive Input where
  | send (s : Side) (msg : Bytes)
  | deliver (s : Side) (f : Frame)

namespace Link

def sealing (s : Side) (msg : Bytes) (l : Link S) : List (Sealed S) :=
  match (l.stream s).encrypt with
  | some e => [⟨s, e.key, e.sealNonce, msg⟩]
  | none => []

def send (s : Side) (msg : Bytes) (l : Link S) : Link S :=
  { l with
    stream := update l.stream s ((l.stream s).sendRaw msg).1
    sent := update l.sent s (l.sent s ++ [msg])
    seals := l.seals ++ l.sealing s msg }

def deliver (s : Side) (f : Frame) (l : Link S) : Link S :=
  { l with
    stream := update l.stream s ((l.stream s).next f).1
    delivered := update l.delivered s (l.delivered s ++ [(f, ((l.stream s).next f).2)]) }

def step (l : Link S) : Input → Link S
  | .send s msg => l.send s msg
  | .deliver s f => l.deliver s f

/-- Both ends have called `set_key`. -/
def start (kind : Side → Kind) (key : S.Key) : Link S where
  stream := fun s => Stream.setKey key { kind := kind s }

/-- The cipher is not forged: what opens was sealed by one of the ends, under
the nonce it opens with. -/
def Unforged (l : Link S) : Input → Prop
  | .deliver s (.data bytes) =>
    ∀ e ∈ (l.stream s).encrypt, ∀ m ∈ S.openBox e.key e.openNonce bytes, 1 < bytes.length →
      ∃ r ∈ l.seals, r.nonce = e.openNonce ∧ r.plain = m ∧ r.box = bytes
  | _ => True

instance (l : Link S) : ∀ i, Decidable (l.Unforged i)
  | .deliver _ (.data _) => inferInstanceAs (Decidable (∀ _ ∈ _, ∀ _ ∈ _, _ → _))
  | .deliver _ (.text _) => .isTrue trivial
  | .deliver _ .control => .isTrue trivial
  | .deliver _ .close => .isTrue trivial
  | .deliver _ .error => .isTrue trivial
  | .send _ _ => .isTrue trivial

def Bounded (l : Link S) : Prop :=
  ∀ s, (l.sent s).length < 2 ^ 64 ∧ (l.delivered s).length < 2 ^ 64

end Link

variable {s : Side} {e : Encrypt S} {bytes : Bytes} {f : Frame} {kind : Side → Kind} {key : S.Key}
  {l : Link S}

def sends (s : Side) (is : List Input) : List Bytes :=
  is.filterMap fun
    | .send t msg => if t = s then some msg else none
    | .deliver _ _ => none

theorem sent_run (s : Side) (l : Link S) (is : List Input) :
    (Run.run Link.step l is).sent s = l.sent s ++ sends s is := by
  induction is generalizing l with
  | nil => simp [sends]
  | cons i is ih =>
    rw [Run.run_cons, ih]
    cases i with
    | send t =>
      by_cases h : t = s
      · subst h
        simp [Link.step, Link.send, sends]
      · simp [Link.step, Link.send, sends, h, Ne.symm h]
    | deliver => simp [Link.step, Link.deliver, sends]

theorem sent_start_run (kind : Side → Kind) (key : S.Key) (is : List Input) (s : Side) :
    (Run.run Link.step (Link.start kind key) is).sent s = sends s is :=
  sent_run s _ is

/-! ### One step of a keyed stream -/

theorem sendRaw_encrypt {s : Stream S} (he : s.encrypt = some e) (msg : Bytes) :
    (s.sendRaw msg).1.encrypt = some { e with sent := (e.sent + 1) % 2 ^ 64 } := by
  simp only [Stream.sendRaw, he, Encrypt.enc]

theorem next_long {s : Stream S} (he : s.encrypt = some e) (hl : 1 < bytes.length) :
    (s.next (.data bytes)).1.encrypt = some { e with received := (e.received + 1) % 2 ^ 64 } ∧
      ∀ m, (s.next (.data bytes)).2 = .ok m → S.openBox e.key e.openNonce bytes = some m := by
  have hn : ¬ bytes.length ≤ 1 := by omega
  simp only [Stream.next, Stream.decrypt, he, Encrypt.dec, if_neg hn]
  refine ⟨trivial, ?_⟩
  intro m hm
  cases ho : S.openBox e.key e.openNonce bytes <;> rw [ho] at hm <;> cases hm
  rfl

theorem next_short {s : Stream S} (he : s.encrypt = some e)
    (hf : ∀ bytes, f = .data bytes → bytes.length ≤ 1) :
    (s.next f).1.encrypt = some e ∧ ∀ bytes, f = .data bytes → (s.next f).2 = .ok bytes := by
  cases f with
  | data bytes =>
    simp only [Stream.next, Stream.decrypt, he, Encrypt.dec, if_pos (hf bytes rfl)]
    refine ⟨trivial, ?_⟩
    rintro _ ⟨⟩
    rfl
  | text =>
    simp only [Stream.next]
    split <;> exact ⟨he, nofun⟩
  | control | close | error => exact ⟨he, nofun⟩

/-! ### What the ends have sealed -/

/-- The seal of a payload, under its number. -/
def Numbered (key : S.Key) (l : Link S) (r : Sealed S) : Prop :=
  r.key = key ∧ ∃ k, (l.sent r.side)[k]? = some r.plain ∧ r.nonce = getNonce ((k + 1) % 2 ^ 64)

/-- Both streams have the key and count their payloads, and the seals are those
of the payloads. -/
structure Keyed (key : S.Key) (l : Link S) : Prop where
  secured : ∀ s, ∃ e, (l.stream s).encrypt = some e ∧ e.key = key ∧
    e.sent = (l.sent s).length % 2 ^ 64 ∧ e.received ≤ (l.delivered s).length
  seals : ∀ r, r ∈ l.seals ↔ Numbered key l r

theorem keyed_start (hk : ∀ s, kind s ≠ .webRtc) (key : S.Key) :
    Keyed key (Link.start kind key) where
  secured := by
    intro s
    refine ⟨{ key := key }, ?_, rfl, rfl, le_rfl⟩
    simp only [Link.start, Stream.setKey, if_neg (hk s)]
  seals := by
    intro r
    simp [Link.start, Numbered]

theorem numbered_send (s : Side) (msg : Bytes) (r : Sealed S) : Numbered key (l.send s msg) r ↔
      Numbered key l r ∨ r = ⟨s, key, getNonce (((l.sent s).length + 1) % 2 ^ 64), msg⟩ := by
  obtain ⟨t, rkey, nonce, plain⟩ := r
  by_cases hts : t = s
  · subst hts
    simp only [Numbered, Link.send, update_self, Sealed.mk.injEq, true_and]
    constructor
    · rintro ⟨rfl, k, hk, rfl⟩
      rcases Nat.lt_trichotomy k (l.sent t).length with h | rfl | h
      · rw [List.getElem?_append_left h] at hk
        exact .inl ⟨rfl, k, hk, rfl⟩
      · rw [List.getElem?_concat_length] at hk
        exact .inr ⟨rfl, rfl, (Option.some.inj hk).symm⟩
      · rw [List.getElem?_eq_none (by simp; omega)] at hk
        cases hk
    · rintro (⟨rfl, k, hk, rfl⟩ | ⟨rfl, rfl, rfl⟩)
      · obtain ⟨hlt, -⟩ := List.getElem?_eq_some_iff.1 hk
        exact ⟨rfl, k, by rw [List.getElem?_append_left hlt, hk], rfl⟩
      · exact ⟨rfl, _, List.getElem?_concat_length, rfl⟩
  · have hne : (⟨t, rkey, nonce, plain⟩ : Sealed S) ≠
        ⟨s, key, getNonce (((l.sent s).length + 1) % 2 ^ 64), msg⟩ :=
      fun h => hts (congrArg Sealed.side h)
    simp only [Numbered, Link.send, update_of_ne hts, hne, or_false]

theorem Keyed.send (h : Keyed key l) (s : Side) (msg : Bytes) : Keyed key (l.send s msg) := by
  obtain ⟨e, he, hkey, hsent, hrecv⟩ := h.secured s
  constructor
  case secured =>
    intro t
    by_cases hts : t = s
    · subst hts
      refine ⟨{ e with sent := (e.sent + 1) % 2 ^ 64 }, ?_, hkey, ?_, hrecv⟩
      · simp only [Link.send, update_self, sendRaw_encrypt he]
      · simp [Link.send, hsent]
    · simp only [Link.send, update_of_ne hts]
      exact h.secured t
  case seals =>
    intro r
    have hs : l.sealing s msg = [⟨s, key, getNonce (((l.sent s).length + 1) % 2 ^ 64), msg⟩] := by
      simp [Link.sealing, he, hkey, Encrypt.sealNonce, hsent]
    rw [numbered_send, ← h.seals]
    simp [Link.send, hs]

theorem next_keyed {s : Stream S} (he : s.encrypt = some e) (f : Frame) :
    ∃ n ≤ e.received + 1, (s.next f).1.encrypt = some { e with received := n } := by
  by_cases hf : ∀ bytes, f = .data bytes → bytes.length ≤ 1
  · exact ⟨e.received, by omega, (next_short he hf).1⟩
  · push Not at hf
    obtain ⟨bytes, rfl, hl⟩ := hf
    exact ⟨_, Nat.mod_le _ _, (next_long he hl).1⟩

theorem Keyed.deliver (h : Keyed key l) (s : Side) (f : Frame) : Keyed key (l.deliver s f) := by
  constructor
  case secured =>
    intro t
    by_cases hts : t = s
    · subst hts
      obtain ⟨e, he, hkey, hsent, hrecv⟩ := h.secured t
      obtain ⟨n, hn, hnext⟩ := next_keyed he f
      refine ⟨{ e with received := n }, ?_, hkey, hsent, ?_⟩
      · simp only [Link.deliver, update_self, hnext]
      · simp only [Link.deliver, update_self, List.length_append, List.length_singleton]
        omega
    · simp only [Link.deliver, update_of_ne hts]
      exact h.secured t
  case seals => exact h.seals

theorem Keyed.step (h : Keyed key l) (i : Input) : Keyed key (l.step i) := by
  cases i with
  | send s msg => exact h.send s msg
  | deliver s f => exact h.deliver s f

theorem keyed_run (hk : ∀ s, kind s ≠ .webRtc) (key : S.Key)
    (is : List Input) : Keyed key (Run.run Link.step (Link.start kind key) is) :=
  Run.inv_run (fun _ i h => h.step i) (keyed_start hk key) is

/-! ### Nonces -/

/-- No two seals use one key and one nonce for different plaintexts. -/
def NonceUnique (l : Link S) : Prop :=
  ∀ r ∈ l.seals, ∀ r' ∈ l.seals, r.key = r'.key → r.nonce = r'.nonce → r.plain = r'.plain

/-- **A nonce is used for one payload only if the ends agree on their payloads.**
The `k`-th payloads of the two ends are sealed under one key and one nonce, so
no nonce covers two plaintexts if and only if the ends send the same, as far as
both have sent. -/
theorem nonce_unique_iff {kind : Side → Kind} (hk : ∀ s, kind s ≠ .webRtc) (key : S.Key)
    (is : List Input) (hb : ∀ s, (sends s is).length < 2 ^ 64) :
    NonceUnique (Run.run Link.step (Link.start kind key) is) ↔
      ∀ (k : ℕ) (x y : Bytes), (sends .one is)[k]? = some x → (sends .two is)[k]? = some y → x = y := by
  have hkeyed := keyed_run hk key is
  have hsent := sent_start_run kind key is
  constructor
  · intro h k x y hx hy
    refine h ⟨.one, key, getNonce ((k + 1) % 2 ^ 64), x⟩ ?_
      ⟨.two, key, getNonce ((k + 1) % 2 ^ 64), y⟩ ?_ rfl rfl
    · exact (hkeyed.seals _).2 ⟨rfl, k, by rw [hsent, hx], rfl⟩
    · exact (hkeyed.seals _).2 ⟨rfl, k, by rw [hsent, hy], rfl⟩
  · intro h r hr r' hr' _ hn
    obtain ⟨-, k, hx, hnk⟩ := (hkeyed.seals r).1 hr
    obtain ⟨-, k', hy, hnk'⟩ := (hkeyed.seals r').1 hr'
    rw [hsent] at hx hy
    -- The nonce gives the number back, as none has wrapped.
    have hkl : k < (sends r.side is).length := (List.getElem?_eq_some_iff.1 hx).1
    have hkl' : k' < (sends r'.side is).length := (List.getElem?_eq_some_iff.1 hy).1
    have hkk : k = k' := by
      have h1 := hb r.side
      have h2 := hb r'.side
      rw [hnk, hnk', Nat.mod_eq_of_lt (by omega), Nat.mod_eq_of_lt (by omega)] at hn
      have := getNonce_injective (by omega) (by omega) hn
      omega
    subst hkk
    cases hs : r.side <;> cases hs' : r'.side <;> rw [hs] at hx <;> rw [hs'] at hy
    · exact Option.some.inj (hx.symm.trans hy)
    · exact h k _ _ hx hy
    · exact (h k _ _ hy hx).symm
    · exact Option.some.inj (hx.symm.trans hy)

/-- One end says back what the other said, and goes on alone. -/
theorem echo_nonce_unique :
    NonceUnique (Run.run Link.step (Link.start (S := Box.plain) (fun _ => .tcp) ())
      [.send .one [7, 7], .send .two [7, 7], .send .two [8]]) := by
  refine (nonce_unique_iff (S := Box.plain) (fun _ => (nofun : Kind.tcp ≠ .webRtc)) () _ ?_).2 ?_
  · intro s
    cases s <;> decide
  · intro k x y hx hy
    cases k with
    | zero => exact Option.some.inj (hx.symm.trans hy)
    | succ => cases hx

/-- The first messages of the two ends share their nonce. -/
theorem ends_share_nonce :
    ¬ NonceUnique (Run.run Link.step (Link.start (S := Box.plain) (fun _ => .tcp) ())
      [.send .one [1, 2], .send .two [3]]) := by
  intro h
  have heq : ([1, 2] : Bytes) = [3] :=
    h ⟨.one, (), getNonce 1, [1, 2]⟩ (.head _) ⟨.two, (), getNonce 1, [3]⟩ (.tail _ (.head _)) rfl rfl
  cases heq

/-! ### Authenticity -/

def Next.payload : Next → Option Bytes
  | .ok bytes => some bytes
  | _ => none

/-- A frame of more than one byte that is none of the boxes end `s` sealed. -/
def Link.Foreign (l : Link S) (s : Side) : Frame → Prop
  | .data bytes => 1 < bytes.length ∧ ∀ r ∈ l.seals, r.side = s → r.box ≠ bytes
  | _ => False

instance (l : Link S) (s : Side) : ∀ f, Decidable (l.Foreign s f)
  | .data _ => inferInstanceAs (Decidable (_ ∧ _))
  | .text _ => .isFalse id
  | .control => .isFalse id
  | .close => .isFalse id
  | .error => .isFalse id

/-- The payloads `next` returned to end `s` out of frames it did not seal. -/
def Link.taken (l : Link S) (s : Side) : List Bytes :=
  (l.delivered s).filterMap fun p => if l.Foreign s p.1 then p.2.payload else none

/-- What an end has taken comes from the other end, up to its receive number;
every longer frame it opened is a seal of an end, every shorter one went
through as it is. -/
structure Authentic (l : Link S) : Prop where
  ordered : l.Bounded → ∀ s e, (l.stream s).encrypt = some e →
    (l.taken s).Sublist ((l.sent s.other).take e.received)
  opened : ∀ s bytes m, (Frame.data bytes, Next.ok m) ∈ l.delivered s → 1 < bytes.length →
    ∃ r ∈ l.seals, r.plain = m ∧ r.box = bytes
  short : ∀ s bytes m, (Frame.data bytes, Next.ok m) ∈ l.delivered s → bytes.length ≤ 1 →
    m = bytes

theorem authentic_start (kind : Side → Kind) (key : S.Key) : Authentic (Link.start kind key) where
  ordered := fun _ _ _ _ => List.nil_sublist _
  opened := nofun
  short := nofun

theorem prefix_update_append {α : Type} (f : Side → List α) (s : Side) (xs : List α) (t : Side) :
    f t <+: update f s (f s ++ xs) t := by
  by_cases hts : t = s
  · subst hts
    rw [update_self]
    exact List.prefix_append _ _
  · rw [update_of_ne hts]

theorem bounded_of_send {msg : Bytes} (h : (l.send s msg).Bounded) : l.Bounded := fun t =>
  ⟨(prefix_update_append _ _ _ t).length_le.trans_lt (h t).1, (h t).2⟩

theorem bounded_of_deliver (h : (l.deliver s f).Bounded) : l.Bounded := fun t =>
  ⟨(h t).1, (prefix_update_append _ _ _ t).length_le.trans_lt (h t).2⟩

theorem taken_send (l : Link S) (s t : Side) (msg : Bytes) :
    ((l.send s msg).taken t).Sublist (l.taken t) := by
  refine filterMap_sublist_filterMap ?_
  rintro ⟨f, n⟩ - m hm
  by_cases hf : (l.send s msg).Foreign t f
  · rw [if_pos hf] at hm
    refine (if_pos ?_).trans hm
    cases f with
    | data => exact ⟨hf.1, fun r hr => hf.2 r (List.mem_append_left _ hr)⟩
    | _ => exact hf.elim
  · simp [if_neg hf] at hm

theorem Authentic.send (hk : Keyed key l) (h : Authentic l) (s : Side)
    (msg : Bytes) : Authentic (l.send s msg) := by
  constructor
  case ordered =>
    intro hb t e' he'
    obtain ⟨e, he, -⟩ := hk.secured t
    have hrec : e'.received = e.received := by
      by_cases hts : t = s
      · subst hts
        simp only [Link.send, update_self, sendRaw_encrypt he, Option.some.injEq] at he'
        rw [← he']
      · simp only [Link.send, update_of_ne hts, he, Option.some.injEq] at he'
        rw [he']
    have hpre : l.sent t.other <+: (l.send s msg).sent t.other := prefix_update_append _ _ _ _
    rw [hrec]
    have hold := h.ordered (bounded_of_send hb) t e he
    exact ((taken_send l s t msg).trans hold).trans (hpre.take _).sublist
  case opened =>
    intro t bytes m hm hl
    obtain ⟨r, hr, hrm⟩ := h.opened t bytes m hm hl
    exact ⟨r, List.mem_append_left _ hr, hrm⟩
  case short => exact h.short

/-- The log after a frame: the frames before it, and what comes of it. -/
theorem taken_deliver (l : Link S) (s : Side) (f : Frame) : (l.deliver s f).taken s = l.taken s ++
      (if l.Foreign s f then ((l.stream s).next f).2.payload else none).toList := by
  simp only [Link.taken, Link.deliver, update_self, List.filterMap_append]
  congr 1

section

variable (hk : Keyed key l) (he : (l.stream s).encrypt = some e)

include hk he

theorem received_lt (hb : (l.deliver s f).Bounded) : e.received + 1 < 2 ^ 64 := by
  obtain ⟨e₁, he₁, -, -, hle⟩ := hk.secured s
  rw [he, Option.some.injEq] at he₁
  have := (hb s).2
  simp only [Link.deliver, update_self, List.length_append, List.length_singleton] at this
  rw [he₁]
  omega

theorem foreign_payload {m : Bytes} (hb : (l.deliver s (.data bytes)).Bounded)
    (hu : l.Unforged (.deliver s (.data bytes))) (hf : l.Foreign s (.data bytes))
    (hm : ((l.stream s).next (.data bytes)).2 = .ok m) :
    (l.sent s.other)[e.received]? = some m := by
  have hopen := (next_long he hf.1).2 m hm
  obtain ⟨r, hr, hnonce, hplain, hbox⟩ := hu e he m hopen hf.1
  have hside : r.side = s.other := Side.eq_other fun h => hf.2 r hr h hbox
  obtain ⟨-, k, hk', hn⟩ := (hk.seals r).1 hr
  rw [hside, hplain] at hk'
  -- Neither number has wrapped, so the nonce is that of one of them.
  have hkl : k < (l.sent s.other).length := (List.getElem?_eq_some_iff.1 hk').1
  have hsent := (bounded_of_deliver hb s.other).1
  have hrecv := received_lt hk he hb
  have heq : k = e.received := by
    rw [hnonce, Encrypt.openNonce, Nat.mod_eq_of_lt hrecv, Nat.mod_eq_of_lt (by omega)] at hn
    have := getNonce_injective hrecv (by omega) hn
    omega
  rw [← heq, hk']

/-- What an end takes stays in order when it takes one more frame. -/
theorem ordered_deliver (hb : (l.deliver s f).Bounded) (hu : l.Unforged (.deliver s f))
    {e' : Encrypt S} (he' : ((l.stream s).next f).1.encrypt = some e')
    (h : (l.taken s).Sublist ((l.sent s.other).take e.received)) :
    ((l.deliver s f).taken s).Sublist ((l.sent s.other).take e'.received) := by
  rw [taken_deliver]
  by_cases hf : ∀ bytes, f = .data bytes → bytes.length ≤ 1
  · have hforeign : ¬ l.Foreign s f := by
      cases f with
      | data bytes =>
        have := hf bytes rfl
        exact fun h => absurd h.1 (by omega)
      | _ => exact id
    rw [(next_short he hf).1, Option.some.injEq] at he'
    rwa [if_neg hforeign, ← he', Option.toList_none, List.append_nil]
  · push Not at hf
    obtain ⟨bytes, rfl, hl⟩ := hf
    have hrecv : e'.received = e.received + 1 := by
      rw [(next_long he hl).1, Option.some.injEq] at he'
      rw [← he']
      exact Nat.mod_eq_of_lt (received_lt hk he hb)
    rw [hrecv]
    have hskip := h.trans (List.take_sublist_take_left (Nat.le_succ e.received))
    by_cases hforeign : l.Foreign s (.data bytes)
    · rw [if_pos hforeign]
      cases hm : ((l.stream s).next (.data bytes)).2 with
      | ok => exact sublist_take_succ h (foreign_payload hk he hb hu hforeign hm)
      | _ => simpa [Next.payload] using hskip
    · simpa [hforeign] using hskip

end

theorem Authentic.deliver (hk : Keyed key l) (h : Authentic l) (s : Side)
    (f : Frame) (hu : l.Unforged (.deliver s f)) : Authentic (l.deliver s f) := by
  obtain ⟨e, he, -⟩ := hk.secured s
  -- The logs of the two ends are apart: only that of `s` has a new entry.
  have hlog : ∀ t p, p ∈ (l.deliver s f).delivered t →
      p ∈ l.delivered t ∨ t = s ∧ p = (f, ((l.stream s).next f).2) := by
    intro t p hp
    by_cases hts : t = s
    · subst hts
      simpa [Link.deliver] using hp
    · simp only [Link.deliver, update_of_ne hts] at hp
      exact .inl hp
  constructor
  case ordered =>
    intro hb t e' he'
    have hold := h.ordered (bounded_of_deliver hb)
    by_cases hts : t = s
    · subst hts
      simp only [Link.deliver, update_self] at he'
      exact ordered_deliver hk he hb hu he' (hold t e he)
    · simp only [Link.deliver, update_of_ne hts] at he'
      have := hold t e' he'
      simp only [Link.taken, Link.deliver, update_of_ne hts] at this ⊢
      exact this
  case opened =>
    intro t bytes m hm hl
    rcases hlog t _ hm with hm | ⟨rfl, hm⟩
    · exact h.opened t bytes m hm hl
    · obtain ⟨rfl, hm⟩ := Prod.mk.inj hm
      obtain ⟨r, hr, -, hplain, hbox⟩ := hu e he m ((next_long he hl).2 m hm.symm) hl
      exact ⟨r, hr, hplain, hbox⟩
  case short =>
    intro t bytes m hm hl
    rcases hlog t _ hm with hm | ⟨rfl, hm⟩
    · exact h.short t bytes m hm hl
    · obtain ⟨rfl, hm⟩ := Prod.mk.inj hm
      have hs := (next_short he (f := .data bytes) (by rintro _ ⟨⟩; exact hl)).2 bytes rfl
      rw [← hm] at hs
      exact Next.ok.inj hs

theorem authentic_run (hk : ∀ s, kind s ≠ .webRtc) (key : S.Key)
    {is : List Input} (hu : Run.Meets Link.step Link.Unforged (Link.start kind key) is) :
    Authentic (Run.run Link.step (Link.start kind key) is) := by
  have hstep : ∀ l, ∀ i ∈ is, Keyed key l ∧ Authentic l → l.Unforged i →
      Keyed key (l.step i) ∧ Authentic (l.step i) := by
    rintro l i - ⟨hkey, h⟩ hi
    refine ⟨hkey.step i, ?_⟩
    cases i with
    | send s msg => exact h.send hkey s msg
    | deliver s f => exact h.deliver hkey s f hi
  exact (Run.inv_run_of_meets hstep ⟨keyed_start hk key, authentic_start kind key⟩ hu).2

/-- **What an end takes, the other end sent.** Whatever frames the network
gives, as long as it cannot forge the cipher: the payloads an end takes out of
frames of more than one byte that it did not seal itself are, in order and
without repetition, among those the other end sent. Every such frame that is
opened is a box of one of the ends, and a frame of at most one byte goes
through as it is. -/
theorem taken_sublist_sent {kind : Side → Kind} (hk : ∀ s, kind s ≠ .webRtc) (key : S.Key)
    (is : List Input) (hu : Run.Meets Link.step Link.Unforged (Link.start kind key) is)
    (hb : (Run.run Link.step (Link.start kind key) is).Bounded) (s : Side) :
    ((Run.run Link.step (Link.start kind key) is).taken s).Sublist (sends s.other is) ∧
    (∀ bytes m, (Frame.data bytes, Next.ok m) ∈
        (Run.run Link.step (Link.start kind key) is).delivered s →
      if bytes.length ≤ 1 then m = bytes
      else ∃ t, m ∈ sends t is ∧ ∃ r ∈ (Run.run Link.step (Link.start kind key) is).seals,
          r.side = t ∧ r.plain = m ∧ r.box = bytes) := by
  have hkey := keyed_run hk key is
  have h := authentic_run hk key hu
  have hsent := sent_start_run kind key is
  obtain ⟨e, he, -⟩ := hkey.secured s
  refine ⟨?_, ?_⟩
  · rw [← hsent]
    exact (h.ordered hb s e he).trans (List.take_sublist _ _)
  · intro bytes m hm
    split
    case isTrue hl => exact h.short s bytes m hm hl
    case isFalse hl =>
      obtain ⟨r, hr, hplain, hbox⟩ := h.opened s bytes m hm (by omega)
      obtain ⟨-, k, hk', -⟩ := (hkey.seals r).1 hr
      rw [hsent, hplain] at hk'
      exact ⟨r.side, List.mem_of_getElem? hk', r, hr, rfl, hplain, hbox⟩

/-- A frame that takes the first number without being a box, the second box of
the other end, and the same again. -/
def lostAndReplayed : List Input :=
  [.send .one [5], .send .one [6], .deliver .two (.data [0, 0]),
    .deliver .two (.data (Box.plain.sealBox () (getNonce 2) [6])),
    .deliver .two (.data (Box.plain.sealBox () (getNonce 2) [6]))]

theorem lostAndReplayed_taken :
    Run.Meets Link.step Link.Unforged (Link.start (S := Box.plain) (fun _ => .tcp) ())
      lostAndReplayed ∧
    (Run.run Link.step (Link.start (S := Box.plain) (fun _ => .tcp) ())
      lostAndReplayed).taken .two = [[6]] ∧
    ((Run.run Link.step (Link.start (S := Box.plain) (fun _ => .tcp) ())
      lostAndReplayed).taken .two).Sublist (sends .one lostAndReplayed) := by
  refine ⟨by decide, by decide, ?_⟩
  exact (taken_sublist_sent (S := Box.plain) (fun _ => (nofun : Kind.tcp ≠ .webRtc)) ()
    lostAndReplayed (by decide) (by intro s; cases s <;> decide) .two).1

def Link.returned (l : Link S) (s : Side) : List Bytes :=
  (l.delivered s).filterMap fun p => p.2.payload

/-- A byte of the network's own, a box given back to the end that sealed it, and
a text message of a WebSocket are all returned. -/
theorem not_sent_yet_returned :
    (Run.Meets Link.step Link.Unforged (Link.start (S := Box.plain) (fun _ => .tcp) ())
        [.deliver .two (.data [9])] ∧
      ¬ ((Run.run Link.step (Link.start (S := Box.plain) (fun _ => .tcp) ())
        [.deliver .two (.data [9])]).returned .two).Sublist
          (sends .one [.deliver .two (.data [9])])) ∧
    (Run.Meets Link.step Link.Unforged (Link.start (S := Box.plain) (fun _ => .tcp) ())
        [.send .one [1, 2], .deliver .one (.data (Box.plain.sealBox () (getNonce 1) [1, 2]))] ∧
      ¬ ((Run.run Link.step (Link.start (S := Box.plain) (fun _ => .tcp) ()) [.send .one [1, 2],
          .deliver .one (.data (Box.plain.sealBox () (getNonce 1) [1, 2]))]).returned .one).Sublist
          (sends .two [.send .one [1, 2],
            .deliver .one (.data (Box.plain.sealBox () (getNonce 1) [1, 2]))])) ∧
    (Run.Meets Link.step Link.Unforged (Link.start (S := Box.plain) (fun _ => .webSocket) ())
        [.deliver .two (.text [1, 2])] ∧
      ¬ ((Run.run Link.step (Link.start (S := Box.plain) (fun _ => .webSocket) ())
        [.deliver .two (.text [1, 2])]).returned .two).Sublist
          (sends .one [.deliver .two (.text [1, 2])])) := by
  decide

end CodeDesk.Net
