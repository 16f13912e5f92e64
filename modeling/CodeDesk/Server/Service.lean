/-
# Services and their snapshots

`ServiceTmpl` and `ServiceSwap` of `src/server/service.rs` between their
acquisitions of the lock. A subscriber of a service with `need_snapshot` waits in
`new_subscribes`. `snapshot` makes a `ServiceSwap` if anybody waits; its callback
sends some messages, each under the lock, to those who wait at that moment; when
the `ServiceSwap` is dropped those who wait then are swapped in, and the messages
of the service go to them too. A callback that fails drops it early.

Who subscribes after the first message of a snapshot and before its drop is
swapped in without that message (`swapped_in_late`). In a run in which that does
not happen and no callback fails (`Clean`), whoever got a message of the service
had got all those of a snapshot before (`snapshot_first`). Nobody is lost in any
run: `is_subed` is what the last call for an id asked for.

A map from ids to subscribers is the list of its values. `got` is history: what
was passed to a subscriber's `send`; `gone` has those that were removed.
-/
import CodeDesk.Run
import Mathlib.Data.Int.Notation
import Mathlib.Data.List.Nodup

namespace CodeDesk.Server.Service

variable {α : Type*}

inductive Got (α : Type*) where
  | broadcast (m : α)
  | snapshot (k : ℕ) (m : α)
  deriving DecidableEq, Repr

structure Subscriber (α : Type*) where
  id : ℤ
  got : List (Got α) := []
  deriving DecidableEq, Repr

def Subscriber.send (g : Got α) (s : Subscriber α) : Subscriber α := { s with got := s.got ++ [g] }

/-! ### Maps of subscribers -/

def contains (id : ℤ) (l : List (Subscriber α)) : Bool := l.any (·.id = id)

def insert (s : Subscriber α) (l : List (Subscriber α)) : List (Subscriber α) :=
  s :: l.filter (·.id ≠ s.id)

def remove (id : ℤ) (l : List (Subscriber α)) : List (Subscriber α) := l.filter (·.id ≠ id)

structure ServiceInner (α : Type*) where
  needSnapshot : Bool
  subscribes : List (Subscriber α) := []
  newSubscribes : List (Subscriber α) := []
  deriving DecidableEq, Repr

namespace ServiceInner

def isSubed (id : ℤ) (v : ServiceInner α) : Bool :=
  contains id v.subscribes || contains id v.newSubscribes

def onSubscribe (id : ℤ) (v : ServiceInner α) : ServiceInner α :=
  if contains id v.subscribes then v
  else if v.needSnapshot then { v with newSubscribes := insert { id := id } v.newSubscribes }
  else { v with subscribes := insert { id := id } v.subscribes }

def onUnsubscribe (id : ℤ) (v : ServiceInner α) : ServiceInner α :=
  if contains id v.subscribes then { v with subscribes := remove id v.subscribes }
  else { v with newSubscribes := remove id v.newSubscribes }

def sendNewSubscribes (g : Got α) (v : ServiceInner α) : ServiceInner α :=
  { v with newSubscribes := v.newSubscribes.map (Subscriber.send g) }

def swapNewSubscribes (v : ServiceInner α) : ServiceInner α :=
  { v with
    subscribes := v.newSubscribes.foldl (fun l s => insert s l) v.subscribes
    newSubscribes := [] }

/-- A message of the service to the subscribers that `p` picks. -/
def sendWhere (p : ℤ → Bool) (m : α) (v : ServiceInner α) : ServiceInner α :=
  { v with
    subscribes := v.subscribes.map fun s => if p s.id then s.send (.broadcast m) else s }

def sendShared (m : α) (v : ServiceInner α) : ServiceInner α := v.sendWhere (fun _ => true) m

def sendTo (m : α) (id : ℤ) (v : ServiceInner α) : ServiceInner α := v.sendWhere (· = id) m

def sendToOthers (m : α) (id : ℤ) (v : ServiceInner α) : ServiceInner α := v.sendWhere (· ≠ id) m

def sendWithout (m : α) (sub : ℤ) (v : ServiceInner α) : ServiceInner α := v.sendWhere (sub ≠ ·) m

/-- The ids are those the caller waits for. -/
def sendVideoFrameShared (m : α) (v : ServiceInner α) : ServiceInner α × List ℤ :=
  (v.sendShared m, v.subscribes.map (·.id))

end ServiceInner

inductive Send where
  | shared
  | toOne (id : ℤ)
  | toOthers (id : ℤ)
  | without (sub : ℤ)
  | videoFrame
  deriving DecidableEq, Repr

def Send.apply (m : α) (v : ServiceInner α) : Send → ServiceInner α
  | shared => v.sendShared m
  | toOne id => v.sendTo m id
  | toOthers id => v.sendToOthers m id
  | without sub => v.sendWithout m sub
  | videoFrame => (v.sendVideoFrameShared m).1

def Send.picks : Send → ℤ → Bool
  | shared, _ => true
  | toOne id, sid => sid = id
  | toOthers id, sid => sid ≠ id
  | without sub, sid => sub ≠ sid
  | videoFrame, _ => true

theorem Send.apply_eq (c : Send) (m : α) (v : ServiceInner α) :
    c.apply m v = v.sendWhere c.picks m := by
  cases c <;> rfl

/-! ### The service in time -/

/-- A `ServiceSwap` whose callback is to send `plan` and has sent `sent` of it. -/
structure Swap (α : Type*) where
  plan : List α
  sent : ℕ := 0
  dropped : Bool := false
  deriving DecidableEq, Repr

structure Sys (α : Type*) where
  inner : ServiceInner α
  swaps : List (Swap α) := []
  gone : List (Subscriber α) := []
  deriving DecidableEq, Repr

inductive Input (α : Type*) where
  | subscribe (id : ℤ)
  | unsubscribe (id : ℤ)
  | send (c : Send) (m : α)
  | snapshot (plan : List α)
  /-- The callback of snapshot `k` sends. -/
  | swapSend (k : ℕ)
  | drop (k : ℕ)
  deriving DecidableEq, Repr

def start : Sys α where
  inner := { needSnapshot := true }

namespace Sys

/-- A subscriber that waits is replaced by another with its id. -/
def subscribe (id : ℤ) (s : Sys α) : Sys α :=
  { s with
    inner := s.inner.onSubscribe id
    gone := s.gone ++
      if contains id s.inner.subscribes then [] else s.inner.newSubscribes.filter (·.id = id) }

def unsubscribe (id : ℤ) (s : Sys α) : Sys α :=
  { s with
    inner := s.inner.onUnsubscribe id
    gone := s.gone ++
      if contains id s.inner.subscribes then s.inner.subscribes.filter (·.id = id)
      else s.inner.newSubscribes.filter (·.id = id) }

def snapshot (plan : List α) (s : Sys α) : Sys α :=
  if s.inner.newSubscribes = [] then s else { s with swaps := s.swaps ++ [{ plan := plan }] }

def swapSend (k : ℕ) (w : Swap α) (s : Sys α) : Sys α :=
  match w.plan[w.sent]? with
  | none => s
  | some m =>
    { s with
      inner := s.inner.sendNewSubscribes (.snapshot k m)
      swaps := s.swaps.set k { w with sent := w.sent + 1 } }

def drop (k : ℕ) (w : Swap α) (s : Sys α) : Sys α :=
  { s with
    inner := s.inner.swapNewSubscribes
    swaps := s.swaps.set k { w with dropped := true } }

def withSwap (k : ℕ) (f : Swap α → Sys α → Sys α) (s : Sys α) : Sys α :=
  match s.swaps[k]? with
  | none => s
  | some w => if w.dropped then s else f w s

def step (s : Sys α) : Input α → Sys α
  | .subscribe id => s.subscribe id
  | .unsubscribe id => s.unsubscribe id
  | .send c m => { s with inner := c.apply m s.inner }
  | .snapshot plan => s.snapshot plan
  | .swapSend k => s.withSwap k (swapSend k)
  | .drop k => s.withSwap k (drop k)

end Sys

/-- Nobody new subscribes between the first message of a snapshot and its drop,
and a callback sends all it has to send. -/
def Clean (s : Sys α) : Input α → Prop
  | .subscribe id =>
    contains id s.inner.subscribes = true ∨ ∀ w ∈ s.swaps, w.dropped = false → w.sent = 0
  | .drop k => ∀ w ∈ s.swaps[k]?, w.dropped = false → w.sent = w.plan.length
  | _ => True

instance (s : Sys α) : ∀ i, Decidable (Clean s i)
  | .subscribe _ => inferInstanceAs (Decidable (_ ∨ ∀ _ ∈ _, _ → _))
  | .drop _ => inferInstanceAs (Decidable (∀ _ ∈ _, _ → _))
  | .unsubscribe _ | .send _ _ | .snapshot _ | .swapSend _ => .isTrue trivial

/-! ### What a subscriber got -/

def ofSwap (k : ℕ) (got : List (Got α)) : List α :=
  got.filterMap fun
    | .snapshot j m => if j = k then some m else none
    | .broadcast _ => none

@[simp] theorem ofSwap_append (k : ℕ) (xs ys : List (Got α)) :
    ofSwap k (xs ++ ys) = ofSwap k xs ++ ofSwap k ys := List.filterMap_append

@[simp] theorem ofSwap_snapshot (k j : ℕ) (m : α) :
    ofSwap k [.snapshot j m] = if j = k then [m] else [] := by
  by_cases h : j = k <;> simp [ofSwap, h]

@[simp] theorem ofSwap_broadcasts (k : ℕ) (ms : List α) : ofSwap k (ms.map .broadcast) = [] := by
  simp [ofSwap, List.filterMap_map]

variable {k : ℕ} {got : List (Got α)} {swaps old new : List (Swap α)} {id : ℤ} {l : List
  (Subscriber α)} {t : Subscriber α} {v : ServiceInner α}

theorem ofSwap_fresh (h : ∀ j m, .snapshot j m ∈ got → j < k) : ofSwap k got = [] := by
  rw [ofSwap, List.filterMap_eq_nil_iff]
  intro g hg
  cases g with
  | broadcast => rfl
  | snapshot j m =>
    have := h j m hg
    exact if_neg (by omega)

/-- It waits for a snapshot: of each that is not over it got what was sent. -/
structure Waits (swaps : List (Swap α)) (got : List (Got α)) : Prop where
  silent : ∀ m, .broadcast m ∉ got
  known : ∀ k m, .snapshot k m ∈ got → k < swaps.length
  upTo : ∀ k w, swaps[k]? = some w → w.dropped = false → ofSwap k got = w.plan.take w.sent

/-- It got a whole snapshot and then messages of the service. -/
def Served (swaps : List (Swap α)) (got : List (Got α)) : Prop :=
  ∃ (k : ℕ) (w : Swap α) (before : List (Got α)) (after : List α),
    swaps[k]? = some w ∧ w.dropped = true ∧ got = before ++ after.map .broadcast ∧
      (∀ m, .broadcast m ∉ before) ∧ ofSwap k before = w.plan

/-- Every message of the service comes after a whole snapshot. -/
def SnapshotFirst (swaps : List (Swap α)) (got : List (Got α)) : Prop :=
  ∀ (before : List (Got α)) (m : α) (after : List (Got α)), got = before ++ .broadcast m :: after →
    ∃ k w, swaps[k]? = some w ∧ w.dropped = true ∧ ofSwap k before = w.plan

theorem Waits.snapshotFirst (h : Waits swaps got) : SnapshotFirst swaps got := by
  rintro before m after rfl
  exact absurd (List.mem_append_right _ List.mem_cons_self) (h.silent m)

theorem Served.snapshotFirst (h : Served swaps got) : SnapshotFirst swaps got := by
  obtain ⟨k, w, pre, ms, hk, hd, rfl, hs, hp⟩ := h
  intro before m after he
  refine ⟨k, w, hk, hd, ?_⟩
  rcases List.append_eq_append_iff.1 he with ⟨mid, rfl, hms⟩ | ⟨mid, rfl, hm⟩
  · obtain ⟨ms₁, ms₂, -, rfl, -⟩ := List.map_eq_append_iff.1 hms
    simp [hp]
  · cases mid with
    | nil => simpa using hp
    | cons =>
      obtain rfl := (List.cons.inj hm).1
      exact absurd (List.mem_append_right _ List.mem_cons_self) (hs m)

def Kept (old new : List (Swap α)) : Prop :=
  ∀ (k : ℕ) (w : Swap α), old[k]? = some w → w.dropped = true → new[k]? = some w

theorem Served.mono (hk : Kept old new) (h : Served old got) : Served new got := by
  obtain ⟨k, w, before, after, hw, hd, h⟩ := h
  exact ⟨k, w, before, after, hk k w hw hd, hd, h⟩

theorem SnapshotFirst.mono (hk : Kept old new)
    (h : SnapshotFirst old got) : SnapshotFirst new got := by
  intro before m after he
  obtain ⟨k, w, hw, hd, hp⟩ := h before m after he
  exact ⟨k, w, hk k w hw hd, hd, hp⟩

theorem Served.broadcast (h : Served swaps got) (m : α) : Served swaps (got ++ [.broadcast m]) := by
  obtain ⟨k, w, before, after, hk, hd, rfl, hs, hp⟩ := h
  exact ⟨k, w, before, after ++ [m], hk, hd, by simp, hs, hp⟩

variable {w : Swap α}

theorem kept_set (w' : Swap α)
    (hk : swaps[k]? = some w) (hd : w.dropped = false) : Kept swaps (swaps.set k w') := by
  intro j x hj hx
  have hne : k ≠ j := by
    rintro rfl
    cases hk.symm.trans hj
    cases hx.symm.trans hd
  rw [List.getElem?_set_ne hne, hj]

theorem kept_append (swaps : List (Swap α)) (w : Swap α) : Kept swaps (swaps ++ [w]) := by
  intro k x hk _
  rw [List.getElem?_append_left (List.getElem?_eq_some_iff.1 hk).1, hk]

namespace Waits

variable {swaps : List (Swap α)} {got : List (Got α)}

theorem start {swaps : List (Swap α)} (h : ∀ w ∈ swaps, w.dropped = false → w.sent = 0) :
    Waits swaps [] := by
  refine ⟨nofun, nofun, ?_⟩
  intro k w hk hd
  rw [h w (List.mem_of_getElem? hk) hd]
  rfl

theorem snapshot (h : Waits swaps got) (plan : List α) :
    Waits (swaps ++ [{ plan := plan }]) got where
  silent := h.silent
  known := by
    intro k m hm
    rw [List.length_append]
    exact Nat.lt_of_lt_of_le (h.known k m hm) (Nat.le_add_right _ _)
  upTo := by
    intro k w hk hd
    rcases Nat.lt_or_ge k swaps.length with hlt | hge
    · rw [List.getElem?_append_left hlt] at hk
      exact h.upTo k w hk hd
    · -- Of a snapshot that starts now nothing was sent.
      have hw : w = { plan := plan } := by
        have hm := List.mem_of_getElem? ((List.getElem?_append_right hge).symm.trans hk)
        exact List.mem_singleton.1 hm
      rw [hw, List.take_zero]
      exact ofSwap_fresh fun j m hj => Nat.lt_of_lt_of_le (h.known j m hj) hge

variable (h : Waits swaps got) (hk : swaps[k]? = some w) (hd : w.dropped = false)

include h hk hd

theorem swapSend {m : α} (hm : w.plan[w.sent]? = some m) :
    Waits (swaps.set k { w with sent := w.sent + 1 }) (got ++ [.snapshot k m]) where
  silent := by
    intro m'
    simp [h.silent m']
  known := by
    intro j m' hj
    rw [List.length_set]
    rcases List.mem_append.1 hj with hj | hj
    · exact h.known j m' hj
    · simp only [List.mem_singleton, Got.snapshot.injEq] at hj
      rw [hj.1]
      exact (List.getElem?_eq_some_iff.1 hk).1
  upTo := by
    intro j x hj hx
    by_cases hjk : k = j
    · subst hjk
      rw [List.getElem?_set_self (List.getElem?_eq_some_iff.1 hk).1] at hj
      cases hj
      simp [h.upTo k w hk hd, List.take_add_one, hm]
    · rw [List.getElem?_set_ne hjk] at hj
      simp [h.upTo j x hj hx, hjk]

theorem drop (hs : w.sent = w.plan.length) :
    Served (swaps.set k { w with dropped := true }) got := by
  refine ⟨k, _, got, [], List.getElem?_set_self (List.getElem?_eq_some_iff.1 hk).1, rfl, by simp,
    h.silent, ?_⟩
  rw [h.upTo k w hk hd, hs, List.take_length]

end Waits

/-! ### Maps, by their members -/

theorem contains_iff : contains id l = true ↔ ∃ t ∈ l, t.id = id := by
  simp [contains]

theorem mem_insert {s : Subscriber α} : t ∈ insert s l ↔ t = s ∨ t ∈ l ∧ t.id ≠ s.id := by
  simp [insert]

theorem mem_remove : t ∈ remove id l ↔ t ∈ l ∧ t.id ≠ id := by
  simp [remove]

theorem mem_inserts {new : List (Subscriber α)} (hn : (new.map (·.id)).Nodup) :
    t ∈ new.foldl (fun l s => insert s l) l ↔ t ∈ new ∨ t ∈ l ∧ ∀ s ∈ new, t.id ≠ s.id := by
  induction new generalizing l with
  | nil => simp
  | cons s new ih =>
    rw [List.map_cons, List.nodup_cons] at hn
    have hs : ∀ r ∈ new, s.id ≠ r.id := fun r hr he =>
      hn.1 (List.mem_map.2 ⟨r, hr, he.symm⟩)
    rw [List.foldl_cons, ih hn.2, mem_insert]
    simp only [List.mem_cons, forall_eq_or_imp]
    constructor
    · rintro (h | ⟨rfl | h, hne⟩)
      · exact .inl (.inr h)
      · exact .inl (.inl rfl)
      · exact .inr ⟨h.1, h.2, hne⟩
    · rintro ((rfl | h) | ⟨hl, hne, hall⟩)
      · exact .inr ⟨.inl rfl, hs⟩
      · exact .inl h
      · exact .inr ⟨.inr ⟨hl, hne⟩, hall⟩

/-! ### Nobody is lost -/

/-- Who waits is not subscribed, and waits once. -/
structure Apart (v : ServiceInner α) : Prop where
  flag : v.needSnapshot = true
  distinct : (v.newSubscribes.map (·.id)).Nodup
  apart : ∀ t ∈ v.newSubscribes, ∀ r ∈ v.subscribes, t.id ≠ r.id

namespace Apart

variable {v : ServiceInner α}

theorem filter {l : List (Subscriber α)} (h : (l.map (·.id)).Nodup)
    (p : Subscriber α → Bool) : ((l.filter p).map (·.id)).Nodup :=
  h.sublist (List.filter_sublist.map _)

variable (h : Apart v)

include h

theorem onSubscribe (id : ℤ) : Apart (v.onSubscribe id) := by
  unfold ServiceInner.onSubscribe
  by_cases hc : contains id v.subscribes = true
  · rwa [if_pos hc]
  rw [if_neg hc, if_pos h.flag]
  refine ⟨h.flag, ?_, ?_⟩
  · rw [insert, List.map_cons, List.nodup_cons]
    refine ⟨?_, filter h.distinct _⟩
    simp
  · intro t ht r hr
    rcases mem_insert.1 ht with rfl | ⟨ht, -⟩
    · intro he
      exact hc (contains_iff.2 ⟨r, hr, he.symm⟩)
    · exact h.apart t ht r hr

theorem onUnsubscribe (id : ℤ) : Apart (v.onUnsubscribe id) := by
  unfold ServiceInner.onUnsubscribe
  split
  · exact ⟨h.flag, h.distinct, fun t ht r hr => h.apart t ht r (mem_remove.1 hr).1⟩
  · exact ⟨h.flag, filter h.distinct _, fun t ht => h.apart t (mem_remove.1 ht).1⟩

theorem sendWhere (p : ℤ → Bool) (m : α) : Apart (v.sendWhere p m) := by
  refine ⟨h.flag, h.distinct, ?_⟩
  intro t ht r hr
  obtain ⟨r', hr', rfl⟩ := List.mem_map.1 hr
  have hid : (if p r'.id then r'.send (.broadcast m) else r').id = r'.id := by split <;> rfl
  rw [hid]
  exact h.apart t ht r' hr'

theorem sendNewSubscribes (g : Got α) : Apart (v.sendNewSubscribes g) := by
  refine ⟨h.flag, ?_, ?_⟩
  · simp only [ServiceInner.sendNewSubscribes, List.map_map]
    exact h.distinct
  · intro t ht
    obtain ⟨t', ht', rfl⟩ := List.mem_map.1 ht
    exact h.apart t' ht'

theorem swapNewSubscribes : Apart v.swapNewSubscribes := ⟨h.flag, List.nodup_nil, nofun⟩

theorem mem_swap {t : Subscriber α} :
    t ∈ v.swapNewSubscribes.subscribes ↔ t ∈ v.newSubscribes ∨ t ∈ v.subscribes := by
  rw [ServiceInner.swapNewSubscribes, mem_inserts h.distinct]
  constructor
  · exact Or.imp_right And.left
  · exact Or.imp_right fun ht => ⟨ht, fun s hs he => h.apart s hs t ht he.symm⟩

end Apart

theorem isSubed_iff :
    v.isSubed id = true ↔ ∃ t, (t ∈ v.newSubscribes ∨ t ∈ v.subscribes) ∧ t.id = id := by
  rw [ServiceInner.isSubed, Bool.or_eq_true, contains_iff, contains_iff, or_comm, ← exists_or]
  simp only [or_and_right]

theorem contains_map {f : Subscriber α → Subscriber α} (hf : ∀ t, (f t).id = t.id) (id : ℤ)
    (l : List (Subscriber α)) : contains id (l.map f) = contains id l := by
  simp only [contains, List.any_map, Function.comp_def, hf]

theorem isSubed_sendWhere (v : ServiceInner α) (p : ℤ → Bool) (m : α) (id : ℤ) :
    (v.sendWhere p m).isSubed id = v.isSubed id := by
  have hc : contains id (v.sendWhere p m).subscribes = contains id v.subscribes :=
    contains_map (fun t => by split <;> rfl) id _
  rw [ServiceInner.isSubed, hc]
  rfl

theorem isSubed_sendNewSubscribes (v : ServiceInner α) (g : Got α) (id : ℤ) :
    (v.sendNewSubscribes g).isSubed id = v.isSubed id := by
  have hc : contains id (v.sendNewSubscribes g).newSubscribes = contains id v.newSubscribes :=
    contains_map (f := Subscriber.send g) (fun _ => rfl) id _
  rw [ServiceInner.isSubed, hc]
  rfl

theorem Apart.isSubed_swap (h : Apart v) (id : ℤ) :
    v.swapNewSubscribes.isSubed id = v.isSubed id := by
  rw [Bool.eq_iff_iff, isSubed_iff, isSubed_iff]
  refine exists_congr fun t => and_congr_left fun _ => ?_
  rw [h.mem_swap]
  simp [ServiceInner.swapNewSubscribes]

theorem Apart.isSubed_onSubscribe (h : Apart v) (id j : ℤ) :
    (v.onSubscribe j).isSubed id = (decide (j = id) || v.isSubed id) := by
  unfold ServiceInner.onSubscribe
  by_cases hc : contains j v.subscribes = true
  · rw [if_pos hc]
    by_cases hj : j = id
    · subst hj
      simp [ServiceInner.isSubed, hc]
    · simp [hj]
  · rw [if_neg hc, if_pos h.flag]
    by_cases hj : j = id
    · simp [ServiceInner.isSubed, contains, insert, hj]
    have hne : ∀ t : Subscriber α, (!decide (t.id = j) && decide (t.id = id)) =
        decide (t.id = id) := by
      intro t
      by_cases ht : t.id = id
      · simp [ht, Ne.symm hj]
      · simp [ht]
    simp [ServiceInner.isSubed, contains, insert, hj, hne]

theorem Apart.isSubed_onUnsubscribe (h : Apart v) (id j : ℤ) :
    (v.onUnsubscribe j).isSubed id = (decide (j ≠ id) && v.isSubed id) := by
  rw [Bool.eq_iff_iff, Bool.and_eq_true, decide_eq_true_eq, isSubed_iff, isSubed_iff]
  unfold ServiceInner.onUnsubscribe
  by_cases hc : contains j v.subscribes = true
  · obtain ⟨r, hr, hrj⟩ := contains_iff.1 hc
    rw [if_pos hc]
    constructor
    · rintro ⟨t, ht | ht, rfl⟩
      · exact ⟨fun he => h.apart t ht r hr (he ▸ hrj.symm), t, .inl ht, rfl⟩
      · obtain ⟨ht, hne⟩ := mem_remove.1 ht
        exact ⟨Ne.symm hne, t, .inr ht, rfl⟩
    · rintro ⟨hne, t, ht, rfl⟩
      exact ⟨t, ht.imp_right fun ht => mem_remove.2 ⟨ht, Ne.symm hne⟩, rfl⟩
  · have hnot : ∀ r ∈ v.subscribes, r.id ≠ j := fun r hr he => hc (contains_iff.2 ⟨r, hr, he⟩)
    rw [if_neg hc]
    constructor
    · rintro ⟨t, ht | ht, rfl⟩
      · obtain ⟨ht, hne⟩ := mem_remove.1 ht
        exact ⟨Ne.symm hne, t, .inl ht, rfl⟩
      · exact ⟨Ne.symm (hnot t ht), t, .inr ht, rfl⟩
    · rintro ⟨hne, t, ht, rfl⟩
      exact ⟨t, ht.imp_left fun ht => mem_remove.2 ⟨ht, Ne.symm hne⟩, rfl⟩

/-- Whether `id` is to be subscribed after an input, if it was `b` before. -/
def asks (id : ℤ) (b : Bool) : Input α → Bool
  | .subscribe j => decide (j = id) || b
  | .unsubscribe j => decide (j ≠ id) && b
  | _ => b

namespace Sys

variable {s : Sys α}

@[elab_as_elim]
theorem withSwap_ind {P : Sys α → Prop} (s : Sys α) (k : ℕ) (f : Swap α → Sys α → Sys α) (hs : P s)
    (hf : ∀ w, s.swaps[k]? = some w → w.dropped = false → P (f w s)) : P (s.withSwap k f) := by
  unfold withSwap
  split
  · exact hs
  · rename_i w hk
    split_ifs with hd
    · exact hs
    · exact hf w hk (by simpa using hd)

@[elab_as_elim]
theorem swapSend_ind {P : Sys α → Prop} (s : Sys α) (k : ℕ) (w : Swap α) (hs : P s)
    (hm : ∀ m, w.plan[w.sent]? = some m → P { s with
      inner := s.inner.sendNewSubscribes (.snapshot k m)
      swaps := s.swaps.set k { w with sent := w.sent + 1 } }) : P (s.swapSend k w) := by
  unfold swapSend
  split
  · exact hs
  · rename_i m hget
    exact hm m hget

theorem isSubed_step (h : Apart s.inner) (i : Input α) : Apart (s.step i).inner ∧
      ∀ id, (s.step i).inner.isSubed id = asks id (s.inner.isSubed id) i := by
  cases i with
  | subscribe j => exact ⟨h.onSubscribe j, fun id => h.isSubed_onSubscribe id j⟩
  | unsubscribe j => exact ⟨h.onUnsubscribe j, fun id => h.isSubed_onUnsubscribe id j⟩
  | send c m =>
    dsimp only [step]
    rw [c.apply_eq]
    exact ⟨h.sendWhere _ m, isSubed_sendWhere _ _ m⟩
  | snapshot =>
    dsimp only [step, snapshot]
    split <;> exact ⟨h, fun _ => rfl⟩
  | swapSend k =>
    dsimp only [step]
    refine withSwap_ind s k _ ⟨h, fun _ => rfl⟩ fun w _ _ => ?_
    refine swapSend_ind s k w ⟨h, fun _ => rfl⟩ fun m _ => ?_
    exact ⟨h.sendNewSubscribes _, isSubed_sendNewSubscribes _ _⟩
  | drop k =>
    dsimp only [step]
    refine withSwap_ind s k _ ⟨h, fun _ => rfl⟩ fun w _ _ => ?_
    exact ⟨h.swapNewSubscribes, h.isSubed_swap⟩

theorem isSubed_run (h : Apart s.inner) (is : List (Input α)) : Apart (Run.run step s is).inner ∧
      ∀ id, (Run.run step s is).inner.isSubed id = is.foldl (asks id) (s.inner.isSubed id) := by
  induction is generalizing s with
  | nil => exact ⟨h, fun _ => rfl⟩
  | cons i is ih =>
    obtain ⟨ha, hs⟩ := isSubed_step h i
    refine ⟨(ih ha).1, fun id => ?_⟩
    rw [Run.run_cons, (ih ha).2 id, hs id, List.foldl_cons]

/-! ### Snapshots come first -/

structure Inv (s : Sys α) : Prop where
  waits : ∀ t ∈ s.inner.newSubscribes, Waits s.swaps t.got
  served : ∀ t ∈ s.inner.subscribes, Served s.swaps t.got
  gone : ∀ t ∈ s.gone, SnapshotFirst s.swaps t.got

namespace Inv

variable (h : Inv s)

include h

theorem subscribe (hf : s.inner.needSnapshot = true) {id : ℤ}
    (hc : Clean s (.subscribe id)) : Inv (s.subscribe id) := by
  unfold Sys.subscribe ServiceInner.onSubscribe
  by_cases hin : contains id s.inner.subscribes = true
  · simpa only [if_pos hin, List.append_nil] using h
  simp only [if_neg hin, if_pos hf]
  refine ⟨?_, h.served, ?_⟩
  · intro t ht
    rcases mem_insert.1 ht with rfl | ⟨ht, -⟩
    · exact Waits.start (hc.resolve_left hin)
    · exact h.waits t ht
  · exact List.forall_mem_append.2 ⟨h.gone, fun t ht =>
      (h.waits t (List.mem_filter.1 ht).1).snapshotFirst⟩

theorem unsubscribe (id : ℤ) : Inv (s.unsubscribe id) := by
  unfold Sys.unsubscribe ServiceInner.onUnsubscribe
  by_cases hin : contains id s.inner.subscribes = true
  · simp only [if_pos hin]
    refine ⟨h.waits, fun t ht => h.served t (mem_remove.1 ht).1, ?_⟩
    exact List.forall_mem_append.2 ⟨h.gone, fun t ht =>
      (h.served t (List.mem_filter.1 ht).1).snapshotFirst⟩
  · simp only [if_neg hin]
    refine ⟨fun t ht => h.waits t (mem_remove.1 ht).1, h.served, ?_⟩
    exact List.forall_mem_append.2 ⟨h.gone, fun t ht =>
      (h.waits t (List.mem_filter.1 ht).1).snapshotFirst⟩

theorem sendWhere (p : ℤ → Bool) (m : α) : Inv { s with inner := s.inner.sendWhere p m } := by
  refine ⟨h.waits, ?_, h.gone⟩
  intro t ht
  obtain ⟨t', ht', rfl⟩ := List.mem_map.1 ht
  split
  · exact (h.served t' ht').broadcast m
  · exact h.served t' ht'

theorem snapshot (plan : List α) : Inv (s.snapshot plan) := by
  unfold Sys.snapshot
  split
  · exact h
  · have hk := kept_append s.swaps { plan := plan }
    exact ⟨fun t ht => (h.waits t ht).snapshot plan, fun t ht => (h.served t ht).mono hk,
      fun t ht => (h.gone t ht).mono hk⟩

theorem swapSend {k : ℕ} (hk : s.swaps[k]? = some w)
    (hd : w.dropped = false) : Inv (s.swapSend k w) := by
  refine swapSend_ind s k w h fun m hm => ?_
  have hkept := kept_set { w with sent := w.sent + 1 } hk hd
  refine ⟨?_, fun t ht => (h.served t ht).mono hkept, fun t ht => (h.gone t ht).mono hkept⟩
  intro t ht
  obtain ⟨t', ht', rfl⟩ := List.mem_map.1 ht
  exact (h.waits t' ht').swapSend hk hd hm

theorem drop (ha : Apart s.inner) {k : ℕ} (hk : s.swaps[k]? = some w)
    (hd : w.dropped = false) (hs : w.sent = w.plan.length) : Inv (s.drop k w) := by
  have hkept := kept_set { w with dropped := true } hk hd
  refine ⟨nofun, ?_, fun t ht => (h.gone t ht).mono hkept⟩
  intro t ht
  rcases ha.mem_swap.1 ht with ht | ht
  · exact (h.waits t ht).drop hk hd hs
  · exact (h.served t ht).mono hkept

theorem step (ha : Apart s.inner) {i : Input α} (hc : Clean s i) : Inv (s.step i) := by
  cases i with
  | subscribe => exact h.subscribe ha.flag hc
  | unsubscribe id => exact h.unsubscribe id
  | send c m =>
    dsimp only [Sys.step]
    rw [c.apply_eq]
    exact h.sendWhere _ m
  | snapshot plan => exact h.snapshot plan
  | swapSend k =>
    dsimp only [Sys.step]
    exact withSwap_ind s k _ h fun w hk hd => h.swapSend hk hd
  | drop k =>
    dsimp only [Sys.step]
    exact withSwap_ind s k _ h fun w hk hd => h.drop ha hk hd (hc w hk hd)

theorem run (ha : Apart s.inner) {is : List (Input α)}
    (hm : Run.Meets Sys.step Clean s is) : Inv (Run.run Sys.step s is) :=
  (Run.inv_run_of_meets (I := fun s => Inv s ∧ Apart s.inner)
    (fun _ i _ h hc => ⟨h.1.step h.2 hc, (isSubed_step h.2 i).1⟩) ⟨h, ha⟩ hm).1

end Inv

/-- All subscribers there were: those who are subscribed, wait or have left. -/
def everyone (s : Sys α) : List (Subscriber α) :=
  s.inner.subscribes ++ s.inner.newSubscribes ++ s.gone

/-- In a clean run a message of the service comes only after all messages of a
snapshot; and in any run exactly those are subscribed or wait who asked for it
last, each with all it got before when it is swapped in. -/
theorem snapshot_first (is : List (Input α)) :
    (Run.Meets step Clean start is → ∀ t ∈ (Run.run step start is).everyone,
      SnapshotFirst (Run.run step start is).swaps t.got) ∧
    (∀ id, (Run.run step start is).inner.isSubed id = is.foldl (asks id) false) ∧
    ∀ t, t ∈ (Run.run step start is).inner.swapNewSubscribes.subscribes ↔
      t ∈ (Run.run step start is).inner.newSubscribes ∨
        t ∈ (Run.run step start is).inner.subscribes := by
  have ha : Apart (start : Sys α).inner := ⟨rfl, List.nodup_nil, nofun⟩
  obtain ⟨hapart, hsubed⟩ := isSubed_run ha is
  refine ⟨?_, hsubed, fun t => hapart.mem_swap⟩
  intro hm t ht
  have hstart : Inv (start : Sys α) :=
    ⟨List.forall_mem_nil _, List.forall_mem_nil _, List.forall_mem_nil _⟩
  have hinv : Inv (Run.run step start is) := hstart.run ha hm
  simp only [everyone, List.mem_append] at ht
  rcases ht with (ht | ht) | ht
  · exact (hinv.served t ht).snapshotFirst
  · exact (hinv.waits t ht).snapshotFirst
  · exact hinv.gone t ht

/-- Subscriber 2 comes after the message of the first snapshot; the snapshot is
dropped, and a frame is sent. -/
def lateComer : List (Input String) :=
  [.subscribe 1, .snapshot ["format"], .swapSend 0, .subscribe 2, .drop 0, .send .shared "frame"]

/-- It gets the frame without a snapshot. -/
theorem swapped_in_late : (⟨2, [.broadcast "frame"]⟩ : Subscriber String) ∈
      (Run.run step start lateComer).inner.subscribes ∧
    ∀ w ∈ (Run.run step start lateComer).swaps, w.plan ≠ [] := by
  decide +kernel

/-- Two subscribers, of whom one comes while the callback has not sent yet. -/
def inTime : List (Input String) :=
  [.subscribe 1, .snapshot ["format", "cursor"], .subscribe 2, .swapSend 0, .swapSend 0, .drop 0,
    .subscribe 3, .send .shared "frame", .unsubscribe 1, .snapshot ["format"], .swapSend 1,
    .drop 1, .send (.toOthers 2) "frame"]

theorem snapshot_first_inTime : Run.Meets step Clean start inTime ∧
    (∀ t ∈ (Run.run step start inTime).everyone,
      SnapshotFirst (Run.run step start inTime).swaps t.got) ∧
    (Run.run step start inTime).everyone.map (·.got.length) = [2, 3, 3] ∧
    (Run.run step start inTime).inner.isSubed 3 = true := by
  have hm : Run.Meets step Clean start inTime := by decide +kernel
  refine ⟨hm, (snapshot_first inTime).1 hm, by decide +kernel, ?_⟩
  decide

/-- What the subscriber `id` is sent by an input. -/
def heard (id : ℤ) : Input α → Option (Got α)
  | .send c m => if c.picks id then some (.broadcast m) else none
  | _ => none

theorem heard_step (h : Apart s.inner) {t : Subscriber α} (ht : t ∈ s.inner.subscribes)
    {i : Input α} (hi : i ≠ .unsubscribe t.id) :
    { t with got := t.got ++ (heard t.id i).toList } ∈ (s.step i).inner.subscribes := by
  have hsame : { t with got := t.got ++ [] } ∈ s.inner.subscribes := by simpa using ht
  cases i with
  | subscribe =>
    simp only [step, subscribe, ServiceInner.onSubscribe, if_pos h.flag]
    split <;> exact hsame
  | unsubscribe j =>
    simp only [step, unsubscribe, ServiceInner.onUnsubscribe]
    split
    · exact mem_remove.2 ⟨hsame, fun he => hi (by rw [← he])⟩
    · exact hsame
  | send c m =>
    dsimp only [step, heard]
    rw [c.apply_eq]
    refine List.mem_map.2 ⟨t, ht, ?_⟩
    split <;> simp [Subscriber.send]
  | snapshot =>
    dsimp only [step, snapshot]
    split <;> exact hsame
  | swapSend k =>
    dsimp only [step]
    exact withSwap_ind s k _ hsame fun w _ _ => swapSend_ind s k w hsame fun _ _ => hsame
  | drop k =>
    dsimp only [step]
    exact withSwap_ind s k _ hsame fun _ _ _ => h.mem_swap.2 (.inr hsame)

/-- **Nothing is lost or sent twice.** Whatever else happens, a subscriber that was swapped in
gets every message that is sent to it, once and in order, until it unsubscribes. -/
theorem subscriber_hears_all (is js : List (Input α)) {t : Subscriber α}
    (ht : t ∈ (Run.run step start is).inner.subscribes) (hu : .unsubscribe t.id ∉ js) :
    { t with got := t.got ++ js.filterMap (heard t.id) } ∈
      (Run.run step start (is ++ js)).inner.subscribes := by
  have ha : Apart (start : Sys α).inner := ⟨rfl, List.nodup_nil, nofun⟩
  have hrun := (isSubed_run ha is).1
  rw [Run.run_append]
  generalize Run.run step start is = s at ht hrun ⊢
  induction js generalizing s t with
  | nil => simpa using ht
  | cons i js ih =>
    obtain ⟨hi, hu⟩ := not_or.1 (List.mem_cons.not.1 hu)
    have := ih (t := ⟨t.id, t.got ++ (heard t.id i).toList⟩) hu _ (heard_step hrun ht (Ne.symm hi))
      (isSubed_step hrun i).1
    cases hh : heard t.id i <;> simpa [hh] using this

theorem subscriber_hears_two :
    (⟨1, [.broadcast 7, .broadcast 9]⟩ : Subscriber ℕ) ∈ (Run.run step start
      ([.subscribe 1, .snapshot [], .drop 0] ++
        [.send .shared 7, .subscribe 2, .send (.toOne 2) 8, .send (.without 2) 9])).inner.subscribes :=
  subscriber_hears_all (t := ⟨1, []⟩) _ _ (by decide) (by decide)

end Sys

end CodeDesk.Server.Service
