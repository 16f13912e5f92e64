/-
# The UI sessions of a peer

The map `SESSIONS` of `src/flutter.rs`, from a peer to its session, and the UI
handlers of each session. `remove_session_by_session_id` takes the lock of the map
twice: it removes the handler, and if that was the last one it removes the peer when
it gets the lock again. In between another thread can give the peer a handler.

A step is what a call does under one lock; a removal that is between its two locks
is kept in `removing`.
-/
import CodeDesk.Run
import Mathlib.Data.List.Nodup
import Mathlib.Logic.Function.Basic

namespace CodeDesk.Client.UiSessions

open Function (update)
open Run (run Meets)

variable {Peer Id : Type} [DecidableEq Peer]

structure State (Peer Id : Type) where
  /-- The session of a peer, by its handlers. -/
  sessions : Peer → Option (List Id) := fun _ => none
  /-- The `remove_peer_key` of the removals that are between their locks. -/
  removing : List Peer := []
  /-- The ids whose insertion succeeded and that were not removed since. -/
  live : List Id := []
  /-- The handlers of each session that was returned, as it left the map. -/
  returned : List (List Id) := []
  deriving Inhabited

inductive Step (Peer Id : Type) where
  | insertSession (p : Peer) (id : Id)
  | insertPeerSessionId (p : Peer) (id : Id)
  /-- The first lock of a removal, which finds `id` among the handlers of `p`. -/
  | remove (p : Peer) (id : Id)
  /-- The second lock of a removal. -/
  | removePeer (p : Peer)
  deriving DecidableEq, Repr

/-- The peer that is given a handler. -/
def Step.opened : Step Peer Id → Option Peer
  | .insertSession p _ | .insertPeerSessionId p _ => some p
  | _ => none

namespace State

def insert (s : State Peer Id) (p : Peer) (id : Id) (handlers : List Id) : State Peer Id :=
  { s with
    sessions := update s.sessions p (some (id :: handlers))
    live := id :: s.live }

def step [DecidableEq Id] (s : State Peer Id) : Step Peer Id → State Peer Id
  | .insertSession p id => s.insert p id ((s.sessions p).getD [])
  | .insertPeerSessionId p id =>
    match s.sessions p with
    | some handlers => s.insert p id handlers
    | none => s
  | .remove p id =>
    match s.sessions p with
    | some handlers =>
      if id ∈ handlers then
        let left := handlers.filter (· ≠ id)
        { s with
          sessions := update s.sessions p (some left)
          removing := if left = [] then p :: s.removing else s.removing
          live := s.live.filter (· ≠ id) }
      else s
    | none => s
  | .removePeer p =>
    if p ∈ s.removing then
      { s with
        sessions := update s.sessions p none
        removing := s.removing.erase p
        returned := (s.sessions p).toList ++ s.returned }
    else s

/-- `get_session_by_session_id` finds a session. -/
def Found (s : State Peer Id) (id : Id) : Prop := ∃ p, ∃ handlers ∈ s.sessions p, id ∈ handlers

/-- No handler is given to a peer that is about to be removed. -/
def Undisturbed (s : State Peer Id) (i : Step Peer Id) : Prop := ∀ p ∈ i.opened, p ∉ s.removing

instance (s : State Peer Id) (i : Step Peer Id) : Decidable (s.Undisturbed i) :=
  inferInstanceAs (Decidable (∀ p ∈ i.opened, p ∉ s.removing))

structure Inv (s : State Peer Id) : Prop where
  found : ∀ id ∈ s.live, s.Found id
  /-- Who has no handler is about to be removed, once. -/
  mem_removing : ∀ p, p ∈ s.removing ↔ s.sessions p = some []
  once : s.removing.Nodup
  returned : ∀ handlers ∈ s.returned, handlers = []

variable {s : State Peer Id} {p : Peer} {handlers : List Id}

theorem Found.update {id : Id} (h : s.Found id) {new : Option (List Id)} {s' : State Peer Id}
    (hs' : s'.sessions = update s.sessions p new)
    (hp : ∀ hs ∈ s.sessions p, id ∈ hs → ∃ hs ∈ new, id ∈ hs) : s'.Found id := by
  obtain ⟨q, hs, hq, hid⟩ := h
  by_cases hqp : q = p
  · subst hqp
    obtain ⟨hs, hnew, hid⟩ := hp hs hq hid
    exact ⟨q, hs, by rw [hs', Function.update_self]; exact hnew, hid⟩
  · exact ⟨q, hs, by rw [hs', Function.update_of_ne hqp]; exact hq, hid⟩

theorem inv_insert (h : s.Inv) (hp : p ∉ s.removing) (id : Id)
    (hh : ∀ hs ∈ s.sessions p, hs = handlers) : (s.insert p id handlers).Inv where
  found id' hid := by
    obtain rfl | hid := List.mem_cons.1 hid
    · exact ⟨p, _, Function.update_self .., List.mem_cons_self⟩
    · refine (h.found id' hid).update rfl fun hs hmem hid => ⟨_, rfl, ?_⟩
      exact List.mem_cons_of_mem _ (hh hs hmem ▸ hid)
  mem_removing q := by
    rw [insert]
    dsimp only
    by_cases hqp : q = p
    · simpa [hqp] using hp
    · rw [Function.update_of_ne hqp, h.mem_removing]
  once := h.once
  returned := h.returned

variable [DecidableEq Id]

theorem inv_remove (h : s.Inv) (hs : s.sessions p = some handlers) {id : Id} (hid : id ∈ handlers) :
    (s.step (.remove p id)).Inv := by
  have hp : p ∉ s.removing := by
    intro hp
    have hnil := Option.some_inj.1 (hs.symm.trans ((h.mem_removing p).1 hp))
    simp [hnil] at hid
  simp only [step, hs, if_pos hid]
  refine ⟨fun id' hid' => ?_, fun q => ?_, ?_, h.returned⟩
  · obtain ⟨hid', hne⟩ := List.mem_filter.1 hid'
    refine (h.found id' hid').update rfl fun hs' hmem hid' => ⟨_, rfl, List.mem_filter.2 ⟨?_, hne⟩⟩
    rwa [Option.some_inj.1 (hs.symm.trans hmem)]
  · dsimp only
    by_cases hqp : q = p
    · subst hqp
      rw [Function.update_self, Option.some_inj]
      split
      case isTrue hnil => exact iff_of_true List.mem_cons_self hnil
      case isFalse hne => exact iff_of_false hp hne
    · rw [Function.update_of_ne hqp, ← h.mem_removing]
      split <;> simp [hqp]
  · split
    · exact List.nodup_cons.2 ⟨hp, h.once⟩
    · exact h.once

theorem inv_removePeer (h : s.Inv) (hp : p ∈ s.removing) : (s.step (.removePeer p)).Inv := by
  have hs := (h.mem_removing p).1 hp
  rw [step, if_pos hp]
  refine ⟨fun id hid => ?_, fun q => ?_, h.once.erase p, ?_⟩
  · refine (h.found id hid).update rfl fun hs' hmem hid => ?_
    simp [← Option.some_inj.1 (hs.symm.trans hmem)] at hid
  · rw [h.once.mem_erase_iff]
    by_cases hqp : q = p
    · simp [hqp]
    · simp [hqp, h.mem_removing q]
  · rw [hs]
    exact List.forall_mem_cons.2 ⟨rfl, h.returned⟩

theorem inv_step (h : s.Inv) (i : Step Peer Id) (hi : s.Undisturbed i) : (s.step i).Inv := by
  cases i with
  | insertSession p id =>
    refine inv_insert h (hi p rfl) id fun hs hmem => ?_
    rw [Option.mem_def] at hmem
    rw [hmem]
    rfl
  | insertPeerSessionId p id =>
    rw [step]
    cases hs : s.sessions p with
    | none => exact h
    | some handlers =>
      exact inv_insert h (hi p rfl) id fun hs' hmem => Option.some_inj.1 (hmem.symm.trans hs)
  | remove p id =>
    cases hs : s.sessions p with
    | none => simpa only [step, hs] using h
    | some handlers =>
      by_cases hid : id ∈ handlers
      · exact inv_remove h hs hid
      · simpa only [step, hs, if_neg hid] using h
  | removePeer p =>
    by_cases hp : p ∈ s.removing
    · exact inv_removePeer h hp
    · simpa only [step, if_neg hp] using h

/-- **UI sessions are neither lost nor left over**, if no peer is given a handler while
it is removed. -/
theorem sessions_kept (is : List (Step Peer Id))
    (h : Meets step Undisturbed ({} : State Peer Id) is) :
    let s := run step ({} : State Peer Id) is
    (∀ id ∈ s.live, s.Found id) ∧ (∀ handlers ∈ s.returned, handlers = []) ∧
      (s.removing = [] → ∀ p, ∀ handlers ∈ s.sessions p, handlers ≠ []) := by
  have hinv := Run.inv_run_of_meets (I := Inv) (fun s i _ hs hi => inv_step hs i hi)
    ⟨by simp, by simp, List.nodup_nil, by simp⟩ h
  refine ⟨hinv.found, hinv.returned, fun hrest p handlers hmem hnil => ?_⟩
  have hp := (hinv.mem_removing p).2 (hnil ▸ hmem)
  simp [hrest] at hp

/-- A second window of a peer is opened while the first one is closed. -/
theorem opened_session_lost :
    let s := run step ({} : State String ℕ)
      [.insertSession "peer" 1, .remove "peer" 1, .insertPeerSessionId "peer" 2, .removePeer "peer"]
    s.live = [2] ∧ s.sessions "peer" = none ∧ s.returned = [[2]] := by
  decide

theorem sessions_kept_reopened : (run step ({} : State String ℕ)
      [.insertSession "peer" 1, .remove "peer" 1, .removePeer "peer",
        .insertSession "peer" 2]).Found 2 :=
  (sessions_kept [.insertSession "peer" 1, .remove "peer" 1, .removePeer "peer",
    .insertSession "peer" 2] (by decide)).1 2 (by decide)

end State
end CodeDesk.Client.UiSessions
