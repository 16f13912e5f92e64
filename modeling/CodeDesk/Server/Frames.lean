/-
# Waiting for a frame to be fetched

After it has sent a frame, the loop of a video service waits until the
connections have fetched it (`VideoFrameController` and the end of `run` in
`src/server/video_service.rs`). What a connection reports goes into a channel;
there is one for each display index, which a monitor and a camera of that
index share.

The loop counts the ids it was told and compares their number with that of
the connections it has sent the frame to. It asks neither whether the ids are
of these connections nor which frame they are about, so that a report on an
earlier frame or by a viewer of the camera stands in for one that is missing
(`left_for_another`). Where all it takes out of the channel is about this
frame, or says that one of these connections has ended, the numbers agree
only if the sets do (`left_when_fetched`).
-/
import Mathlib.Data.Finset.Card
import Mathlib.Logic.Function.Basic
import CodeDesk.Run

namespace CodeDesk.Server.Frames

open Function (update forall_update_iff update_of_ne update_self)

inductive VideoSource where
  | monitor
  | camera
  deriving DecidableEq, Repr

structure VideoService where
  source : VideoSource
  idx : ℕ
  deriving DecidableEq, Repr

/-- What is sent to a channel is `conn`; the frame that was fetched is history,
none if the connection has ended. -/
structure Notice where
  conn : ℤ
  frame : Option (VideoService × ℕ)
  deriving DecidableEq, Repr

/-- `VideoFrameController` and what `run` keeps: the wait goes on, or `left` is
whether it ended with the comparison of the numbers. `frame` counts the rounds
of `run`. -/
structure VideoFrameController where
  sendConnIds : Finset ℤ := ∅
  fetchedConnIds : Finset ℤ := ∅
  frame : ℕ := 0
  waiting : Bool := false
  left : Bool := false

structure Sys where
  notifiers : ℕ → Option (List Notice) := fun _ => none
  displayConnIds : ℕ → Finset ℤ := fun _ => ∅
  loop : VideoService → VideoFrameController := fun _ => {}
  /-- History: all that was reported. -/
  reported : List Notice := []

namespace Sys

variable (s : Sys) (v : VideoService) (n : Notice)

def new : Sys :=
  { s with notifiers := update s.notifiers v.idx (some ((s.notifiers v.idx).getD [])) }

def notifyVideoFrameFetched (idx : ℕ) : Sys :=
  { s with
    notifiers := update s.notifiers idx ((s.notifiers idx).map (· ++ [n]))
    reported := s.reported ++ [n] }

def notifyVideoFrameFetchedByConnId : Sys :=
  { s with
    notifiers := fun idx =>
      if n.conn ∈ s.displayConnIds idx then (s.notifiers idx).map (· ++ [n]) else s.notifiers idx
    reported := s.reported ++ [n] }

/-- `reset`, `set_send` and the start of the wait. -/
def setSend (connIds : Finset ℤ) : Sys :=
  { s with
    loop := update s.loop v ⟨connIds, ∅, (s.loop v).frame + 1, true, false⟩
    displayConnIds :=
      if connIds = ∅ then s.displayConnIds else update s.displayConnIds v.idx connIds }

def taken : List Notice :=
  if (s.loop v).sendConnIds = ∅ then [] else (s.notifiers v.idx).getD []

def tryWaitNext : Sys :=
  { s with
    notifiers := if (s.loop v).sendConnIds = ∅ then s.notifiers
      else update s.notifiers v.idx ((s.notifiers v.idx).map fun _ => [])
    loop := update s.loop v { s.loop v with
      fetchedConnIds := (s.loop v).fetchedConnIds ∪ ((s.taken v).map (·.conn)).toFinset } }

def leave (left : Bool) : Sys :=
  { s with
    loop := update s.loop v { s.loop v with waiting := false, left := left }
    displayConnIds := update s.displayConnIds v.idx ∅ }

def wait : Sys :=
  let s := s.tryWaitNext v
  if (s.loop v).sendConnIds.card ≤ (s.loop v).fetchedConnIds.card then s.leave v true else s

end Sys

inductive Input where
  | new (v : VideoService)
  | send (v : VideoService) (connIds : Finset ℤ)
  | wait (v : VideoService)
  | timeout (v : VideoService)
  /-- `check_privacy_mode_changed` fails, which ends `run` and drops its `Raii`. -/
  | bail (v : VideoService)
  /-- A connection takes a frame of the service from its queue. -/
  | fetched (conn : ℤ) (v : VideoService) (frame : ℕ)
  /-- `VideoReceived` of a web client, which does not name the display. -/
  | received (conn : ℤ) (v : VideoService) (frame : ℕ)
  | closed (conn : ℤ)

def step (s : Sys) : Input → Sys
  | .new v => s.new v
  | .send v connIds => if (s.loop v).waiting then s else s.setSend v connIds
  | .wait v => if (s.loop v).waiting then s.wait v else s
  | .timeout v => if (s.loop v).waiting then s.leave v false else s
  | .bail v => s.leave v (s.loop v).left
  | .fetched conn v frame => s.notifyVideoFrameFetched ⟨conn, some (v, frame)⟩ v.idx
  | .received conn v frame => s.notifyVideoFrameFetchedByConnId ⟨conn, some (v, frame)⟩
  | .closed conn => s.notifyVideoFrameFetchedByConnId ⟨conn, none⟩

/-- The notice is about frame `k` of the service, or ends a connection. -/
def Notice.About (v : VideoService) (k : ℕ) (n : Notice) : Prop :=
  n.frame = none ∨ n.frame = some (v, k)

instance (v : VideoService) (k : ℕ) : DecidablePred (Notice.About v k) := fun _ =>
  inferInstanceAs (Decidable (_ ∨ _))

/-- A round of the wait takes only notices of the connections the frame was
sent to, and about it. -/
def Own (s : Sys) : Input → Prop
  | .wait v => ∀ n ∈ s.taken v, n.conn ∈ (s.loop v).sendConnIds ∧ n.About v (s.loop v).frame
  | _ => True

instance (s : Sys) : DecidablePred (Own s) := fun i => by
  cases i <;> unfold Own <;> infer_instance

/-- Of the loop of `v`, with all that was reported: who counts as fetched was
sent the frame and has reported it, and if the wait was left all were. -/
structure Sound (reported : List Notice) (v : VideoService) (d : VideoFrameController) : Prop where
  sent : d.fetchedConnIds ⊆ d.sendConnIds
  told : ∀ c ∈ d.fetchedConnIds, ∃ n ∈ reported, n.conn = c ∧ n.About v d.frame
  left : d.left = true → d.sendConnIds ⊆ d.fetchedConnIds

structure Inv (s : Sys) : Prop where
  queued : ∀ idx, ∀ q ∈ s.notifiers idx, q ⊆ s.reported
  loop : ∀ v, Sound s.reported v (s.loop v)

variable {s : Sys} {v : VideoService} {i : Input}

theorem Inv.report (h : Inv s) (n : Notice) {notifiers : ℕ → Option (List Notice)}
    (hn : ∀ idx, notifiers idx = s.notifiers idx ∨
      notifiers idx = (s.notifiers idx).map (· ++ [n])) :
    Inv { s with notifiers := notifiers, reported := s.reported ++ [n] } := by
  refine ⟨fun idx q (hq : notifiers idx = some q) => ?_, fun v => ?_⟩
  · rcases hn idx with he | he <;> rw [he] at hq
    · exact List.subset_append_of_subset_left _ (h.queued idx q hq)
    · obtain ⟨q', hq', rfl⟩ := Option.map_eq_some_iff.1 hq
      exact List.append_subset.2 ⟨List.subset_append_of_subset_left _ (h.queued idx q' hq'),
        List.subset_append_right _ _⟩
  · refine ⟨(h.loop v).sent, fun c hc => ?_, (h.loop v).left⟩
    obtain ⟨n', hn', hc'⟩ := (h.loop v).told c hc
    exact ⟨n', List.mem_append_left _ hn', hc'⟩

theorem Inv.setLoop (h : Inv s) {d : VideoFrameController} (hd : Sound s.reported v d) :
    ∀ w, Sound s.reported w (update s.loop v d w) :=
  (forall_update_iff _ _).2 ⟨hd, fun w _ => h.loop w⟩

theorem Inv.queued_update (h : Inv s) {idx : ℕ} {q : Option (List Notice)}
    (hq : ∀ l ∈ q, l ⊆ s.reported) : ∀ idx', ∀ l ∈ update s.notifiers idx q idx', l ⊆ s.reported :=
  (forall_update_iff s.notifiers fun _ q => ∀ l ∈ q, l ⊆ s.reported).2
    ⟨hq, fun idx' _ => h.queued idx'⟩

theorem Inv.queue (h : Inv s) (idx : ℕ) : (s.notifiers idx).getD [] ⊆ s.reported := by
  cases hq : s.notifiers idx with
  | none => exact List.nil_subset _
  | some q => exact h.queued idx q hq

theorem Inv.tryWaitNext (h : Inv s) (hown : Own s (.wait v)) : Inv (s.tryWaitNext v) := by
  have htaken : s.taken v ⊆ s.reported := by
    unfold Sys.taken
    split
    · exact List.nil_subset _
    · exact h.queue v.idx
  refine ⟨?_, h.setLoop ⟨?_, fun c hc => ?_, fun hl => ?_⟩⟩
  · unfold Sys.tryWaitNext
    split
    · exact h.queued
    · refine h.queued_update fun q hq => ?_
      obtain ⟨-, -, rfl⟩ := Option.map_eq_some_iff.1 hq
      exact List.nil_subset _
  · refine Finset.union_subset (h.loop v).sent fun c hc => ?_
    obtain ⟨n, hn, rfl⟩ := List.mem_map.1 (List.mem_toFinset.1 hc)
    exact (hown n hn).1
  · rcases Finset.mem_union.1 hc with hc | hc
    · exact (h.loop v).told c hc
    · obtain ⟨n, hn, rfl⟩ := List.mem_map.1 (List.mem_toFinset.1 hc)
      exact ⟨n, htaken hn, rfl, (hown n hn).2⟩
  · exact ((h.loop v).left hl).trans Finset.subset_union_left

theorem Inv.leave (h : Inv s) {left : Bool}
    (hl : left = true → (s.loop v).sendConnIds ⊆ (s.loop v).fetchedConnIds) :
    Inv (s.leave v left) :=
  ⟨h.queued, h.setLoop ⟨(h.loop v).sent, (h.loop v).told, hl⟩⟩

theorem Inv.step (h : Inv s) (hown : Own s i) : Inv (step s i) := by
  cases i with
  | new v =>
    refine ⟨h.queued_update fun q hq => ?_, h.loop⟩
    cases hq
    exact h.queue v.idx
  | send =>
    simp only [Frames.step]
    split
    · exact h
    · exact ⟨h.queued, h.setLoop ⟨Finset.empty_subset _, nofun, nofun⟩⟩
  | wait v =>
    simp only [Frames.step]
    split
    · have hnext := h.tryWaitNext hown
      unfold Sys.wait
      dsimp only
      split_ifs with hle
      · -- as many ids of the connections as there are connections: all of them
        exact hnext.leave fun _ => (Finset.eq_of_subset_of_card_le (hnext.loop v).sent hle).ge
      · exact hnext
    · exact h
  | timeout =>
    simp only [Frames.step]
    split
    · exact h.leave nofun
    · exact h
  | bail v => exact h.leave (h.loop v).left
  | fetched conn v =>
    refine h.report _ fun idx => ?_
    by_cases hi : idx = v.idx
    · subst hi
      exact .inr (update_self ..)
    · exact .inl (update_of_ne hi ..)
  | received | closed => exact h.report _ fun idx => (ite_eq_or_eq _ _ _).symm

/-- In a run in which every wait takes only notices of the connections its
frame was sent to and about that frame, a wait that ends before its timeout
does so after all these connections have reported the frame or ended. -/
theorem left_when_fetched (is : List Input) (v : VideoService) (hown : Run.Meets step Own {} is)
    (hleft : ((Run.run step {} is).loop v).left = true) :
    ∀ c ∈ ((Run.run step {} is).loop v).sendConnIds, ∃ n ∈ (Run.run step {} is).reported,
      n.conn = c ∧ n.About v ((Run.run step {} is).loop v).frame := by
  have h : Inv (Run.run step {} is) := Run.inv_run_of_meets (fun s i _ h hi => h.step hi)
      ⟨nofun, fun v => ⟨Finset.empty_subset _, nofun, nofun⟩⟩ hown
  intro c hc
  exact (h.loop v).told c ((h.loop v).left hleft hc)

/-- A frame of the first monitor goes to connections 1 and 2, of which one
fetches it and the other ends. -/
theorem left_when_fetched_two :
    let is := [Input.new ⟨.monitor, 0⟩, .send ⟨.monitor, 0⟩ {1, 2}, .fetched 1 ⟨.monitor, 0⟩ 1,
      .wait ⟨.monitor, 0⟩, .closed 2, .wait ⟨.monitor, 0⟩]
    ∃ n ∈ (Run.run step {} is).reported, n.conn = 2 ∧ n.About ⟨.monitor, 0⟩ 1 :=
  left_when_fetched _ ⟨.monitor, 0⟩ (by decide) (by decide) 2 (by decide)

/-- A viewer of the first camera fetches a frame of that: the loop of the first
monitor goes on, though connection 1 has reported nothing. -/
theorem left_for_another :
    let s := Run.run step {} [.new ⟨.monitor, 0⟩, .new ⟨.camera, 0⟩, .send ⟨.camera, 0⟩ {2},
      .send ⟨.monitor, 0⟩ {1}, .fetched 2 ⟨.camera, 0⟩ 1, .wait ⟨.monitor, 0⟩]
    (s.loop ⟨.monitor, 0⟩).left = true ∧ 1 ∈ (s.loop ⟨.monitor, 0⟩).sendConnIds ∧
      ∀ n ∈ s.reported, n.conn ≠ 1 := by
  decide

end CodeDesk.Server.Frames
