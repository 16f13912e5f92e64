/-
# Terminals whose shell has ended

`read_outputs` of `src/server/terminal_service.rs` takes a list of the sessions,
looks at each of them under its own lock, and notes the ids of those whose
shell has ended; afterwards it removes what is stored under these ids and
reports them closed. In between another thread may open, close or rename
terminals. The ids are not looked at again: who closes a terminal that has
ended and opens it anew at that moment loses the new one
(`new_terminal_reaped`). As long as the entries that `read_outputs` has in its
lists are left alone it removes the sessions it has seen (`reaped_had_ended`).

A map is the list of its entries, and the `Arc` of a session is its number.
-/
import Mathlib.Data.List.AList
import CodeDesk.Run

namespace CodeDesk.Terminal

open Function (update update_of_ne update_self)

/-- `exited`: the reader thread is finished or the child has exited. -/
structure TerminalSession where
  exited : Bool := false
  closedMessageSent : Bool := false

abbrev Sessions := AList fun _ : ℤ => ℕ

/-- Where `read_outputs` is. Beside the ids in `closed` stand, as history, the
sessions that were seen to have ended. -/
inductive Reader where
  | idle
  | scanning (closed left : List (ℤ × ℕ))
  | cleaning (sessions : Sessions) (closed : List (ℤ × ℕ))

/-- A terminal that was reported closed, with what was stored under its id. -/
structure Reaped where
  id : ℤ
  observed : ℕ
  stored : Option ℕ
  deriving DecidableEq

structure Sys where
  isPersistent : Bool
  sessions : Sessions := ∅
  session : ℕ → TerminalSession := fun _ => {}
  created : ℕ := 0
  needsSessionSync : Bool := false
  reader : Reader := .idle
  reaped : List Reaped := []

namespace Sys

/-- After a reconnect an unknown id stands for the lowest one there is. -/
def remapped (s : Sys) (id : ℤ) : Sessions :=
  match s.sessions.lookup id, s.needsSessionSync, s.sessions.keys.min? with
  | none, true, some lowestId =>
    (s.sessions.lookup lowestId).elim s.sessions ((s.sessions.erase lowestId).insert id)
  | _, _, _ => s.sessions

/-- `starts`: the shell of a new terminal can be started. -/
def handleOpen (s : Sys) (id : ℤ) (starts : Bool) : Sys :=
  let sessions := s.remapped id
  if (sessions.lookup id).isSome then { s with sessions, needsSessionSync := false }
  else if starts then
    { s with
      sessions := sessions.insert id s.created
      created := s.created + 1
      needsSessionSync := false }
  else { s with sessions }

/-- A terminal found in the copy of the map is removed. -/
def removes (s : Sys) (sessions : Sessions) (id : ℤ) : Bool :=
  (sessions.lookup id).any fun a => !s.isPersistent || (s.session a).closedMessageSent

def entries (s : Sys) : List (ℤ × ℕ) := s.sessions.entries.map fun e => (e.1, e.2)

/-- `read_outputs` starts: it takes the sessions in the order in which the
`HashMap` gives them. -/
def listSessions (s : Sys) (order : List (ℤ × ℕ)) : Sys :=
  match s.reader with
  | .idle => if order.Perm s.entries then { s with reader := .scanning [] order } else s
  | _ => s

/-- The next section of `read_outputs`; `locked`: `try_lock` fails. -/
def readOutputs (s : Sys) (locked : Bool) : Sys :=
  match s.reader with
  | .idle => s
  | .scanning closed ((id, a) :: left) =>
    if !locked && (s.session a).exited && !(s.session a).closedMessageSent then
      { s with
        session := update s.session a { s.session a with closedMessageSent := true }
        reader := .scanning (closed ++ [(id, a)]) left }
    else { s with reader := .scanning closed left }
  | .scanning closed [] =>
    { s with reader := if closed.isEmpty then .idle else .cleaning s.sessions closed }
  | .cleaning _ [] => { s with reader := .idle }
  | .cleaning sessions ((id, a) :: closed) =>
    { s with
      sessions := if s.removes sessions id then s.sessions.erase id else s.sessions
      reader := .cleaning (if s.removes sessions id then sessions.erase id else sessions) closed
      reaped := s.reaped ++ [⟨id, a, s.sessions.lookup id⟩] }

end Sys

inductive Input where
  | exit (a : ℕ)
  | resetStatus
  | handleOpen (id : ℤ) (starts : Bool)
  | handleClose (id : ℤ)
  | listSessions (order : List (ℤ × ℕ))
  | readOutputs (locked : Bool)

def step (s : Sys) : Input → Sys
  | .exit a =>
    if a < s.created then { s with session := update s.session a { s.session a with exited := true } }
    else s
  | .resetStatus => { s with needsSessionSync := true }
  | .handleOpen id starts => s.handleOpen id starts
  | .handleClose id => { s with sessions := s.sessions.erase id }
  | .listSessions order => s.listSessions order
  | .readOutputs locked => s.readOutputs locked

def Reader.pending : Reader → List (ℤ × ℕ)
  | .idle => []
  | .scanning closed left => closed ++ left
  | .cleaning _ closed => closed

def Reader.closed : Reader → List (ℤ × ℕ)
  | .idle => []
  | .scanning closed _ => closed
  | .cleaning _ closed => closed

/-- Another thread leaves these entries alone: it neither closes one of them nor
opens an id that would take the place of one. -/
def Undisturbed (s : Sys) : Input → Prop
  | .handleOpen id _ => s.sessions.lookup id = none → s.needsSessionSync = true →
      ∀ e ∈ s.reader.pending, s.sessions.keys.min? ≠ some e.1
  | .handleClose id => ∀ e ∈ s.reader.pending, e.1 ≠ id
  | _ => True

instance (s : Sys) : DecidablePred (Undisturbed s) := fun i => by
  cases i <;> unfold Undisturbed <;> infer_instance

structure Inv (s : Sys) : Prop where
  pending : ∀ e ∈ s.reader.pending, s.sessions.lookup e.1 = some e.2
  nodup : (s.reader.pending.map Prod.fst).Nodup
  closed : ∀ e ∈ s.reader.closed, (s.session e.2).exited = true
  reaped : ∀ r ∈ s.reaped, r.stored = some r.observed ∧ (s.session r.observed).exited = true

variable {s s' : Sys} {i : Input}

theorem Inv.keep (h : Inv s) (hr : s'.reader = s.reader) (hp : s'.reaped = s.reaped)
    (hl : ∀ e ∈ s.reader.pending, s'.sessions.lookup e.1 = s.sessions.lookup e.1)
    (hx : ∀ a, (s.session a).exited = true → (s'.session a).exited = true) : Inv s' := by
  refine ⟨fun e he => ?_, hr ▸ h.nodup, fun e he => hx _ (h.closed e (hr ▸ he)), fun r hr => ?_⟩
  · rw [hr] at he
    exact (hl e he).trans (h.pending e he)
  · obtain ⟨hs, hx'⟩ := h.reaped r (hp ▸ hr)
    exact ⟨hs, hx _ hx'⟩

theorem exited_update {f : ℕ → TerminalSession} {a b : ℕ} {t : TerminalSession}
    (ht : (f a).exited = true → t.exited = true) (h : (f b).exited = true) :
    (update f a t b).exited = true := by
  by_cases hb : b = a
  · subst hb
    rw [update_self]
    exact ht h
  · rwa [update_of_ne hb]

/-- `read_outputs` goes on with some of what it has in its lists. -/
theorem Inv.next (h : Inv s) {reader : Reader} {session : ℕ → TerminalSession}
    (hp : reader.pending.Sublist s.reader.pending)
    (hx : ∀ a, (s.session a).exited = true → (session a).exited = true)
    (hc : ∀ e ∈ reader.closed, (session e.2).exited = true) :
    Inv { s with session := session, reader := reader } :=
  ⟨fun e he => h.pending e (hp.subset he), h.nodup.sublist (hp.map _), hc,
    fun r hr => (h.reaped r hr).imp_right (hx _)⟩

theorem Inv.listSessions (h : Inv s) (order : List (ℤ × ℕ)) : Inv (s.listSessions order) := by
  unfold Sys.listSessions
  split
  · split <;> rename_i hperm
    · refine ⟨fun e he => ?_, (hperm.map Prod.fst).nodup_iff.2 ?_, nofun, h.reaped⟩
      · obtain ⟨⟨id, a⟩, hmem, rfl⟩ := List.mem_map.1 (hperm.mem_iff.1 he)
        exact AList.mem_lookup_iff.2 hmem
      · rw [Sys.entries, List.map_map]
        exact s.sessions.keys_nodup
    · exact h
  · exact h

theorem Inv.readOutputs (h : Inv s) (locked : Bool) : Inv (s.readOutputs locked) := by
  unfold Sys.readOutputs
  split <;> rename_i hr
  · exact h
  · rename_i closed id a left
    have hpend : s.reader.pending = closed ++ (id, a) :: left := by rw [hr]; rfl
    have hclosed : ∀ e ∈ closed, (s.session e.2).exited = true := fun e he =>
      h.closed e (hr ▸ he)
    split <;> rename_i hseen
    · have hx : ∀ b, (s.session b).exited = true → (update s.session a
          { s.session a with closedMessageSent := true } b).exited = true :=
        fun b => exited_update fun ha => ha
      refine h.next ?_ hx fun e he => hx _ ?_
      · rw [hpend, Reader.pending, List.append_assoc]
        exact List.Sublist.refl _
      · rcases List.mem_append.1 he with he | he
        · exact hclosed e he
        · obtain rfl := List.mem_singleton.1 he
          simp only [Bool.and_eq_true] at hseen
          exact hseen.1.2
    · refine h.next ?_ (fun _ ha => ha) hclosed
      rw [hpend]
      exact (List.sublist_cons_self _ _).append_left closed
  · rename_i closed
    refine h.next ?_ (fun _ ha => ha) ?_ <;> split
    · exact List.nil_sublist _
    · rw [hr]
      exact List.sublist_append_left closed []
    · nofun
    · exact fun e he => h.closed e (hr ▸ he)
  · exact h.next (List.nil_sublist _) (fun _ ha => ha) nofun
  · rename_i sessions id a closed
    have hpend : s.reader.pending = (id, a) :: closed := by rw [hr]; rfl
    have hnodup := h.nodup
    rw [hpend, List.map_cons, List.nodup_cons] at hnodup
    have hclosed : ∀ e ∈ (id, a) :: closed, (s.session e.2).exited = true := fun e he =>
      h.closed e (hr ▸ he)
    refine ⟨fun e (he : e ∈ closed) => ?_, hnodup.2,
      fun e he => hclosed e (List.mem_cons_of_mem _ he), ?_⟩
    · have hlook := h.pending e (hpend ▸ List.mem_cons_of_mem _ he)
      have hne : e.1 ≠ id := ne_of_mem_of_not_mem (List.mem_map_of_mem he) hnodup.1
      split
      · rwa [AList.lookup_erase_ne hne]
      · exact hlook
    · refine List.forall_mem_append.2 ⟨h.reaped, List.forall_mem_singleton.2 ⟨?_, ?_⟩⟩
      · exact h.pending (id, a) (hpend ▸ List.mem_cons_self)
      · exact hclosed (id, a) List.mem_cons_self

section Opened

variable {id id' : ℤ} {a : ℕ} (ha : s.sessions.lookup id' = some a)
  (hid : s.sessions.lookup id = none → s.needsSessionSync = true →
    s.sessions.keys.min? ≠ some id')
include ha hid

theorem lookup_remapped : (s.remapped id).lookup id' = some a := by
  unfold Sys.remapped
  split
  · rename_i lowestId hnone hsync hmin
    have hid' : id' ≠ id := by
      rintro rfl
      cases ha.symm.trans hnone
    have hlowest : id' ≠ lowestId := fun he => hid hnone hsync (he ▸ hmin)
    cases s.sessions.lookup lowestId with
    | none => exact ha
    | some => rwa [Option.elim_some, AList.lookup_insert_ne hid', AList.lookup_erase_ne hlowest]
  · exact ha

/-- What is stored under an id stays there when another is opened, unless it is
what that one now stands for. -/
theorem lookup_handleOpen (starts : Bool) : (s.handleOpen id starts).sessions.lookup id' = some a := by
  have hr := lookup_remapped ha hid
  unfold Sys.handleOpen
  dsimp only
  split
  · exact hr
  · rename_i hnew
    split
    · have hid' : id' ≠ id := by
        rintro rfl
        exact hnew (hr ▸ rfl)
      exact (AList.lookup_insert_ne hid').trans hr
    · exact hr

end Opened

theorem Inv.step (h : Inv s) (hi : Undisturbed s i) : Inv (step s i) := by
  cases i with
  | exit =>
    unfold Terminal.step
    dsimp only
    split
    · exact h.keep rfl rfl (fun _ _ => rfl) fun b => exited_update fun _ => rfl
    · exact h
  | resetStatus => exact h.keep rfl rfl (fun _ _ => rfl) fun _ ha => ha
  | handleOpen id starts =>
    have hsame : (s.handleOpen id starts).reader = s.reader ∧
        (s.handleOpen id starts).reaped = s.reaped ∧
        (s.handleOpen id starts).session = s.session := by
      unfold Sys.handleOpen
      dsimp only
      split
      · exact ⟨rfl, rfl, rfl⟩
      · split <;> exact ⟨rfl, rfl, rfl⟩
    refine h.keep hsame.1 hsame.2.1 (fun e he => ?_) fun a ha => hsame.2.2 ▸ ha
    rw [h.pending e he]
    exact lookup_handleOpen (h.pending e he) (fun hn hs => hi hn hs e he) starts
  | handleClose =>
    exact h.keep rfl rfl (fun e he => AList.lookup_erase_ne (hi e he)) fun _ ha => ha
  | listSessions order => exact h.listSessions order
  | readOutputs locked => exact h.readOutputs locked

/-- If no other thread touches the entries that `read_outputs` has in its
lists, then under each id it reports closed, at the moment it removes it, the
session is stored that it had seen, and whose shell has ended. -/
theorem reaped_had_ended (isPersistent : Bool) (is : List Input)
    (hu : Run.Meets step Undisturbed { isPersistent := isPersistent } is) :
    ∀ r ∈ (Run.run step { isPersistent := isPersistent } is).reaped, r.stored = some r.observed ∧
      ((Run.run step { isPersistent := isPersistent } is).session r.observed).exited = true := by
  have hstart : Inv { isPersistent := isPersistent } := ⟨nofun, .nil, nofun, nofun⟩
  exact (Run.inv_run_of_meets (fun _ _ _ h hi => h.step hi) hstart hu).reaped

/-- Of two terminals the first has ended. -/
theorem reaped_had_ended_first :
    let is := [Input.handleOpen 1 true, .handleOpen 2 true, .exit 0, .listSessions [(1, 0), (2, 1)],
      .readOutputs false, .readOutputs false, .readOutputs false, .readOutputs false]
    let s := Run.run step { isPersistent := false } is
    s.reaped = [⟨1, 0, some 0⟩] ∧ s.sessions.keys = [2] ∧ (s.session 0).exited = true := by
  refine ⟨by decide, by decide, ?_⟩
  exact (reaped_had_ended false _ (by decide) ⟨1, 0, some 0⟩ (by decide)).2

/-- Terminal 1 has ended and was seen so. Before it is removed, another thread
closes and opens it: the new session, whose shell runs, is removed. -/
theorem new_terminal_reaped :
    let s := Run.run step { isPersistent := false } [.handleOpen 1 true, .exit 0,
      .listSessions [(1, 0)], .readOutputs false, .handleClose 1, .handleOpen 1 true,
      .readOutputs false, .readOutputs false]
    s.reaped = [⟨1, 0, some 1⟩] ∧ s.sessions.lookup 1 = none ∧ (s.session 1).exited = false := by
  decide

end CodeDesk.Terminal
