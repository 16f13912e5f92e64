/-
# The keyboard grab on Linux

`change_grab_status` of `src/keyboard.rs`. A call returns at once while
`IS_RDEV_ENABLED` is not set. Who owns the grab is changed under the lock of
`GRAB_STATE`, together with `KEYBOARD_HOOKED`; the grab of `rdev` is switched later,
under `GRAB_OP_LOCK`, by an operation that looks at the owner again before it acts. A
`Wait` soon after a `Run` leaves the release to a thread that sleeps, and that releases
only what has not been taken or refreshed since.

The flag is one for all sessions. When the input source is changed in a session that does
not own the grab it is cleared, and the `Wait` of the owner is lost (`wait_lost`).
-/
import CodeDesk.Run

namespace CodeDesk.Client.KeyboardGrab

open Run (run)

variable {Session : Type}

/-- A call of `change_grab_status`. -/
inductive Call (Session : Type) where
  | run (session : Session)
  | wait (session : Session)
  deriving DecidableEq, Repr

/-- What is done after the lock is dropped. -/
inductive Op (Session : Type) where
  /-- `apply_run_grab_if_owner`. -/
  | applyRun (session : Session)
  /-- `disable_grab_if_released`. -/
  | disable
  deriving DecidableEq, Repr

structure State (Session : Type) where
  owner : Option Session := none
  lastGrab : Option ℕ := none
  deferredPending : Bool := false
  /-- `KEYBOARD_HOOKED`. -/
  hooked : Bool := false
  isRdevEnabled : Bool := false
  /-- What `rdev` was told last. -/
  grabbed : Bool := false
  /-- The calls that have found `isRdevEnabled` set and wait for the lock. -/
  calls : List (Call Session) := []
  /-- The threads that sleep, with their snapshots of `last_grab`. -/
  deferred : List (Session × Option ℕ) := []
  ops : List (Op Session) := []
  /-- The operation that holds `GRAB_OP_LOCK` has looked at the owner and is about to
  switch the grab on or off. -/
  acting : Option Bool := none
  deriving Repr

inductive Step (Session : Type) where
  /-- `init_input_source` or `change_input_source`. -/
  | store (isRdevEnabled : Bool)
  | call (c : Call Session)
  /-- A call gets the lock. -/
  | enter (c : Call Session) (now : ℕ)
  /-- A thread wakes up. -/
  | wake (session : Session) (snapshot : Option ℕ)
  /-- An operation gets `GRAB_OP_LOCK` and looks at the owner. -/
  | check (op : Op Session)
  /-- The grab is switched, if the thread of `rdev` takes the message. -/
  | act (taken : Bool)
  deriving DecidableEq, Repr

def grabDebounceMs : ℕ := 300

namespace State

def release (s : State Session) : State Session :=
  { s with
    owner := none
    lastGrab := none
    deferredPending := false
    hooked := false
    ops := .disable :: s.ops }

/-- Within the debounce window, by the time of the last grab. -/
def debounced (s : State Session) (now : ℕ) : Bool :=
  s.lastGrab.any fun t => now - t < grabDebounceMs

/-- What the operation is about to do, if it does something. A handoff switches the grab
off and on. -/
def decide? [DecidableEq Session] (s : State Session) : Op Session → Option Bool
  | .applyRun session => if s.owner = some session then some true else none
  | .disable => if s.owner = none ∧ s.lastGrab = none then some false else none

/-- Under the lock. -/
def change [DecidableEq Session] (s : State Session) (now : ℕ) : Call Session → State Session
  | .run session =>
    if s.owner = some session then { s with lastGrab := some now, deferredPending := false }
    else
      { s with
        owner := some session
        lastGrab := some now
        deferredPending := false
        hooked := true
        ops := .applyRun session :: s.ops }
  | .wait session =>
    if s.owner = some session then
      if s.debounced now then
        if s.deferredPending then s
        else { s with deferredPending := true, deferred := (session, s.lastGrab) :: s.deferred }
      else s.release
    else s

def step [DecidableEq Session] (s : State Session) : Step Session → State Session
  | .store isRdevEnabled => { s with isRdevEnabled }
  | .call c => if s.isRdevEnabled then { s with calls := c :: s.calls } else s
  | .enter c now => if c ∈ s.calls then { s with calls := s.calls.erase c }.change now c else s
  | .wake session snapshot =>
    if (session, snapshot) ∈ s.deferred then
      let s := { s with deferred := s.deferred.erase (session, snapshot) }
      if s.owner = some session ∧ s.lastGrab = snapshot then s.release else s
    else s
  | .check op =>
    if op ∈ s.ops ∧ s.acting = none then
      { s with ops := s.ops.erase op, acting := s.decide? op }
    else s
  | .act taken =>
    match s.acting with
    | some on => { s with grabbed := if taken then on else s.grabbed, acting := none }
    | none => s

/-- Every call, thread and operation has finished. -/
def Quiet (s : State Session) : Prop :=
  s.calls = [] ∧ s.deferred = [] ∧ s.ops = [] ∧ s.acting = none

/-- The operation is the one that the owner calls for. -/
def Due (s : State Session) (op : Op Session) : Prop := s.owner.elim .disable .applyRun = op

/-- A thread that sleeps will release the grab. -/
def Awaited (s : State Session) : Prop :=
  ∃ x ∈ s.deferred, s.owner = some x.1 ∧ s.lastGrab = x.2

structure Inv (s : State Session) : Prop where
  hooked : s.hooked = s.owner.isSome
  lastGrab : s.owner = none → s.lastGrab = none
  pending : s.deferredPending → s.Awaited
  /-- The grab is as the owner calls for, or will be. -/
  settled : (∃ op ∈ s.ops, s.Due op) ∨ s.acting.getD s.grabbed = s.owner.isSome

variable {s : State Session}

theorem inv_release (s : State Session) : s.release.Inv :=
  ⟨rfl, fun _ => rfl, nofun, .inl ⟨.disable, List.mem_cons_self, rfl⟩⟩

theorem Inv.quiet (h : s.Inv) (hq : s.Quiet) : s.grabbed = s.owner.isSome := by
  obtain ⟨-, -, hops, hact⟩ := hq
  have hsettled := h.settled
  rw [hops, hact] at hsettled
  exact hsettled.resolve_left (by simp)

theorem Inv.withCalls (h : s.Inv) (calls : List (Call Session)) : Inv { s with calls } :=
  ⟨h.hooked, h.lastGrab, h.pending, h.settled⟩

variable [DecidableEq Session]

theorem Awaited.erase (h : s.Awaited) {x : Session × Option ℕ}
    (hx : ¬(s.owner = some x.1 ∧ s.lastGrab = x.2)) :
    Awaited { s with deferred := s.deferred.erase x } := by
  obtain ⟨y, hy, howner⟩ := h
  have hne : y ≠ x := by
    rintro rfl
    exact hx howner
  exact ⟨y, (List.mem_erase_of_ne hne).2 hy, howner⟩

theorem Inv.decide?_due (h : s.Inv) {op : Op Session} (hop : s.Due op) :
    s.decide? op = some s.owner.isSome := by
  subst hop
  cases ho : s.owner with
  | none => simp [decide?, ho, h.lastGrab ho]
  | some session => simp [decide?, ho]

theorem decide?_of_not_due {op : Op Session} (hop : ¬s.Due op) : s.decide? op = none := by
  cases op with
  | applyRun session => exact if_neg fun ho => hop (by rw [Due, ho]; rfl)
  | disable => exact if_neg fun ho => hop (by rw [Due, ho.1]; rfl)

theorem inv_check (h : s.Inv) (op : Op Session) (ha : s.acting = none) :
    Inv { s with ops := s.ops.erase op, acting := s.decide? op } := by
  refine ⟨h.hooked, h.lastGrab, h.pending, ?_⟩
  by_cases hdue : s.Due op
  · right
    rw [h.decide?_due hdue]
    rfl
  · rw [decide?_of_not_due hdue]
    refine h.settled.imp ?_ (by simp [ha])
    rintro ⟨op', hmem, hdue'⟩
    have hne : op' ≠ op := by
      rintro rfl
      exact hdue hdue'
    exact ⟨op', (List.mem_erase_of_ne hne).2 hmem, hdue'⟩

theorem inv_change (h : s.Inv) (now : ℕ) (c : Call Session) : (s.change now c).Inv := by
  cases c with
  | run session =>
    rw [change]
    split
    case isTrue ho => exact ⟨h.hooked, fun hn => by simp [ho] at hn, nofun, h.settled⟩
    case isFalse => exact ⟨rfl, nofun, nofun, .inl ⟨.applyRun session, List.mem_cons_self, rfl⟩⟩
  | wait session =>
    rw [change]
    split
    case isFalse => exact h
    case isTrue ho =>
      split
      · split
        · exact h
        · exact ⟨h.hooked, h.lastGrab, fun _ => ⟨_, List.mem_cons_self, ho, rfl⟩, h.settled⟩
      · exact inv_release s

theorem inv_step (h : s.Inv) {i : Step Session} (hi : i ≠ .act false) : (s.step i).Inv := by
  cases i with
  | store => exact ⟨h.hooked, h.lastGrab, h.pending, h.settled⟩
  | call c =>
    rw [step]
    split
    · exact h.withCalls _
    · exact h
  | enter c now =>
    rw [step]
    split
    · exact inv_change (h.withCalls _) now c
    · exact h
  | wake session snapshot =>
    rw [step]
    split
    case isFalse => exact h
    case isTrue =>
      dsimp only
      split
      case isTrue => exact inv_release _
      case isFalse hx => exact ⟨h.hooked, h.lastGrab, fun hp => (h.pending hp).erase hx, h.settled⟩
  | check op =>
    rw [step]
    split
    case isTrue hop => exact inv_check h op hop.2
    case isFalse => exact h
  | act taken =>
    obtain rfl : taken = true := by cases taken <;> simp_all
    rw [step]
    cases hact : s.acting with
    | none => exact h
    | some on =>
      refine ⟨h.hooked, h.lastGrab, h.pending, h.settled.imp id fun hon => ?_⟩
      rwa [hact] at hon

theorem inv_run {is : List (Step Session)} (h : ∀ i ∈ is, i ≠ .act false) :
    (run step ({} : State Session) is).Inv :=
  Run.inv_run_of_mem (I := Inv) (fun _ i hi hs => inv_step hs (h i hi))
    ⟨rfl, fun _ => rfl, by simp, .inr rfl⟩

/-- Released, or about to be. -/
def Leaving (s : State Session) : Prop := s.owner = none ∨ s.Awaited

theorem leaving_wait (h : s.Inv) {session : Session} (ho : s.owner = some session) (now : ℕ) :
    (s.change now (.wait session)).Leaving := by
  rw [change, if_pos ho]
  split
  · split
    case isTrue hp => exact .inr (h.pending hp)
    case isFalse => exact .inr ⟨_, List.mem_cons_self, ho, rfl⟩
  · exact .inl rfl

theorem leaving_step (hinv : s.Inv) (h : s.Leaving) {i : Step Session}
    (hi : ∀ session now, i ≠ .enter (.run session) now) : (s.step i).Leaving := by
  cases i with
  | store => exact h
  | call c =>
    rw [step]
    split <;> exact h
  | enter c now =>
    rw [step]
    split
    case isFalse => exact h
    case isTrue =>
      cases c with
      | run session => exact absurd rfl (hi session now)
      | wait session =>
        by_cases ho : s.owner = some session
        · exact leaving_wait (hinv.withCalls (s.calls.erase _)) ho now
        · rw [change, if_neg ho]
          exact h
  | wake session snapshot =>
    rw [step]
    split
    case isFalse => exact h
    case isTrue =>
      dsimp only
      split
      case isTrue => exact .inl rfl
      case isFalse hx => exact h.imp id (·.erase hx)
  | check op =>
    rw [step]
    split <;> exact h
  | act =>
    rw [step]
    split <;> exact h

/-- **The grab follows its owner**, if `rdev` takes what it is told: when everything has
finished it is on exactly if there is an owner; the `Wait` of another session changes
nothing; and the `Wait` of the owner that has found the flag set ends with the grab
released unless a `Run` comes after it. -/
theorem grab_follows_owner (is : List (Step Session)) (h : ∀ i ∈ is, i ≠ .act false) :
    let s := run step ({} : State Session) is
    (s.Quiet → (s.grabbed ↔ s.owner.isSome) ∧ (s.owner.isSome ↔ s.hooked)) ∧
    (∀ session now, s.owner ≠ some session → s.change now (.wait session) = s) ∧
    (∀ session now, s.owner = some session → .wait session ∈ s.calls →
      ∀ js : List (Step Session),
      (∀ j ∈ js, j ≠ .act false ∧ ∀ session now, j ≠ .enter (.run session) now) →
      let s' := run step (s.step (.enter (.wait session) now)) js
      s'.Quiet → s'.owner = none ∧ s'.grabbed = false ∧ s'.hooked = false) := by
  have h := inv_run h
  generalize run step ({} : State Session) is = s at h ⊢
  refine ⟨fun hq => ?_, fun session now ho => if_neg ho, fun session now ho hcall js hjs hq => ?_⟩
  · rw [h.quiet hq, h.hooked]
    exact ⟨Iff.rfl, Iff.rfl⟩
  · have hfirst : (s.step (.enter (.wait session) now)).Leaving := by
      rw [step, if_pos hcall]
      exact leaving_wait (h.withCalls (s.calls.erase _)) ho now
    obtain ⟨hinv, hleaving⟩ := Run.inv_run_of_mem (I := fun s : State Session => s.Inv ∧ s.Leaving)
      (fun _ j hj h => ⟨inv_step h.1 (hjs j hj).1, leaving_step h.1 h.2 (hjs j hj).2⟩)
      ⟨inv_step h (by simp), hfirst⟩
    have hnone := hleaving.resolve_right (by simp [Awaited, hq.2.1])
    rw [hinv.quiet hq, hinv.hooked, hnone]
    exact ⟨rfl, rfl, rfl⟩

/-- A session takes the grab. -/
def takes : List (Step ℕ) :=
  [.store true, .call (.run 1), .enter (.run 1) 0, .check (.applyRun 1), .act true]

theorem grab_follows_first_owner : (run step {} takes).grabbed :=
  ((grab_follows_owner takes (by decide)).1 ⟨rfl, rfl, rfl, rfl⟩).1.2 rfl

/-- `change_input_source` in another session clears the flag, and the owner's `Wait`
comes after. -/
theorem wait_lost : let s := run step {} (takes ++ [.call (.wait 2), .enter (.wait 2) 400,
      .store false, .call (.wait 1)])
    s.Quiet ∧ s.owner = some 1 ∧ s.grabbed = true ∧ s.hooked = true := by
  unfold Quiet
  decide

end State
end CodeDesk.Client.KeyboardGrab
