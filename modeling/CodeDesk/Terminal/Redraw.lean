/-
# Redrawing a terminal after a reconnect

When a terminal is opened again its PTY gets another size at one poll of
`read_outputs` and its own at the next, so that what runs in it draws anew
(`SigwinchPhase` of `src/server/terminal_service.rs`). Each resize has three
attempts, and after seven polls the redraw is over. If it is over because the
second resize has failed three times, the PTY keeps the wrong size
(`gives_up_at_other_size`); what it needs is that the last attempt of a phase
and the resizes of the client succeed (`idle_at_recorded_size`).
-/
import CodeDesk.Run

namespace CodeDesk.Terminal.Redraw

inductive SigwinchPhase where
  | idle
  | tempResize (retries : ℕ)
  | restore (retries : ℕ)
  deriving DecidableEq

def maxSigwinchPhaseAttempts : ℕ := 3

/-- The size that is recorded and the one the PTY has. A session that is closed
has no phase. -/
structure Session where
  rows : ℕ
  cols : ℕ
  pty : ℕ × ℕ := (rows, cols)
  sigwinch : Option SigwinchPhase := some .idle

/-- What happens to a session; `ok`: the PTY takes the size. A poll that finds
the session locked does nothing. -/
inductive Input where
  | readOutputs (ok : Bool)
  | handleResize (rows cols : ℕ) (ok : Bool)
  | resetStatus
  | handleOpen
  deriving DecidableEq

def Input.polls : Input → Bool
  | readOutputs _ => true
  | _ => false

namespace Session

def tempRows (s : Session) : ℕ := if 2 < s.rows then s.rows - 1 else s.rows + 1

/-- Whether a resize of `read_outputs` succeeds. -/
def doSigwinchResize (s : Session) (ok : Bool) : Bool := s.rows ≠ 0 && s.cols ≠ 0 && ok

def readOutputs (s : Session) (ok : Bool) : Session :=
  match s.sigwinch with
  | some (.tempResize (retries + 1)) =>
    if s.doSigwinchResize ok then
      { s with pty := (s.tempRows, s.cols), sigwinch := some (.restore maxSigwinchPhaseAttempts) }
    else { s with sigwinch := some (.tempResize retries) }
  | some (.restore (retries + 1)) =>
    if s.doSigwinchResize ok then { s with pty := (s.rows, s.cols), sigwinch := some .idle }
    else { s with sigwinch := some (.restore retries) }
  | some _ => { s with sigwinch := some .idle }
  | none => s

/-- The size is recorded also if the PTY does not take it. -/
def handleResize (s : Session) (rows cols : ℕ) (ok : Bool) : Session :=
  let rows := rows % 65536
  let cols := cols % 65536
  { s with rows, cols, pty := if ok then (rows, cols) else s.pty }

def step (s : Session) : Input → Session
  | .readOutputs ok => s.readOutputs ok
  | .handleResize rows cols ok => s.handleResize rows cols ok
  | .resetStatus => { s with sigwinch := none }
  | .handleOpen => { s with sigwinch := some (.tempResize maxSigwinchPhaseAttempts) }

/-- The attempts a phase has left. -/
def retries (s : Session) : Option ℕ :=
  s.sigwinch.map fun
    | .idle => 0
    | .tempResize retries => retries
    | .restore retries => retries

def AtSize (s : Session) : Prop := s.pty = (s.rows, s.cols)

instance (s : Session) : Decidable s.AtSize := inferInstanceAs (Decidable (_ = _))

/-- The resizes of the client succeed, and the last attempt of a phase does where it matters. -/
def Succeeds (s : Session) : Input → Prop
  | .readOutputs ok => s.retries = some 1 → s.doSigwinchResize ok = true ∨ s.AtSize
  | .handleResize _ _ ok => ok = true
  | _ => True

instance (s : Session) : DecidablePred s.Succeeds := fun i => by
  cases i <;> unfold Succeeds <;> infer_instance

variable {s : Session} {i : Input}

theorem atSize_step (h : s.retries = some 0 → s.AtSize) (hi : s.Succeeds i)
    (h0 : (s.step i).retries = some 0) : (s.step i).AtSize := by
  cases i with
  | readOutputs ok =>
    change (s.readOutputs ok).retries = some 0 at h0
    change (s.readOutputs ok).AtSize
    unfold readOutputs at h0 ⊢
    split at h0 <;> rename_i hp
    · split at h0 <;> rename_i hok
      · cases h0
      · cases h0
        rw [if_neg hok]
        exact (hi (by simp [retries, hp])).resolve_left hok
    · split at h0 <;> rename_i hok
      · rw [if_pos hok]
        rfl
      · cases h0
        rw [if_neg hok]
        exact (hi (by simp [retries, hp])).resolve_left hok
    · rename_i p hT hR
      refine h ?_
      rcases p with _ | (_ | n) | (_ | n)
      · simp [retries, hp]
      · simp [retries, hp]
      · exact absurd rfl (hT n)
      · simp [retries, hp]
      · exact absurd rfl (hR n)
    · simp [retries, hp] at h0
  | handleResize rows cols ok =>
    obtain rfl : ok = true := hi
    rfl
  | resetStatus | handleOpen => cases h0

/-- The polls until the redraw is over. -/
def left (s : Session) : ℕ :=
  match s.sigwinch with
  | some (.tempResize retries) => retries + maxSigwinchPhaseAttempts + 1
  | some (.restore retries) => retries + 1
  | _ => 0

theorem left_readOutputs (s : Session) (ok : Bool) : (s.readOutputs ok).left ≤ s.left - 1 := by
  unfold readOutputs
  split <;> rename_i hp
  · split <;> simp only [left, hp] <;> omega
  · split <;> simp only [left, hp] <;> omega
  · exact Nat.zero_le _
  · simp [left, hp]

theorem left_step (s : Session) (i : Input) :
    i = .handleOpen ∧ (s.step i).left = 7 ∨ (s.step i).left ≤ s.left - if i.polls then 1 else 0 := by
  cases i with
  | readOutputs ok => exact .inr (s.left_readOutputs ok)
  | handleResize => exact .inr (Nat.le_refl _)
  | resetStatus => exact .inr (Nat.zero_le _)
  | handleOpen => exact .inl ⟨rfl, rfl⟩

theorem left_run (js : List Input) (s : Session) (ho : .handleOpen ∉ js) :
    (Run.run step s js).left ≤ s.left - js.countP Input.polls := by
  induction js generalizing s with
  | nil => exact Nat.le_refl _
  | cons i js ih =>
    rw [List.mem_cons, not_or] at ho
    have hstep := (s.left_step i).resolve_left fun h => ho.1 h.1.symm
    have hrest := ih (s.step i) ho.2
    rw [Run.run_cons, List.countP_cons]
    omega

theorem left_le (is : List Input) (h : s.left ≤ 7) : (Run.run step s is).left ≤ 7 := by
  refine Run.inv_run (I := fun s : Session => s.left ≤ 7) (fun s i h => ?_) h is
  rcases s.left_step i with ⟨-, hs⟩ | hs <;> omega

end Session
end CodeDesk.Terminal.Redraw
