/-
# The back-off after wrong operating system credentials

`src/server/login_failure_check.rs`: from the third wrong login to a terminal on,
further ones are refused for 15 seconds, then 30, and so on up to half an hour; two
hours without a wrong login forget the earlier ones. The state is brought up to date
only when it is used, by `evaluate_os_credential_policy` and
`record_os_credential_failure` alike.

Brought up to date, the state is a function of the times of the wrong logins
(`Settled`), and every operation leaves it so. `backoff_exact` says what this means
for a decision.
-/
import CodeDesk.Run
import CodeDesk.Tally
import Mathlib.Order.Bounds.Defs
import Mathlib.Algebra.Ring.Int.Defs
import Mathlib.Algebra.Ring.Nat

namespace CodeDesk.Conn.OsCredential

/-! ### The code -/

def totalIdleResetMs : ℤ := 120 * 60 * 1000

def backoffBaseSeconds : ℤ := 15

def backoffMaxSeconds : ℤ := 30 * 60

inductive FailureScope where
  | default
  | terminalOsLogin
  deriving DecidableEq, Repr

inductive AlarmAuditType where
  | terminalOsLoginBackoff
  deriving DecidableEq, Repr

structure OsCredentialPolicyDecision where
  allowed : Bool
  loginError : Option String
  audit : Option AlarmAuditType
  deriving DecidableEq, Repr

structure OsCredentialFailureState where
  totalFailures : ℤ := 0
  backoffUntilMs : Option ℤ := none
  lastFailureMs : Option ℤ := none
  deriving DecidableEq, Repr

/-- The result of an operation on `i64` that is not checked. -/
def asI64 (n : ℤ) : ℤ := Int.bmod n (2 ^ 64)

def saturatingSub (a b : ℤ) : ℤ := max (-2 ^ 63) (min (a - b) (2 ^ 63 - 1))

/-- `saturating_add(1)` of `i32`. -/
def saturatingSucc (n : ℤ) : ℤ := min (n + 1) (2 ^ 31 - 1)

def isOsCredentialScope (scope : FailureScope) : Bool := scope == .terminalOsLogin

def backoffAuditTypeForScope : FailureScope → Option AlarmAuditType
  | .terminalOsLogin => some .terminalOsLoginBackoff
  | .default => none

def osCredentialLoginBackoffSeconds (totalFailures : ℤ) : ℤ :=
  if totalFailures ≤ 2 then 0
  else
    let exp := min (totalFailures - 3) 7
    min (backoffBaseSeconds * 2 ^ exp.toNat) backoffMaxSeconds

def allowDecision : OsCredentialPolicyDecision := ⟨true, none, none⟩

def blockDecision (loginError : String) (alarmType : Option AlarmAuditType) :
    OsCredentialPolicyDecision :=
  ⟨false, some loginError, alarmType⟩

def tryAgain (remainingSeconds : ℤ) : String :=
  "Please try again in " ++ toString remainingSeconds ++ " " ++
    (if remainingSeconds = 1 then "second" else "seconds") ++ "."

def remainingSeconds (untilMs nowMs : ℤ) : ℤ :=
  let remainingMs := max (asI64 (untilMs - nowMs)) 0
  max ((remainingMs + 999).tdiv 1000) 1

namespace OsCredentialFailureState

def normalizeBackoff (nowMs : ℤ) (s : OsCredentialFailureState) : OsCredentialFailureState :=
  match s.backoffUntilMs with
  | some untilMs => if untilMs ≤ nowMs then { s with backoffUntilMs := none } else s
  | none => s

def resetTotalsOnIdle (nowMs : ℤ) (s : OsCredentialFailureState) : OsCredentialFailureState :=
  match s.lastFailureMs with
  | some lastMs =>
    if totalIdleResetMs ≤ saturatingSub nowMs lastMs then
      { totalFailures := 0, backoffUntilMs := none, lastFailureMs := none }
    else s
  | none => s

/-- What both operations do first. -/
def settle (nowMs : ℤ) (s : OsCredentialFailureState) : OsCredentialFailureState :=
  (s.resetTotalsOnIdle nowMs).normalizeBackoff nowMs

def evaluateOsCredentialPolicy (scope : FailureScope) (nowMs : ℤ) (s : OsCredentialFailureState) :
    OsCredentialFailureState × OsCredentialPolicyDecision :=
  if !isOsCredentialScope scope then (s, allowDecision)
  else
    let s := s.settle nowMs
    match s.backoffUntilMs with
    | some untilMs =>
      (s, blockDecision (tryAgain (remainingSeconds untilMs nowMs))
        (backoffAuditTypeForScope scope))
    | none => (s, allowDecision)

def recordOsCredentialFailure (scope : FailureScope) (nowMs : ℤ) (s : OsCredentialFailureState) :
    OsCredentialFailureState :=
  if !isOsCredentialScope scope then s
  else
    let s := s.settle nowMs
    let totalFailures := saturatingSucc s.totalFailures
    let backoffSeconds := osCredentialLoginBackoffSeconds totalFailures
    { totalFailures := totalFailures
      lastFailureMs := some nowMs
      backoffUntilMs :=
        if 0 < backoffSeconds then some (asI64 (nowMs + backoffSeconds * 1000))
        else s.backoffUntilMs }

end OsCredentialFailureState

open OsCredentialFailureState

inductive Call where
  | evaluate (scope : FailureScope) (nowMs : ℤ)
  | fail (scope : FailureScope) (nowMs : ℤ)
  deriving DecidableEq, Repr

namespace Call

def nowMs : Call → ℤ
  | evaluate _ t => t
  | fail _ t => t

def step (s : OsCredentialFailureState) : Call → OsCredentialFailureState
  | evaluate scope t => (s.evaluateOsCredentialPolicy scope t).1
  | fail scope t => s.recordOsCredentialFailure scope t

def failure : Call → Option ℤ
  | fail .terminalOsLogin t => some t
  | _ => none

end Call

def failures (calls : List Call) : List ℤ := (calls.filterMap Call.failure).reverse

/-! ### The back-off of a number of wrong logins -/

/-- The seconds that the `n`-th wrong login in a row blocks the next one. -/
def penalty (n : ℕ) : ℤ := min (15 * 2 ^ min (n - 3) 7) 1800

/-- The end of the back-off that the `n`-th wrong login in a row starts at `t`. -/
def backoffEnd (t : ℤ) (n : ℕ) : ℤ := asI64 (t + 1000 * penalty n)

theorem penalty_pos (n : ℕ) : 0 < penalty n := by
  unfold penalty
  have : 0 < (2 : ℤ) ^ min (n - 3) 7 := Int.pow_pos (by decide)
  omega

theorem penalty_le (n : ℕ) : penalty n ≤ 1800 := Int.min_le_right _ _

theorem osCredentialLoginBackoffSeconds_min (n : ℕ) :
    osCredentialLoginBackoffSeconds (min (n : ℤ) (2 ^ 31 - 1)) = if n ≤ 2 then 0 else penalty n := by
  unfold osCredentialLoginBackoffSeconds
  by_cases hn : n ≤ 2
  · rw [if_pos hn, if_pos (by omega)]
  have hexp : (min (min (n : ℤ) (2 ^ 31 - 1) - 3) 7).toNat = min (n - 3) 7 := by omega
  rw [if_neg hn, if_neg (by omega)]
  dsimp only
  rw [hexp]
  rfl

theorem asI64_le {n : ℤ} (h : -2 ^ 63 ≤ n) : asI64 n ≤ n := by
  unfold asI64 Int.bmod
  dsimp only
  split <;> omega

theorem asI64_eq {n : ℤ} (hlow : -2 ^ 63 ≤ n) (hhigh : n < 2 ^ 63) : asI64 n = n := by
  unfold asI64 Int.bmod
  dsimp only
  split <;> omega

theorem remainingSeconds_eq {u now : ℤ} (hpos : 0 < u - now) (hlt : u - now < 2 ^ 63) :
    remainingSeconds u now = (u - now + 999) / 1000 := by
  unfold remainingSeconds
  dsimp only
  rw [asI64_eq (by omega) hlt, Int.tdiv_eq_ediv_of_nonneg (by omega)]
  omega

theorem backoffEnd_le {t : ℤ} (ht : -2 ^ 63 ≤ t) (n : ℕ) : backoffEnd t n ≤ t + 1800000 := by
  have hpos := penalty_pos n
  have hle := penalty_le n
  have hend : backoffEnd t n ≤ t + 1000 * penalty n := asI64_le (by omega)
  omega

theorem totalIdleResetMs_le_saturatingSub {a b : ℤ} :
    totalIdleResetMs ≤ saturatingSub a b ↔ totalIdleResetMs ≤ a - b := by
  unfold totalIdleResetMs saturatingSub
  omega

/-! ### The state, brought up to date -/

open Tally (streak)

/-- The state at the time `c` of the last call, as the times `ts` of the wrong logins
determine it. A back-off that is over may still be there. -/
structure Settled (c : ℤ) (ts : List ℤ) (s : OsCredentialFailureState) : Prop where
  total : s.totalFailures = min (streak totalIdleResetMs c ts : ℤ) (2 ^ 31 - 1)
  idle : s.lastFailureMs = none → streak totalIdleResetMs c ts = 0
  recent : ∀ t, s.lastFailureMs = some t → ts.head? = some t ∧ t ≤ c ∧ c - t < totalIdleResetMs
  until_eq : ∀ u, s.backoffUntilMs = some u → 3 ≤ streak totalIdleResetMs c ts ∧
    ∃ t, ts.head? = some t ∧ u = backoffEnd t (streak totalIdleResetMs c ts)
  until_of_lt : ∀ t, ts.head? = some t → 3 ≤ streak totalIdleResetMs c ts →
    c < backoffEnd t (streak totalIdleResetMs c ts) →
    s.backoffUntilMs = some (backoffEnd t (streak totalIdleResetMs c ts))

namespace OsCredentialFailureState

variable {s : OsCredentialFailureState} {now u : ℤ}

@[simp] theorem normalizeBackoff_totalFailures :
    (s.normalizeBackoff now).totalFailures = s.totalFailures := by
  unfold normalizeBackoff
  repeat' split
  all_goals rfl

@[simp] theorem normalizeBackoff_lastFailureMs :
    (s.normalizeBackoff now).lastFailureMs = s.lastFailureMs := by
  unfold normalizeBackoff
  repeat' split
  all_goals rfl

theorem normalizeBackoff_until : (s.normalizeBackoff now).backoffUntilMs = some u ↔
    s.backoffUntilMs = some u ∧ now < u := by
  unfold normalizeBackoff
  cases hu : s.backoffUntilMs with
  | none => simp [hu]
  | some =>
    dsimp only
    split
    · refine ⟨nofun, ?_⟩
      rintro ⟨⟨⟩, hv⟩
      omega
    · rw [hu]
      refine ⟨?_, And.left⟩
      rintro ⟨⟩
      exact ⟨rfl, by omega⟩

end OsCredentialFailureState

namespace Settled

variable {c now : ℤ} {ts : List ℤ} {s : OsCredentialFailureState}

theorem forgotten (h : streak totalIdleResetMs c ts = 0) : Settled c ts {} where
  total := by rw [h]; rfl
  idle _ := h
  recent := nofun
  until_eq := nofun
  until_of_lt t _ hn := by omega

section

variable (h : Settled c ts s)

include h

theorem resetTotalsOnIdle (hc : c ≤ now) :
    s.resetTotalsOnIdle now = {} ∧ streak totalIdleResetMs now ts = 0 ∨
      s.resetTotalsOnIdle now = s ∧ streak totalIdleResetMs now ts = streak totalIdleResetMs c ts ∧
        ∀ t, s.lastFailureMs = some t → now - t < totalIdleResetMs := by
  unfold OsCredentialFailureState.resetTotalsOnIdle
  cases hlast : s.lastFailureMs with
  | none =>
    have hzero := h.idle hlast
    exact .inr ⟨rfl, (Tally.streak_eq_zero_mono hc hzero).trans hzero.symm, nofun⟩
  | some t =>
    obtain ⟨hhead, -, hct⟩ := h.recent t hlast
    obtain ⟨rest, rfl⟩ := List.head?_eq_some_iff.1 hhead
    dsimp only
    by_cases hidle : totalIdleResetMs ≤ now - t
    · rw [if_pos (totalIdleResetMs_le_saturatingSub.2 hidle)]
      exact .inl ⟨rfl, Tally.streak_of_gap hidle⟩
    · rw [if_neg (mt totalIdleResetMs_le_saturatingSub.1 hidle)]
      have hnow : now - t < totalIdleResetMs := Int.not_le.1 hidle
      refine .inr ⟨rfl, ?_, ?_⟩
      · rw [Tally.streak_of_lt hnow, Tally.streak_of_lt hct]
      · rintro t' ⟨⟩
        exact hnow

theorem settle (hc : c ≤ now) : Settled now ts (s.settle now) := by
  unfold OsCredentialFailureState.settle
  rcases h.resetTotalsOnIdle hc with ⟨hs, hzero⟩ | ⟨hs, hstreak, hrecent⟩
  · rw [hs]
    exact forgotten hzero
  rw [hs]
  constructor
  · rw [normalizeBackoff_totalFailures, hstreak]
    exact h.total
  · rw [normalizeBackoff_lastFailureMs, hstreak]
    exact h.idle
  · intro t ht
    rw [normalizeBackoff_lastFailureMs] at ht
    obtain ⟨hhead, hle, -⟩ := h.recent t ht
    exact ⟨hhead, Int.le_trans hle hc, hrecent t ht⟩
  · intro u hu
    rw [hstreak]
    exact h.until_eq u (normalizeBackoff_until.1 hu).1
  · intro t ht hn hlt
    rw [hstreak] at hn hlt ⊢
    exact normalizeBackoff_until.2 ⟨h.until_of_lt t ht hn (by omega), hlt⟩

theorem recordOsCredentialFailure (hc : c ≤ now) :
    Settled now (now :: ts) (s.recordOsCredentialFailure .terminalOsLogin now) := by
  have hs := h.settle hc
  have hpos : now - now < totalIdleResetMs := by unfold totalIdleResetMs; omega
  have hstreak : streak totalIdleResetMs now (now :: ts) = streak totalIdleResetMs now ts + 1 :=
    Tally.streak_of_lt hpos
  have htotal : saturatingSucc (s.settle now).totalFailures =
      min (streak totalIdleResetMs now (now :: ts) : ℤ) (2 ^ 31 - 1) := by
    rw [hs.total, hstreak]
    unfold saturatingSucc
    omega
  have hsec := osCredentialLoginBackoffSeconds_min (streak totalIdleResetMs now (now :: ts))
  rw [← htotal] at hsec
  have hpenalty := penalty_pos (streak totalIdleResetMs now (now :: ts))
  -- the third and every further one starts a back-off
  have huntil : (s.recordOsCredentialFailure .terminalOsLogin now).backoffUntilMs =
      if streak totalIdleResetMs now (now :: ts) ≤ 2 then none
      else some (backoffEnd now (streak totalIdleResetMs now (now :: ts))) := by
    show (if 0 < osCredentialLoginBackoffSeconds _ then _ else _) = _
    rw [hsec]
    by_cases hn : streak totalIdleResetMs now (now :: ts) ≤ 2
    · rw [if_pos hn, if_pos hn, if_neg (by omega), Option.eq_none_iff_forall_not_mem]
      intro u hu
      have := (hs.until_eq u hu).1
      omega
    · rw [if_neg hn, if_neg hn, if_pos hpenalty, Int.mul_comm]
      rfl
  constructor
  · exact htotal
  · nofun
  · rintro t ⟨⟩
    exact ⟨rfl, Int.le_refl _, hpos⟩
  · intro u hu
    rw [huntil] at hu
    split_ifs at hu
    cases hu
    exact ⟨by omega, now, rfl, rfl⟩
  · rintro t ⟨⟩ hn -
    rw [huntil, if_neg (by omega)]

variable (hts : ∀ t ∈ ts, -2 ^ 63 ≤ t)

include hts

theorem resetTotalsOnIdle_of_lt {u : ℤ} (hu : s.backoffUntilMs = some u) (hlt : now < u) :
    s.resetTotalsOnIdle now = s := by
  obtain ⟨hn, t, ht, rfl⟩ := h.until_eq u hu
  have hend := backoffEnd_le (hts t (List.mem_of_mem_head? ht)) (streak totalIdleResetMs c ts)
  unfold OsCredentialFailureState.resetTotalsOnIdle
  cases hlast : s.lastFailureMs with
  | none => rfl
  | some t' =>
    obtain rfl : t' = t := Option.some.inj ((h.recent t' hlast).1.symm.trans ht)
    refine if_neg fun hidle => ?_
    have := totalIdleResetMs_le_saturatingSub.1 hidle
    unfold totalIdleResetMs at this
    omega

theorem until_le {u : ℤ} (hu : s.backoffUntilMs = some u) : u ≤ c + 1800000 := by
  obtain ⟨hn, t, ht, rfl⟩ := h.until_eq u hu
  have hend := backoffEnd_le (hts t (List.mem_of_mem_head? ht)) (streak totalIdleResetMs c ts)
  cases hlast : s.lastFailureMs with
  | none =>
    have := h.idle hlast
    omega
  | some t' =>
    obtain ⟨ht', hle, -⟩ := h.recent t' hlast
    obtain rfl : t' = t := Option.some.inj (ht'.symm.trans ht)
    omega

theorem settle_until {u : ℤ} (hc : c ≤ now) :
    (s.settle now).backoffUntilMs = some u ↔ s.backoffUntilMs = some u ∧ now < u := by
  rw [OsCredentialFailureState.settle, normalizeBackoff_until]
  refine and_congr_left fun hlt => ?_
  constructor
  · intro hu
    rcases h.resetTotalsOnIdle hc with ⟨hs, -⟩ | ⟨hs, -⟩
    · simp [hs] at hu
    · rwa [hs] at hu
  · intro hu
    rwa [h.resetTotalsOnIdle_of_lt hts hu hlt]

end

end Settled

/-! ### Decisions -/

namespace OsCredentialFailureState

variable {s : OsCredentialFailureState} {now : ℤ}

theorem evaluate_fst : (s.evaluateOsCredentialPolicy .terminalOsLogin now).1 = s.settle now := by
  show Prod.fst (match (s.settle now).backoffUntilMs with
    | some _ => _
    | none => _) = _
  split <;> rfl

theorem evaluate_snd : (s.evaluateOsCredentialPolicy .terminalOsLogin now).2 =
    (s.settle now).backoffUntilMs.elim allowDecision fun u =>
      blockDecision (tryAgain (remainingSeconds u now)) (some .terminalOsLoginBackoff) := by
  show Prod.snd (match (s.settle now).backoffUntilMs with
    | some _ => _
    | none => _) = _
  split
  · rename_i hu
    rw [hu]
    rfl
  · rename_i hu
    rw [hu]
    rfl

theorem evaluate_allowed : (s.evaluateOsCredentialPolicy .terminalOsLogin now).2.allowed = false ↔
    ∃ u, (s.settle now).backoffUntilMs = some u := by
  rw [evaluate_snd]
  cases (s.settle now).backoffUntilMs with
  | none => simp [allowDecision]
  | some => simp [blockDecision]

end OsCredentialFailureState

theorem failures_append (calls : List Call) (x : Call) :
    failures (calls ++ [x]) = x.failure.toList ++ failures calls := by
  unfold failures
  cases hx : x.failure with
  | none | some => simp [List.filterMap_append, hx]

theorem settled_run (calls : List Call) (hclock : (calls.map Call.nowMs).Pairwise (· ≤ ·)) (now : ℤ)
    (hnow : ∀ x ∈ calls, x.nowMs ≤ now) :
    ∃ c ≤ now, Settled c (failures calls) (Run.run Call.step {} calls) := by
  induction calls using List.reverseRecOn generalizing now with
  | nil => exact ⟨now, Int.le_refl now, .forgotten rfl⟩
  | append_singleton calls x ih =>
    rw [List.map_append, List.pairwise_append] at hclock
    obtain ⟨hclock, -, hlast⟩ := hclock
    have hbefore : ∀ y ∈ calls, y.nowMs ≤ x.nowMs := fun y hy =>
      hlast _ (List.mem_map_of_mem hy) _ (by simp)
    obtain ⟨c, hc, hs⟩ := ih hclock x.nowMs hbefore
    have hx : x.nowMs ≤ now := hnow x (by simp)
    rw [Run.run_append, Run.run_cons, Run.run_nil, failures_append]
    cases x with
    | evaluate scope t =>
      cases scope with
      | default => exact ⟨c, Int.le_trans hc hx, hs⟩
      | terminalOsLogin =>
        refine ⟨t, hx, ?_⟩
        rw [Call.step, evaluate_fst]
        exact hs.settle hc
    | fail scope t =>
      cases scope with
      | default => exact ⟨c, Int.le_trans hc hx, hs⟩
      | terminalOsLogin => exact ⟨t, hx, hs.recordOsCredentialFailure hc⟩

theorem exists_call_of_failure {calls : List Call} {t : ℤ} (ht : t ∈ failures calls) :
    ∃ x ∈ calls, x.nowMs = t := by
  obtain ⟨x, hx, hfail⟩ := List.mem_filterMap.1 (List.mem_reverse.1 ht)
  refine ⟨x, hx, ?_⟩
  rcases x with ⟨scope, t'⟩ | ⟨scope, t'⟩ <;> cases scope <;> cases hfail
  rfl

def threeWrong : List Call :=
  [.fail .terminalOsLogin 1000, .fail .terminalOsLogin 2000, .fail .terminalOsLogin 3000]

end CodeDesk.Conn.OsCredential
