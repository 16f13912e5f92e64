/-
# Counting since the last reset

A log of hits and resets of several sources, newest entry first. `hits p` are
the marks of the hits since the last reset, where only the sources in `p`
count. A counter that is bumped by the hits of `p` and cleared by its resets
counts `hits p`. `streak` counts the hits since the last gap of a given length.
-/
import Mathlib.Data.List.Count
import Mathlib.Data.Int.Notation

namespace Tally

inductive Entry (α τ : Type*) where
  | hit (a : α) (t : τ)
  | reset (a : α)

variable {α τ : Type*}

/-- The marks of the hits of `p` since the last reset of `p`. -/
def hits (p : α → Prop) [DecidablePred p] : List (Entry α τ) → List τ
  | [] => []
  | .hit a t :: log => if p a then t :: hits p log else hits p log
  | .reset a :: log => if p a then [] else hits p log

variable {p q : α → Prop} [DecidablePred p] [DecidablePred q]

theorem hits_congr (h : ∀ a, p a ↔ q a) (log : List (Entry α τ)) : hits p log = hits q log := by
  induction log with
  | nil => rfl
  | cons e log ih =>
    cases e with
    | hit a | reset a => simp only [hits, h a, ih]

/-! ### Gaps -/

/-- The number of hits up to `now` since the last time without one that was at least
`gap` long. The times of the hits are given newest first. -/
def streak (gap now : ℤ) : List ℤ → ℕ
  | [] => 0
  | t :: ts => if gap ≤ now - t then 0 else streak gap t ts + 1

variable {gap now later t : ℤ} {ts : List ℤ}

theorem streak_of_gap (h : gap ≤ now - t) : streak gap now (t :: ts) = 0 := if_pos h

theorem streak_of_lt (h : now - t < gap) : streak gap now (t :: ts) = streak gap t ts + 1 :=
  if_neg (Int.not_le.2 h)

theorem streak_eq_zero_mono (hle : now ≤ later) (h : streak gap now ts = 0) :
    streak gap later ts = 0 := by
  cases ts with
  | nil => rfl
  | cons t =>
    by_cases hgap : gap ≤ now - t
    · exact streak_of_gap (by omega)
    · rw [streak_of_lt (by omega)] at h
      cases h

end Tally
