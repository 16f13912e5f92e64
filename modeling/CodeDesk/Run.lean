/-
# Runs of a machine

A machine takes one input at a time: `step s i` is its state after input `i`
in state `s`. A run is a list of inputs. What a safety proof needs is here
once: an invariant that every step keeps holds after every run
(`inv_run`), also when a step keeps it only under a condition on the input
and the state before it and every step of the run meets that condition
(`Meets`, `inv_run_of_meets`), and exactly then when the condition is exact
(`meets_inv_iff`). A machine that also puts something out at each
step has a trace, and what an invariant says of each output holds of the
whole trace (`forall_trace`). A record of a machine that gets at most one
entry at a step can be cut anywhere: the cut is the record of a shorter run
(`exists_take_of_prefix`).
-/
import Mathlib.Data.List.Induction

namespace Run

variable {σ ι : Type*} (step : σ → ι → σ)

def run (s : σ) (is : List ι) : σ := is.foldl step s

@[simp] theorem run_nil (s : σ) : run step s [] = s := rfl

@[simp] theorem run_cons (s : σ) (i : ι) (is : List ι) :
    run step s (i :: is) = run step (step s i) is := rfl

theorem run_append (s : σ) (is js : List ι) :
    run step s (is ++ js) = run step (run step s is) js := List.foldl_append

/-- Every step of the run meets `P`, a condition on the state before the step
and its input. -/
def Meets (P : σ → ι → Prop) : σ → List ι → Prop
  | _, [] => True
  | s, i :: is => P s i ∧ Meets P (step s i) is

instance decidableMeets {P : σ → ι → Prop} [∀ s i, Decidable (P s i)] :
    ∀ s is, Decidable (Meets step P s is)
  | _, [] => inferInstanceAs (Decidable True)
  | s, i :: is =>
    have := decidableMeets (P := P) (step s i) is
    inferInstanceAs (Decidable (_ ∧ _))

variable {P : σ → ι → Prop} {s : σ} {is : List ι} {I : σ → Prop}

theorem meets_append (s : σ) (is js : List ι) :
    Meets step P s (is ++ js) ↔ Meets step P s is ∧ Meets step P (run step s is) js := by
  induction is generalizing s with
  | nil => simp [Meets]
  | cons i is ih => simp [Meets, ih, and_assoc]

variable {step}

theorem meets_congr {Q : σ → ι → Prop}
    (h : ∀ s, ∀ i ∈ is, P s i ↔ Q s i) : Meets step P s is ↔ Meets step Q s is := by
  induction is generalizing s with
  | nil => exact Iff.rfl
  | cons i is ih =>
    have hi := h s i List.mem_cons_self
    have his := ih (s := step s i) fun t j hj => h t j (List.mem_cons_of_mem _ hj)
    exact and_congr hi his

theorem inv_run_of_meets (hstep : ∀ s, ∀ i ∈ is, I s → P s i → I (step s i)) (h : I s)
    (hm : Meets step P s is) : I (run step s is) := by
  induction is generalizing s with
  | nil => exact h
  | cons i is ih =>
    refine ih (fun s j hj => hstep s j (List.mem_cons_of_mem _ hj)) ?_ hm.2
    exact hstep s i List.mem_cons_self h hm.1

theorem inv_run_of_mem
    (hstep : ∀ s, ∀ i ∈ is, I s → I (step s i)) (h : I s) : I (run step s is) := by
  induction is generalizing s with
  | nil => exact h
  | cons i is ih =>
    exact ih (fun s j hj => hstep s j (List.mem_cons_of_mem _ hj)) (hstep s i List.mem_cons_self h)

theorem inv_run (hstep : ∀ s i, I s → I (step s i)) (h : I s) (is : List ι) : I (run step s is) :=
  inv_run_of_mem (fun s i _ => hstep s i) h

/-- An invariant that a step keeps exactly under a condition on the state before it and
its input: it holds after every step exactly if every step meets the condition. -/
theorem meets_inv_iff (hstep : ∀ s i, I s → (I (step s i) ↔ P s i)) (h : I s) (is : List ι) :
    Meets step (fun s i => I (step s i)) s is ↔ Meets step P s is := by
  induction is generalizing s with
  | nil => exact Iff.rfl
  | cons i is ih =>
    constructor
    · rintro ⟨hi, his⟩
      exact ⟨(hstep s i h).1 hi, (ih hi).1 his⟩
    · rintro ⟨hp, his⟩
      have hi := (hstep s i h).2 hp
      exact ⟨hi, (ih hi).2 his⟩

/-! ### Outputs -/

variable {ω : Type*} {out : σ → ι → List ω}

/-- What the steps of a run put out, in order. -/
def trace (step : σ → ι → σ) (out : σ → ι → List ω) : σ → List ι → List ω
  | _, [] => []
  | s, i :: is => out s i ++ trace step out (step s i) is

theorem trace_append (s : σ) (is js : List ι) :
    trace step out s (is ++ js) = trace step out s is ++ trace step out (run step s is) js := by
  induction is generalizing s with
  | nil => rfl
  | cons i is ih => simp [trace, ih, run_cons]

theorem forall_trace {Q : ω → Prop} (hstep : ∀ s, ∀ i ∈ is, I s → I (step s i))
    (hout : ∀ s, ∀ i ∈ is, I s → ∀ a ∈ out s i, Q a) (h : I s) :
    ∀ a ∈ trace step out s is, Q a := by
  induction is generalizing s with
  | nil => simp [trace]
  | cons i is ih =>
    exact List.forall_mem_append.2 ⟨hout s i List.mem_cons_self h,
      ih (fun s j hj => hstep s j (List.mem_cons_of_mem _ hj))
        (fun s j hj => hout s j (List.mem_cons_of_mem _ hj)) (hstep s i List.mem_cons_self h)⟩

/-! ### Records -/

/-- At the step the record gets at most one entry. -/
def AddsOne (step : σ → ι → σ) (record : σ → List ω) (s : σ) (i : ι) : Prop :=
  ∃ o : List ω, o.length ≤ 1 ∧ record (step s i) = record s ++ o

theorem exists_take_of_prefix {record : σ → List ω} {p : List ω} (hs : record s = [])
    (hm : Meets step (AddsOne step record) s is) (hp : p <+: record (run step s is)) :
    ∃ n ≤ is.length, p = record (run step s (is.take n)) := by
  induction is using List.reverseRecOn with
  | nil =>
    refine ⟨0, Nat.le_refl 0, ?_⟩
    rw [run_nil, hs] at hp
    rw [List.take_nil, run_nil, hs, List.prefix_nil.1 hp]
  | append_singleton is i ih =>
    obtain ⟨hm, ⟨o, ho, hrecord⟩, -⟩ := (meets_append step s is [i]).1 hm
    have hshort : p <+: record (run step s is) →
        ∃ n ≤ (is ++ [i]).length, p = record (run step s ((is ++ [i]).take n)) := by
      intro hp
      obtain ⟨n, hn, h⟩ := ih hm hp
      refine ⟨n, by simp only [List.length_append]; omega, ?_⟩
      rwa [List.take_append_of_le_length hn]
    rw [run_append, run_cons, run_nil, hrecord] at hp
    rcases o with _ | ⟨a, _ | ⟨b, o⟩⟩
    · exact hshort (by rwa [List.append_nil] at hp)
    · rcases List.prefix_concat_iff.1 hp with hp | hp
      · refine ⟨_, Nat.le_refl _, ?_⟩
        rw [List.take_length, run_append, run_cons, run_nil, hrecord, hp]
      · exact hshort hp
    · simp at ho

end Run
