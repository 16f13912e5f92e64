/-
# Read, change, write back

Several calls work on one cell. A call reads the cell, changes what it read and writes
the result back, and between its read and its write the others may go on (`step`). What
the cell holds is then always the outcome of some of the calls, one after the other:
those of its lineage, which is the cell of the same machine when each call only puts its
name on a list (`cell_run_eq_lineage`). A call that is not in the lineage has been undone by one
that had read before it wrote.

No call is missing exactly if no write falls between a read and the write of the
same call, `Serial` (`lineage_eq_writes_iff`), and the outcome is that of all writes in
their order (`cell_run_of_serial`).
-/
import CodeDesk.Run
import Mathlib.Data.Finset.Insert

namespace Updates

variable {σ τ ι : Type*}

inductive Event (ι : Type*)
  | read (i : ι)
  | write (i : ι)

structure State (σ ι : Type*) where
  cell : σ
  held : ι → Option σ

def start (x : σ) : State σ ι := ⟨x, fun _ => none⟩

def writes (es : List (Event ι)) : List ι :=
  es.filterMap fun
    | .write i => some i
    | .read _ => none

@[simp] theorem writes_nil : writes ([] : List (Event ι)) = [] := rfl

@[simp] theorem writes_read (i : ι) (es : List (Event ι)) : writes (.read i :: es) = writes es := rfl

@[simp] theorem writes_write (i : ι) (es : List (Event ι)) :
    writes (.write i :: es) = i :: writes es := rfl

theorem writes_append (es es' : List (Event ι)) : writes (es ++ es') = writes es ++ writes es' :=
  List.filterMap_append

variable [DecidableEq ι]

/-- A call reads, or writes what it makes of the value it read. -/
def step (edit : ι → σ → σ) (s : State σ ι) : Event ι → State σ ι
  | .read i => { s with held := Function.update s.held i (some s.cell) }
  | .write i =>
    match s.held i with
    | none => s
    | some x => ⟨edit i x, Function.update s.held i none⟩

/-- The calls that the cell's value comes from, the last one first. -/
def lineage (es : List (Event ι)) : List ι := (Run.run (step List.cons) (start []) es).cell

/-- Each write is by a call that has read since the last write: `fresh` are those calls. -/
def Serial (fresh : Finset ι) : List (Event ι) → Prop
  | [] => True
  | .read i :: es => Serial (insert i fresh) es
  | .write i :: es => i ∈ fresh ∧ Serial ∅ es

instance decidableSerial : ∀ (fresh : Finset ι) (es : List (Event ι)), Decidable (Serial fresh es)
  | _, [] => inferInstanceAs (Decidable True)
  | fresh, .read i :: es => decidableSerial (insert i fresh) es
  | fresh, .write i :: es =>
    have := decidableSerial ∅ es
    inferInstanceAs (Decidable (i ∈ fresh ∧ Serial ∅ es))

variable {edit : ι → σ → σ} {s : State σ ι} {fresh : Finset ι} {es : List (Event ι)}

theorem step_write_of_held {i : ι} {x : σ} (h : s.held i = some x) :
    step edit s (.write i) = ⟨edit i x, Function.update s.held i none⟩ := by
  simp only [step, h]

theorem held_of_held_write {i j : ι} {x : σ} (h : (step edit s (.write i)).held j = some x) :
    s.held j = some x := by
  cases hi : s.held i with
  | none => simpa only [step, hi] using h
  | some =>
    rw [step_write_of_held hi] at h
    by_cases hji : j = i
    · simp [hji] at h
    · simpa [hji] using h

/-! ## The lineage -/

/-- A change of the cell's type that goes along with every call's change. -/
def State.map (f : σ → τ) (s : State σ ι) : State τ ι := ⟨f s.cell, fun i => (s.held i).map f⟩

theorem step_map {edit' : ι → τ → τ} {f : σ → τ} (hf : ∀ i x, f (edit i x) = edit' i (f x))
    (s : State σ ι) (e : Event ι) : step edit' (s.map f) e = (step edit s e).map f := by
  cases e with
  | read i =>
    simp only [step, State.map, State.mk.injEq, true_and]
    funext j
    by_cases h : j = i <;> simp [h]
  | write i =>
    cases h : s.held i with
    | none => simp [step, State.map, h]
    | some x =>
      have hmap : (s.map f).held i = some (f x) := by simp [State.map, h]
      rw [step_write_of_held h, step_write_of_held hmap]
      simp only [State.map, State.mk.injEq, hf, true_and]
      funext j
      by_cases hj : j = i <;> simp [hj]

theorem run_map {edit' : ι → τ → τ} {f : σ → τ} (hf : ∀ i x, f (edit i x) = edit' i (f x))
    (s : State σ ι) (es : List (Event ι)) :
    Run.run (step edit') (s.map f) es = (Run.run (step edit) s es).map f := by
  induction es generalizing s with
  | nil => rfl
  | cons e es ih => rw [Run.run_cons, Run.run_cons, step_map hf, ih]

/-- The cell holds the outcome of the calls of its lineage, one after the other. -/
theorem cell_run_eq_lineage (x : σ) (es : List (Event ι)) :
    (Run.run (step edit) (start x) es).cell = (lineage es).foldr edit x := by
  have hf : ∀ i (l : List ι), (i :: l).foldr edit x = edit i (l.foldr edit x) := fun _ _ => rfl
  exact congrArg State.cell (run_map hf (start []) es)

/-- Only calls that write get into the lineage. -/
theorem lineage_subset_writes (es : List (Event ι)) : lineage es ⊆ writes es := by
  refine (Run.inv_run_of_mem (I := fun s : State (List ι) ι =>
    s.cell ⊆ writes es ∧ ∀ i l, s.held i = some l → l ⊆ writes es) ?_ (by simp [start])).1
  intro s e he ⟨hcell, hheld⟩
  cases e with
  | read i =>
    refine ⟨hcell, fun j l hl => ?_⟩
    by_cases hj : j = i
    · have hl' : s.cell = l := by simpa [step, hj] using hl
      exact hl' ▸ hcell
    · exact hheld j l (by simpa [step, hj] using hl)
  | write i =>
    refine ⟨?_, fun j l hl => hheld j l (held_of_held_write hl)⟩
    cases hi : s.held i with
    | none => simpa only [step, hi] using hcell
    | some l =>
      have hmem : i ∈ writes es := List.mem_filterMap.2 ⟨.write i, he, rfl⟩
      rw [step_write_of_held hi]
      exact List.cons_subset.2 ⟨hmem, hheld i l hi⟩

/-! ## Writes without another between -/

/-- What is read at the start of a write that is `Serial` is what the cell holds. -/
theorem cell_run_of_fresh (hfresh : ∀ i ∈ fresh, s.held i = some s.cell) (h : Serial fresh es) :
    (Run.run (step edit) s es).cell = (writes es).foldl (fun x i => edit i x) s.cell := by
  induction es generalizing s fresh with
  | nil => rfl
  | cons e es ih =>
    cases e with
    | read i =>
      refine ih (fun j hj => ?_) h
      by_cases hji : j = i
      · simp [step, hji]
      · simp [step, hji, hfresh j (Finset.mem_of_mem_insert_of_ne hj hji)]
    | write i =>
      rw [Run.run_cons, step_write_of_held (hfresh i h.1)]
      exact ih (by simp) h.2

theorem cell_run_of_serial (x : σ) (h : Serial ∅ es) :
    (Run.run (step edit) (start x) es).cell = (writes es).foldl (fun x i => edit i x) x :=
  cell_run_of_fresh (by simp) h

/-- A write makes the lineage one longer than it was if the call had read the current
value, and otherwise no longer than the number of writes before. -/
theorem length_cell_write {s : State (List ι) ι} {n : ℕ} (i : ι)
    (hfresh : ∀ i ∈ fresh, s.held i = some s.cell)
    (hstale : ∀ i l, s.held i = some l → i ∈ fresh ∨ l.length < n) (hn : s.cell.length ≤ n) :
    (step List.cons s (.write i)).cell.length ≤ n + 1 ∧
      ((step List.cons s (.write i)).cell.length = n + 1 ↔ s.cell.length = n ∧ i ∈ fresh) := by
  by_cases hi : i ∈ fresh
  · rw [step_write_of_held (hfresh i hi)]
    simp [hi, hn]
  · cases h : s.held i with
    | none =>
      have hstep : step List.cons s (.write i) = s := by simp only [step, h]
      rw [hstep]
      simp only [hi, and_false, iff_false]
      omega
    | some l =>
      have hl : l.length < n := (hstale i l h).resolve_left hi
      rw [step_write_of_held h]
      simp only [List.length_cons, hi, and_false, iff_false]
      omega

/-- So the lineage keeps up with the writes exactly if each call that writes had read the
current value: what falls behind once stays behind. -/
theorem length_cell_run_iff {s : State (List ι) ι} {n : ℕ}
    (hfresh : ∀ i ∈ fresh, s.held i = some s.cell)
    (hstale : ∀ i l, s.held i = some l → i ∈ fresh ∨ l.length < n) (hn : s.cell.length ≤ n) :
    (Run.run (step List.cons) s es).cell.length = n + (writes es).length ↔
      s.cell.length = n ∧ Serial fresh es := by
  induction es generalizing s fresh n with
  | nil => simp [Serial]
  | cons e es ih =>
    cases e with
    | read i =>
      refine ih (fun j hj => ?_) (fun j l hl => ?_) hn
      · by_cases hji : j = i
        · simp [step, hji]
        · simp [step, hji, hfresh j (Finset.mem_of_mem_insert_of_ne hj hji)]
      · by_cases hji : j = i
        · exact .inl (hji ▸ Finset.mem_insert_self _ _)
        · have hl' : s.held j = some l := by simpa [step, hji] using hl
          exact (hstale j l hl').imp_left Finset.mem_insert_of_mem
    | write i =>
      obtain ⟨hle, hiff⟩ := length_cell_write i hfresh hstale hn
      have hheld : ∀ j l, (step List.cons s (.write i)).held j = some l → l.length < n + 1 := by
        intro j l hl
        have hl' : s.held j = some l := held_of_held_write hl
        rcases hstale j l hl' with hj | hlt
        · have hcell : l = s.cell := Option.some.inj (hl'.symm.trans (hfresh j hj))
          exact hcell ▸ Nat.lt_succ_of_le hn
        · omega
      have hrun := @ih ∅ _ (n + 1) (by simp) (fun j l hl => .inr (hheld j l hl)) hle
      have hlen : n + (writes (.write i :: es)).length = n + 1 + (writes es).length := by
        rw [writes_write, List.length_cons]
        omega
      rw [Run.run_cons, hlen, hrun, hiff]
      exact and_assoc

/-- No call is missing from the lineage exactly if no write falls between a read and the
write of the same call. -/
theorem lineage_eq_writes_iff : lineage es = (writes es).reverse ↔ Serial ∅ es := by
  constructor
  · intro h
    have hlen : (lineage es).length = 0 + (writes es).length := by
      rw [h, List.length_reverse, Nat.zero_add]
    exact ((length_cell_run_iff (by simp) (by simp [start]) le_rfl).1 hlen).2
  · intro h
    rw [lineage, cell_run_of_serial [] h, List.foldl_flip_cons_eq_append, List.append_nil,
      List.map_id']

end Updates
