/-
# Finite tables

A table is a finite map of Mathlib whose values all have one type. Here is what reading
a table after an update gives, in one equation for each update (`lookup_insert_ite`,
`lookup_erase_ite`, `lookup_union_or`), the table without the entries that fail a test
(`retain`), and a rule for a loop over the entries of a table: if each turn changes what
is read at its own key only, the order of the turns does not matter (`read_foldl`).
-/
import Mathlib.Data.Finmap

abbrev Table (α β : Type*) := Finmap fun _ : α => β

namespace Table

variable {α β : Type*} [DecidableEq α] {k a : α} {b : β} {s t : Table α β}

theorem lookup_insert_ite : (s.insert a b).lookup k = if k = a then some b else s.lookup k := by
  by_cases h : k = a
  · subst h
    rw [if_pos rfl, Finmap.lookup_insert]
  · rw [if_neg h, Finmap.lookup_insert_of_ne s h]

theorem lookup_erase_ite : (s.erase a).lookup k = if k = a then none else s.lookup k := by
  by_cases h : k = a
  · subst h
    rw [if_pos rfl, Finmap.lookup_erase]
  · rw [if_neg h, Finmap.lookup_erase_ne h]

theorem lookup_union_or : (s ∪ t).lookup k = (s.lookup k).or (t.lookup k) := by
  by_cases h : k ∈ s
  · obtain ⟨b, hb⟩ := Finmap.mem_iff.1 h
    rw [Finmap.lookup_union_left h, hb, Option.some_or]
  · rw [Finmap.lookup_union_right h, Finmap.lookup_eq_none.2 h, Option.none_or]

def retain (p : α → β → Bool) (s : Table α β) : Table α β where
  entries := s.entries.filter fun e => p e.1 e.2
  nodupKeys := by
    obtain ⟨entries, hnodup⟩ := s
    induction entries using Quotient.inductionOn with
    | h => exact List.NodupKeys.sublist List.filter_sublist hnodup

theorem lookup_retain (p : α → β → Bool) : (retain p s).lookup k = (s.lookup k).filter (p k) := by
  ext b
  rw [Finmap.lookup_eq_some_iff, Option.filter_eq_some_iff, Finmap.lookup_eq_some_iff]
  exact Multiset.mem_filter

theorem read_foldl {σ γ : Type*} (read : σ → α → γ) (f : σ → (Σ _ : α, β) → σ) (g : α → β → γ)
    (hf : ∀ x e k, read (f x e) k = if k = e.1 then g e.1 e.2 else read x k)
    {l : List (Σ _ : α, β)} (hl : (l : Multiset (Σ _ : α, β)) = t.entries) (x : σ) (k : α) :
    read (l.foldl f x) k = ((t.lookup k).map (g k)).getD (read x k) := by
  have hnodup : l.NodupKeys := Multiset.coe_nodupKeys.1 (hl ▸ t.nodupKeys)
  have hlookup : t.lookup k = l.dlookup k := by
    ext b
    rw [Finmap.lookup_eq_some_iff, ← hl, Multiset.mem_coe, ← List.mem_dlookup_iff hnodup]
    rfl
  rw [hlookup]
  clear hl hlookup
  induction l generalizing x with
  | nil => rfl
  | cons e l ih =>
    obtain ⟨hnotMem, htail⟩ := List.nodupKeys_cons.1 hnodup
    rw [List.foldl_cons, ih (f x e) htail, hf]
    by_cases hk : k = e.1
    · subst hk
      rw [if_pos rfl, List.dlookup_cons_eq, List.dlookup_eq_none.2 hnotMem]
      rfl
    · rw [if_neg hk, List.dlookup_cons_ne _ _ hk]

end Table
