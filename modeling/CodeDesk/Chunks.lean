/-
# Data cut into chunks

`chunks n data` cuts `data` into pieces of length `n`, the last one shorter.
Where `g x` is a piece that goes in and `f x` what comes out for it, never
longer, as much comes out in all as went in exactly when every piece comes
out at its length (`length_delivered_iff`).
-/
import Mathlib.Data.List.Basic

namespace Chunks

variable {α : Type*} {n : ℕ}

/-- Pieces of length `n`; none of no data, or of no length. -/
def chunks (n : ℕ) (data : List α) : List (List α) :=
  if data = [] ∨ n = 0 then [] else data.take n :: chunks n (data.drop n)
termination_by data.length
decreasing_by
  rename_i h
  have hlen : 0 < data.length := List.length_pos_iff.2 fun hd => h (.inl hd)
  rw [List.length_drop]
  omega

@[simp] theorem chunks_nil (n : ℕ) : chunks n ([] : List α) = [] := by
  rw [chunks, if_pos (.inl rfl)]

theorem chunks_cons {data : List α} (hd : data ≠ []) (hn : 0 < n) :
    chunks n data = data.take n :: chunks n (data.drop n) := by
  rw [chunks, if_neg (by rintro (h | h); exacts [hd h, by omega])]

theorem flatten_chunks (hn : 0 < n) (data : List α) : (chunks n data).flatten = data := by
  fun_induction chunks n data with
  | case1 data h =>
    have hd : data = [] := h.resolve_right (Nat.ne_of_gt hn)
    rw [hd, List.flatten_nil]
  | case2 data h ih => rw [List.flatten_cons, ih, List.take_append_drop]

theorem ne_nil_of_mem_chunks {data c : List α} (hc : c ∈ chunks n data) : c ≠ [] := by
  fun_induction chunks n data with
  | case1 data h => simp at hc
  | case2 data h ih =>
    rcases List.mem_cons.1 hc with rfl | hc
    · rw [not_or] at h
      simp [h]
    · exact ih hc

/-! ### Pieces that come shortened -/

variable {β : Type*} {f g : β → List α} {l : List β}

theorem length_delivered_le (hle : ∀ x ∈ l, (f x).length ≤ (g x).length) :
    (l.map f).flatten.length ≤ (l.map g).flatten.length := by
  induction l with
  | nil => simp
  | cons x l ih =>
    have hx := hle x List.mem_cons_self
    have hl := ih fun y hy => hle y (List.mem_cons_of_mem _ hy)
    rw [List.map_cons, List.map_cons, List.flatten_cons, List.flatten_cons, List.length_append,
      List.length_append]
    omega

theorem length_delivered_iff (hle : ∀ x ∈ l, (f x).length ≤ (g x).length) :
    (l.map f).flatten.length = (l.map g).flatten.length ↔ ∀ x ∈ l, (f x).length = (g x).length := by
  induction l with
  | nil => simp
  | cons x l ih =>
    have hx := hle x List.mem_cons_self
    have hrest : ∀ y ∈ l, (f y).length ≤ (g y).length := fun y hy => hle y (List.mem_cons_of_mem _ hy)
    have hl := length_delivered_le hrest
    rw [List.map_cons, List.map_cons, List.flatten_cons, List.flatten_cons, List.length_append,
      List.length_append, List.forall_mem_cons, ← ih hrest]
    omega

end Chunks
