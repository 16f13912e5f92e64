/-
# Version numbers

`get_version_number` of `libs/hbb_common/src/lib.rs` makes one `i64` of a
version `a.b.c` or `a.b.c-p`: the parts are the digits of a number to the base
1000, the last of them moved up by one decimal place for the patch. The order
of the numbers is that of the versions as long as they fit (`number_lt`); a
first part that is no `i64` counts as 0 (`major_lost`).
-/
import Mathlib.Data.Prod.Lex
import Mathlib.Algebra.Order.Ring.Int
import CodeDesk.Decimal

namespace CodeDesk.Version

def i64 (n : ℤ) : ℤ := n.bmod (2 ^ 64)

/-- `parse::<i64>().unwrap_or(0)` of a text without `-`. -/
def part (x : List Char) : ℤ := (Decimal.parse (2 ^ 63) x).getD 0

def getVersionNumber (v : List Char) : ℤ :=
  let versions := v.splitOn '-'
  let (n, last) := ((versions.headD []).splitOn '.').foldl
    (fun (n, _) x => (i64 (i64 (n * 1000) + part x), part x)) (0, 0)
  let n := i64 (i64 (n - last) + i64 (last * 10))
  match versions[1]? with
  | some v => i64 (n + part v)
  | none => n

/-- A version whose parts keep to the places they have in the number. -/
structure Parts where
  a : ℕ
  b : ℕ
  c : ℕ
  p : Option ℕ
  b_lt : b < 1000
  c_lt : c < 100
  p_lt : p.getD 0 < 10

namespace Parts

variable (v w : Parts)

/-- `a.b.c`, as it is written. -/
def dotted : List Char :=
  Decimal.text v.a ++ '.' :: (Decimal.text v.b ++ '.' :: Decimal.text v.c)

def text : List Char := v.dotted ++ v.p.elim [] fun p => '-' :: Decimal.text p

def key : ℕ ×ₗ ℕ ×ₗ ℕ ×ₗ ℕ := toLex (v.a, toLex (v.b, toLex (v.c, v.p.getD 0)))

/-- What the version is to be as a number. -/
def number : ℕ := v.a * 1000000 + v.b * 1000 + v.c * 10 + v.p.getD 0

variable {v w}

theorem number_lt_number (h : v.key < w.key) : v.number < w.number := by
  have := v.b_lt
  have := v.c_lt
  have := v.p_lt
  simp only [key, Prod.Lex.toLex_lt_toLex] at h
  unfold number
  omega

theorem splitOn_dotted :
    v.dotted.splitOn '.' = [Decimal.text v.a, Decimal.text v.b, Decimal.text v.c] := by
  have hdot (n : ℕ) : '.' ∉ Decimal.text n := Decimal.not_mem_text (by decide) n
  rw [dotted, List.splitOn_append_cons_self_of_not_mem (hdot _),
    List.splitOn_append_cons_self_of_not_mem (hdot _), List.splitOn_eq_singleton (hdot _)]

theorem splitOn_text : v.text.splitOn '-' = v.dotted :: v.p.elim [] fun p => [Decimal.text p] := by
  have hdash (n : ℕ) : '-' ∉ Decimal.text n := Decimal.not_mem_text (by decide) n
  have hdotted : '-' ∉ v.dotted := by simp [dotted, hdash]
  unfold text
  cases v.p with
  | none => simp [List.splitOn_eq_singleton hdotted]
  | some p =>
    exact (List.splitOn_append_cons_self_of_not_mem hdotted _).trans
      (congrArg _ (List.splitOn_eq_singleton (hdash p)))

theorem getVersionNumber_text (h : v.number < 2 ^ 63) : getVersionNumber v.text = v.number := by
  have hpart {n : ℕ} (hn : n ≤ v.number) : part (Decimal.text n) = n := by
    rw [part, Decimal.parse_text, if_pos (by omega), Option.getD_some]
  have hfit {n : ℤ} (h0 : 0 ≤ n) (hn : n ≤ v.number) : i64 n = n := by
    rw [i64, Int.bmod_eq_of_le] <;> omega
  have hnumber : v.number = v.a * 1000000 + v.b * 1000 + v.c * 10 + v.p.getD 0 := rfl
  -- Every intermediate value is at most the number, and so none of them wraps.
  unfold getVersionNumber
  cases hp : v.p with
  | none =>
    simp only [hp, Option.getD_none] at hnumber
    simp (disch := omega) only [splitOn_text, hp, List.headD_cons, splitOn_dotted, List.foldl_cons,
      List.foldl_nil, Option.elim_none, List.getElem?_cons_succ, List.getElem?_nil, hpart, hfit]
    omega
  | some p =>
    simp only [hp, Option.getD_some] at hnumber
    simp (disch := omega) only [splitOn_text, hp, List.headD_cons, splitOn_dotted, List.foldl_cons,
      List.foldl_nil, Option.elim_some, List.getElem?_cons_succ, List.getElem?_cons_zero, hpart, hfit]
    omega

theorem number_lt (h : v.key < w.key) (hw : w.number < 2 ^ 63) :
    getVersionNumber v.text < getVersionNumber w.text := by
  have hlt := number_lt_number h
  rw [getVersionNumber_text hw, getVersionNumber_text (hlt.trans hw)]
  exact_mod_cast hlt

theorem number_lt_patch : getVersionNumber (text ⟨1, 4, 9, none, by decide, by decide, by decide⟩) <
    getVersionNumber (text ⟨1, 4, 9, some 1, by decide, by decide, by decide⟩) :=
  number_lt (by decide) (by decide)

theorem major_lost : ∃ v w : Parts, v.key < w.key ∧
    getVersionNumber w.text < getVersionNumber v.text :=
  ⟨⟨0, 0, 1, none, by decide, by decide, by decide⟩,
    ⟨2 ^ 63, 0, 0, none, by decide, by decide, by decide⟩, by decide, by decide +kernel⟩

end Parts
end CodeDesk.Version
