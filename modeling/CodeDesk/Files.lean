/-
# Files with one open handle

A file system as a writer of one file at a time sees it: names with their
contents, and a handle on an open file that stays on the file when its name
changes. `rename`, `remove` and `create` act on the names, `moved` and
`unlinked` follow the handle, `writeAt` is a write at a position.
-/
import Mathlib.Data.List.Basic
import Mathlib.Logic.Function.Basic

namespace Files

variable {κ β : Type*} [DecidableEq κ]

/-! ### Contents -/

/-- `data` written at position `off`; a gap after the end of the file is
filled with `z`, and an empty write changes nothing. -/
def writeAt (z : β) (base : List β) (off : ℕ) (data : List β) : List β :=
  if data.isEmpty then base
  else base.take off ++ List.replicate (off - base.length) z ++ data ++ base.drop (off + data.length)

@[simp] theorem writeAt_nil (z : β) (base : List β) (off : ℕ) : writeAt z base off [] = base := rfl

@[simp] theorem writeAt_empty (z : β) (data : List β) : writeAt z [] 0 data = data := by
  cases data <;> simp [writeAt]

theorem writeAt_append (z : β) (base : List β) (off : ℕ) (d d' : List β) :
    writeAt z (writeAt z base off d) (off + d.length) d' = writeAt z base off (d ++ d') := by
  rcases d with _ | ⟨a, d⟩
  · simp
  rcases d' with _ | ⟨a', d'⟩
  · simp
  have hhead : (base.take off ++ List.replicate (off - base.length) z ++ a :: d).length =
      off + (a :: d).length := by
    simp only [List.length_append, List.length_take, List.length_replicate, List.length_cons]
    omega
  have hgap : off + (a :: d).length - (base.take off ++ List.replicate (off - base.length) z ++
      a :: d ++ base.drop (off + (a :: d).length)).length = 0 := by
    rw [List.length_append, hhead]
    omega
  have htake : (base.take off ++ List.replicate (off - base.length) z ++ a :: d ++
      base.drop (off + (a :: d).length)).take (off + (a :: d).length) =
        base.take off ++ List.replicate (off - base.length) z ++ a :: d := by
    rw [← hhead, List.take_left]
  have hdrop : (base.take off ++ List.replicate (off - base.length) z ++ a :: d ++
      base.drop (off + (a :: d).length)).drop (off + (a :: d).length + (a' :: d').length) =
        base.drop (off + (a :: d ++ a' :: d').length) := by
    rw [← List.drop_drop, ← hhead, List.drop_left, hhead, List.drop_drop, List.length_append,
      ← Nat.add_assoc]
  simp only [writeAt, List.isEmpty_cons, Bool.false_eq_true, ↓reduceIte, List.cons_append]
  rw [hgap, htake, hdrop]
  simp

/-! ### Names -/

def rename (fs : κ → Option (List β)) (src dst : κ) : κ → Option (List β) :=
  match fs src with
  | none => fs
  | some c => if src = dst then fs else Function.update (Function.update fs dst (some c)) src none

def remove (fs : κ → Option (List β)) (k : κ) : κ → Option (List β) := Function.update fs k none

def put (fs : κ → Option (List β)) (k : κ) (c : List β) : κ → Option (List β) :=
  Function.update fs k (some c)

variable {fs : κ → Option (List β)} {src dst k l : κ} {c : List β}

theorem rename_absent (h : fs src = none) : rename fs src dst = fs := by simp [rename, h]

theorem rename_other (hs : l ≠ src) (hd : l ≠ dst) : rename fs src dst l = fs l := by
  cases hc : fs src with
  | none => rw [rename_absent hc]
  | some =>
    by_cases he : src = dst
    · subst he
      simp [rename, hc]
    · simp [rename, hc, he, hs, hd]

theorem rename_dst (h : fs src = some c) (hne : src ≠ dst) : rename fs src dst dst = some c := by
  simp [rename, h, hne, Function.update, Ne.symm hne]

theorem rename_src (h : fs src = some c) (hne : src ≠ dst) : rename fs src dst src = none := by
  simp [rename, h, hne]

@[simp] theorem remove_same : remove fs k k = none := by simp [remove]

@[simp] theorem remove_other (h : l ≠ k) : remove fs k l = fs l := by simp [remove, h]

@[simp] theorem put_same : put fs k c k = some c := by simp [put]

@[simp] theorem put_other (h : l ≠ k) : put fs k c l = fs l := by simp [put, h]

@[simp] theorem put_put (c d : List β) : put (put fs k c) k d = put fs k d :=
  Function.update_idem ..

theorem put_remove (c : List β) : put (remove fs k) k c = put fs k c := Function.update_idem ..

theorem put_comm (h : k ≠ l) (c d : List β) : put (put fs k c) l d = put (put fs l d) k c :=
  Function.update_comm h ..

/-! ### The handle -/

/-- An open file: the name it has, if it still has one, and the position. -/
structure Handle (κ : Type*) where
  loc : Option κ
  pos : ℕ
  writable : Bool
  deriving DecidableEq, Repr

namespace Handle

/-- The handle after `rename src dst`: the file moves with its name, and a
file whose name is taken over is left without one. -/
def moved (src dst : κ) (h : Handle κ) : Handle κ :=
  if src = dst then h
  else if h.loc = some src then { h with loc := some dst }
  else if h.loc = some dst then { h with loc := none }
  else h

def unlinked (k : κ) (h : Handle κ) : Handle κ :=
  if h.loc = some k then { h with loc := none } else h

end Handle

end Files
