/-
# Sealed boxes under counted nonces

What a channel rests on that numbers its messages and seals each under its
number: the number as little-endian bytes, which tells apart the numbers that
fit (`leBytes_injective`), an authenticated cipher with a secret key (`Box`),
and the step by which messages taken one after the other from a list stay a
sublist of it (`sublist_take_succ`).
-/
import Mathlib.Data.List.Basic
import Mathlib.Algebra.Ring.Nat

namespace Sealing

/-! ### Numbers as bytes -/

def leBytes : ℕ → ℕ → List UInt8
  | 0, _ => []
  | k + 1, n => UInt8.ofNat n :: leBytes k (n / 256)

@[simp] theorem length_leBytes : ∀ k n, (leBytes k n).length = k
  | 0, _ => rfl
  | k + 1, n => by simp [leBytes, length_leBytes k]

theorem leBytes_injective : ∀ {k m n : ℕ}, m < 256 ^ k → n < 256 ^ k →
    leBytes k m = leBytes k n → m = n
  | 0, m, n, hm, hn, _ => by
    omega
  | k + 1, m, n, hm, hn, he => by
    obtain ⟨h₁, h₂⟩ := List.cons.inj he
    have hd : m / 256 = n / 256 :=
      leBytes_injective (Nat.div_lt_of_lt_mul (by omega)) (Nat.div_lt_of_lt_mul (by omega)) h₂
    have hr : m % 256 = n % 256 := by
      have := congrArg UInt8.toNat h₁
      simpa using this
    omega

/-! ### Boxes -/

/-- An authenticated cipher: `sealBox key nonce message` and its inverse, which
refuses what was not sealed so. A sealed message is 16 bytes longer. -/
structure Box where
  Key : Type
  sealBox : Key → List UInt8 → List UInt8 → List UInt8
  openBox : Key → List UInt8 → List UInt8 → Option (List UInt8)
  open_seal : ∀ k n m, openBox k n (sealBox k n m) = some m
  length_seal : ∀ k n m, (sealBox k n m).length = m.length + 16

/-- A box that writes the start of the nonce in front of the message. -/
def Box.plain : Box where
  Key := Unit
  sealBox := fun _ n m => (n ++ List.replicate 16 0).take 16 ++ m
  openBox := fun _ n c =>
    if c.take 16 = (n ++ List.replicate 16 0).take 16 then some (c.drop 16) else none
  open_seal := by
    intro _ n m
    have hl : ((n ++ List.replicate 16 (0 : UInt8)).take 16).length = 16 := by simp
    rw [List.take_left' hl, List.drop_left' hl, if_pos rfl]
  length_seal := by
    intro _ n m
    simp
    omega

/-- A box that writes the start of the key and of the nonce in front of the
message, so that another key does not open it. -/
def Box.keyed : Box where
  Key := List UInt8
  sealBox := fun k n m => (k.take 8 ++ n ++ List.replicate 16 0).take 16 ++ m
  openBox := fun k n c =>
    if c.take 16 = (k.take 8 ++ n ++ List.replicate 16 0).take 16 then some (c.drop 16) else none
  open_seal := by
    intro k n m
    have hl : ((k.take 8 ++ n ++ List.replicate 16 (0 : UInt8)).take 16).length = 16 := by
      simp
      omega
    rw [List.take_left' hl, List.drop_left' hl, if_pos rfl]
  length_seal := by
    intro k n m
    simp
    omega

/-- Nothing shorter than the 16 bytes a sealed message has more is opened. -/
def Box.RefusesShort (b : Box) : Prop :=
  ∀ k n c, c.length < 16 → b.openBox k n c = none

theorem Box.keyed_refusesShort : Box.keyed.RefusesShort := by
  intro k n c hc
  refine if_neg fun he => ?_
  have hl := congrArg List.length he
  simp at hl
  omega

/-! ### Messages in order -/

theorem sublist_take_succ {α : Type*} {xs ys : List α} {r : ℕ} {m : α} (hs : xs.Sublist (ys.take r))
    (hm : ys[r]? = some m) : (xs ++ [m]).Sublist (ys.take (r + 1)) := by
  rw [List.take_add_one, hm]
  exact hs.append (List.Sublist.refl [m])

theorem filterMap_sublist_filterMap {α β : Type*} {f g : α → Option β} {xs : List α}
    (h : ∀ x ∈ xs, ∀ y, f x = some y → g x = some y) :
    (xs.filterMap f).Sublist (xs.filterMap g) := by
  induction xs with
  | nil => exact List.Sublist.refl _
  | cons x xs ih =>
    have ih := ih fun x hx => h x (List.mem_cons_of_mem _ hx)
    cases hf : f x with
    | none =>
      rw [List.filterMap_cons_none hf]
      cases hg : g x with
      | none => rw [List.filterMap_cons_none hg]; exact ih
      | some z => rw [List.filterMap_cons_some hg]; exact ih.cons z
    | some y =>
      rw [List.filterMap_cons_some hf, List.filterMap_cons_some (h x List.mem_cons_self y hf)]
      exact ih.cons_cons y

end Sealing
