/-
# Messages of an ideal cryptography

A term is a message built from names by pairing, tagging, signing, sealing to a
public key and sealing under a secret key. An attacker that has the terms `K` can
make every term of `Derives K`: it takes pairs apart, reads what is signed, opens
what it has the key for, and builds terms of what it has.

What stays out of its reach is shown by one closed set, `Safe`. It is given by
the names whose secrets are kept and by what their owners signed and sealed; if
everything the attacker has is safe then so is everything it can make
(`Derives.safe`). A secret key that is kept is not safe, so it cannot be derived;
and a signature under a key that is kept was made by its owner.
-/
import Mathlib.Data.Set.Basic

namespace Symbolic

inductive Term (N : Type*) where
  | data (b : List UInt8)
  | text (s : String)
  | signPk (n : N)
  | signSk (n : N)
  | boxPk (n : N)
  | boxSk (n : N)
  | key (n : N)
  | pair (a b : Term N)
  | tag (k : ℕ) (t : Term N)
  /-- `m` with a signature of `n`. -/
  | sign (m : Term N) (n : N)
  /-- `m` sealed to the public key `pk` by the owner of the key pair `n`. -/
  | box (m pk : Term N) (n : N)
  /-- `m` sealed under the secret key `k` with the number `c`. -/
  | secretBox (m k : Term N) (c : ℕ)
  deriving DecidableEq, Repr

variable {N : Type*}

/-- What can be made of the terms `K`. A box is opened with either of its two
secret keys. -/
inductive Derives (K : Set (Term N)) : Term N → Prop where
  | known {t} : t ∈ K → Derives K t
  | data (b) : Derives K (.data b)
  | text (s) : Derives K (.text s)
  | signPk {n} : Derives K (.signSk n) → Derives K (.signPk n)
  | boxPk {n} : Derives K (.boxSk n) → Derives K (.boxPk n)
  | pair {s t} : Derives K s → Derives K t → Derives K (.pair s t)
  | fst {s t} : Derives K (.pair s t) → Derives K s
  | snd {s t} : Derives K (.pair s t) → Derives K t
  | tag (k) {t} : Derives K t → Derives K (.tag k t)
  | untag {k t} : Derives K (.tag k t) → Derives K t
  | sign {m n} : Derives K m → Derives K (.signSk n) → Derives K (.sign m n)
  | signed {m n} : Derives K (.sign m n) → Derives K m
  | box {m pk n} : Derives K m → Derives K pk → Derives K (.boxSk n) → Derives K (.box m pk n)
  | unbox {m a n} : Derives K (.box m (.boxPk a) n) → Derives K (.boxSk a) → Derives K m
  | unboxOwn {m pk n} : Derives K (.box m pk n) → Derives K (.boxSk n) → Derives K m
  | secretBox {m k} (c) : Derives K m → Derives K k → Derives K (.secretBox m k c)
  | unlock {m k c} : Derives K (.secretBox m k c) → Derives K k → Derives K m

variable {K : Set (Term N)} {t m : Term N} {n : N}

/-! ### The closed set -/

/-- What is kept: the signing keys, box keys and secret keys the attacker does not
have, what the owners of the first have signed, and the boxes in which something
that is not safe was sealed. -/
structure Guard (N : Type*) where
  signKept : N → Prop
  boxKept : N → Prop
  keyKept : N → Prop
  Signed : N → Term N → Prop
  Sealed : N → Term N → Term N → Prop
  /-- Such a box has an owner, and a receiver if any, whose key is kept. -/
  sealed_kept : ∀ {n pk m}, Sealed n pk m → boxKept n ∧ ∀ a, pk = .boxPk a → boxKept a

namespace Guard

/-- A term that gives nothing away that is kept. -/
def Safe (G : Guard N) : Term N → Prop
  | .data _ => True
  | .text _ => True
  | .signPk _ => True
  | .boxPk _ => True
  | .signSk n => ¬ G.signKept n
  | .boxSk n => ¬ G.boxKept n
  | .key n => ¬ G.keyKept n
  | .pair s t => G.Safe s ∧ G.Safe t
  | .tag _ t => G.Safe t
  | .sign m n => G.Safe m ∧ (G.signKept n → G.Signed n m)
  | .box m pk n => G.Safe pk ∧ (G.Safe m ∨ G.Sealed n pk m)
  | .secretBox m k _ => G.Safe m ∨ ∃ n, k = .key n ∧ G.keyKept n

variable {G H : Guard N}

theorem safe_derives (hK : ∀ t ∈ K, G.Safe t) (ht : Derives K t) : G.Safe t := by
  induction ht with
  | known hm => exact hK _ hm
  | data | text | signPk | boxPk => trivial
  | pair _ _ ih₁ ih₂ => exact ⟨ih₁, ih₂⟩
  | fst _ ih | signed _ ih => exact ih.1
  | snd _ ih => exact ih.2
  | tag _ _ ih | untag _ ih => exact ih
  | sign _ _ ih₁ ih₂ => exact ⟨ih₁, fun hn => absurd hn ih₂⟩
  | box _ _ _ ih₁ ih₂ => exact ⟨ih₂, .inl ih₁⟩
  | @unbox _ a _ _ _ ih₁ ih₂ =>
    -- the key that opens the box is not kept, so its content was safe
    rcases ih₁.2 with hm | hs
    · exact hm
    · exact absurd ((G.sealed_kept hs).2 a rfl) ih₂
  | unboxOwn _ _ ih₁ ih₂ =>
    rcases ih₁.2 with hm | hs
    · exact hm
    · exact absurd (G.sealed_kept hs).1 ih₂
  | secretBox c _ _ ih₁ => exact .inl ih₁
  | unlock _ _ ih₁ ih₂ =>
    rcases ih₁ with hm | ⟨n, rfl, hn⟩
    · exact hm
    · exact absurd hn ih₂

theorem key_not_derived (hK : ∀ t ∈ K, G.Safe t) (hn : G.keyKept n) : ¬ Derives K (.key n) :=
  fun ht => safe_derives hK ht hn

theorem signed_of_derives (hK : ∀ t ∈ K, G.Safe t) (hn : G.signKept n)
    (ht : Derives K (.sign m n)) : G.Signed n m :=
  (safe_derives hK ht).2 hn

/-- Signing and sealing more, with the same keys kept, leaves safe what was. -/
theorem Safe.mono (hs : H.signKept = G.signKept) (hb : H.boxKept = G.boxKept)
    (hk : H.keyKept = G.keyKept) (hS : ∀ n m, G.Signed n m → H.Signed n m)
    (hB : ∀ n pk m, G.Sealed n pk m → H.Sealed n pk m) (ht : G.Safe t) : H.Safe t := by
  induction t with
  | data | text | signPk | boxPk => trivial
  | signSk => rwa [Safe, hs]
  | boxSk => rwa [Safe, hb]
  | key => rwa [Safe, hk]
  | pair s t ih₁ ih₂ => exact ⟨ih₁ ht.1, ih₂ ht.2⟩
  | tag k t ih => exact ih ht
  | sign m n ih => exact ⟨ih ht.1, fun hn => hS n m (ht.2 (hs ▸ hn))⟩
  | box m pk n ih₁ ih₂ =>
    exact ⟨ih₂ ht.1, ht.2.elim (fun hm => .inl (ih₁ hm)) fun hm => .inr (hB n pk m hm)⟩
  | secretBox m k c ih =>
    rcases ht with hm | ⟨n, rfl, hn⟩
    · exact .inl (ih hm)
    · exact .inr ⟨n, rfl, hk ▸ hn⟩

end Guard
end Symbolic
