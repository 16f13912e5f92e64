/-
# Base64

The encoding with the standard alphabet and padding, and a strict decoder: a
text it accepts is a whole number of groups of four characters, the padding
stands at the end only, and the bits the padding leaves unused are zero.

`Codec` is what a program may rely on (what was encoded is decoded again, and
the shape of the texts), and `standard` is this encoding as a codec.
-/
import Mathlib.Data.List.Basic
import Mathlib.Algebra.Ring.Nat

namespace Base64

/-! ### Characters -/

def char (v : ℕ) : UInt8 :=
  if v < 26 then UInt8.ofNat (65 + v)
  else if v < 52 then UInt8.ofNat (97 + (v - 26))
  else if v < 62 then UInt8.ofNat (48 + (v - 52))
  else if v = 62 then 43
  else 47

def value (c : UInt8) : Option ℕ :=
  if 65 ≤ c.toNat ∧ c.toNat ≤ 90 then some (c.toNat - 65)
  else if 97 ≤ c.toNat ∧ c.toNat ≤ 122 then some (c.toNat - 97 + 26)
  else if 48 ≤ c.toNat ∧ c.toNat ≤ 57 then some (c.toNat - 48 + 52)
  else if c = 43 then some 62
  else if c = 47 then some 63
  else none

def pad : UInt8 := 61

theorem char_spec : ∀ v < 64, value (char v) = some v ∧ char v ≠ pad := by decide

variable {v : ℕ}

theorem value_char (hv : v < 64) : value (char v) = some v := (char_spec v hv).1

theorem char_ne_pad (hv : v < 64) : char v ≠ pad := (char_spec v hv).2

theorem char_ascii (v : ℕ) : (char v).toNat < 128 := by
  unfold char
  split_ifs <;> simp <;> omega

/-! ### Texts -/

def encode : List UInt8 → List UInt8
  | [] => []
  | [a] => [char (a.toNat / 4), char (a.toNat % 4 * 16), pad, pad]
  | [a, b] =>
    [char (a.toNat / 4), char (a.toNat % 4 * 16 + b.toNat / 16), char (b.toNat % 16 * 4), pad]
  | a :: b :: c :: rest =>
    char (a.toNat / 4) :: char (a.toNat % 4 * 16 + b.toNat / 16) ::
      char (b.toNat % 16 * 4 + c.toNat / 64) :: char (c.toNat % 64) :: encode rest

def decodeOne (p q : UInt8) : Option (List UInt8) := do
  let x ← value p
  let y ← value q
  if y % 16 = 0 then some [UInt8.ofNat (x * 4 + y / 16)] else none

def decodeTwo (p q r : UInt8) : Option (List UInt8) := do
  let x ← value p
  let y ← value q
  let z ← value r
  if z % 4 = 0 then some [UInt8.ofNat (x * 4 + y / 16), UInt8.ofNat (y % 16 * 16 + z / 4)] else none

def decodeThree (p q r s : UInt8) : Option (List UInt8) := do
  let x ← value p
  let y ← value q
  let z ← value r
  let w ← value s
  some [UInt8.ofNat (x * 4 + y / 16), UInt8.ofNat (y % 16 * 16 + z / 4),
    UInt8.ofNat (z % 4 * 64 + w)]

def decode : List UInt8 → Option (List UInt8)
  | [] => some []
  | p :: q :: r :: s :: rest =>
    if s ≠ pad then do
      let bytes ← decodeThree p q r s
      let more ← decode rest
      some (bytes ++ more)
    else if rest ≠ [] then none
    else if r = pad then decodeOne p q
    else decodeTwo p q r
  | _ => none

/-! ### Encoding and decoding -/

theorem ofNat_of_eq {n : ℕ} {a : UInt8} (h : n = a.toNat) : UInt8.ofNat n = a := by
  rw [h, UInt8.ofNat_toNat]

theorem decodeOne_char (a : UInt8) :
    decodeOne (char (a.toNat / 4)) (char (a.toNat % 4 * 16)) = some [a] := by
  have ha := a.toNat_lt
  rw [decodeOne, value_char (by omega), value_char (by omega)]
  simp only [Option.bind_eq_bind, Option.bind_some]
  rw [if_pos (by omega), ofNat_of_eq (a := a) (by omega)]

theorem decodeTwo_char (a b : UInt8) :
    decodeTwo (char (a.toNat / 4)) (char (a.toNat % 4 * 16 + b.toNat / 16))
      (char (b.toNat % 16 * 4)) = some [a, b] := by
  have ha := a.toNat_lt
  have hb := b.toNat_lt
  rw [decodeTwo, value_char (by omega), value_char (by omega), value_char (by omega)]
  simp only [Option.bind_eq_bind, Option.bind_some]
  rw [if_pos (by omega), ofNat_of_eq (a := a) (by omega), ofNat_of_eq (a := b) (by omega)]

theorem decodeThree_char (a b c : UInt8) :
    decodeThree (char (a.toNat / 4)) (char (a.toNat % 4 * 16 + b.toNat / 16))
      (char (b.toNat % 16 * 4 + c.toNat / 64)) (char (c.toNat % 64)) = some [a, b, c] := by
  have ha := a.toNat_lt
  have hb := b.toNat_lt
  have hc := c.toNat_lt
  unfold decodeThree
  rw [value_char (by omega), value_char (by omega), value_char (by omega), value_char (by omega)]
  simp only [Option.bind_eq_bind, Option.bind_some]
  rw [ofNat_of_eq (a := a) (by omega), ofNat_of_eq (a := b) (by omega),
    ofNat_of_eq (a := c) (by omega)]

variable (bytes : List UInt8)

theorem decode_encode : decode (encode bytes) = some bytes := by
  induction bytes using encode.induct with
  | case1 => rfl
  | case2 =>
    rw [encode, decode, if_neg nofun, if_neg nofun, if_pos rfl, decodeOne_char]
  | case3 a b =>
    rw [encode, decode, if_neg nofun, if_neg nofun, if_neg (char_ne_pad (by omega)), decodeTwo_char]
  | case4 a b c rest ih =>
    rw [encode, decode, if_pos (char_ne_pad (by omega)), decodeThree_char, ih]
    rfl

/-! ### Shape -/

theorem length_encode : (encode bytes).length = (bytes.length + 2) / 3 * 4 := by
  induction bytes using encode.induct with
  | case1 => rfl
  | case2 | case3 => simp [encode]
  | case4 a b c rest ih =>
    simp only [encode, List.length_cons, ih]
    omega

theorem encode_ascii : ∀ c ∈ encode bytes, c.toNat < 128 := by
  have hp : pad.toNat < 128 := by decide
  induction bytes using encode.induct with
  | case1 => simp [encode]
  | case2 | case3 => simp [encode, char_ascii, hp]
  | case4 a b c rest ih => simpa [encode, char_ascii] using ih

theorem length_of_decode {text bytes : List UInt8} (h : decode text = some bytes) :
    text.length % 4 = 0 := by
  induction text using decode.induct generalizing bytes with
  | case1 => rfl
  | case2 p q r s rest hs ih =>
    rw [decode, if_pos hs] at h
    simp only [Option.bind_eq_bind, Option.bind_eq_some_iff] at h
    obtain ⟨_, -, more, hm, -⟩ := h
    have := ih hm
    simp only [List.length_cons]
    omega
  | case3 p q r s rest hs hr => rw [decode, if_neg hs, if_pos hr] at h; cases h
  | case4 _ _ _ _ _ hr | case5 _ _ _ _ _ _ hr =>
    rw [not_not] at hr
    simp [hr]
  | case6 => simp_all [decode]

/-! ### Codecs -/

/-- An encoding of bytes as ASCII text in groups of four characters. -/
structure Codec where
  encode : List UInt8 → List UInt8
  decode : List UInt8 → Option (List UInt8)
  decode_encode : ∀ bytes, decode (encode bytes) = some bytes
  length_encode : ∀ bytes, (encode bytes).length = (bytes.length + 2) / 3 * 4
  encode_ascii : ∀ bytes, ∀ c ∈ encode bytes, c.toNat < 128
  length_of_decode : ∀ text bytes, decode text = some bytes → text.length % 4 = 0

def standard : Codec where
  encode := encode
  decode := decode
  decode_encode := decode_encode
  length_encode := length_encode
  encode_ascii := encode_ascii
  length_of_decode := fun _ _ => length_of_decode

end Base64
