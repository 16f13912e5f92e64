/-
# Secrets at rest

`libs/hbb_common/src/password_security.rs`: values are encrypted under a key
made from the machine's id, and written as a version and base64. Decryption
takes what it cannot decrypt as it is, which is how values from before there
was encryption are read.

A string of the source is the list of its UTF-8 bytes (`Text`). The hash, the
cipher and base64 are fields of `Machine`, with the laws used of them.
-/
import CodeDesk.Base64
import CodeDesk.Sealing

namespace CodeDesk.Auth

abbrev Bytes := List UInt8

/-- A string, by its UTF-8 bytes. -/
abbrev Text := List UInt8

def text (s : String) : Text := s.toUTF8.data.toList

structure Digest where
  bytes : Bytes
  length_bytes : bytes.length = 32
  deriving DecidableEq, Repr

structure Nonce where
  bytes : Bytes
  length_bytes : bytes.length = 24
  deriving DecidableEq, Repr

/-- The machine's id, as `get_uuid` gives it, and the libraries. -/
structure Machine where
  uuid : Bytes
  sha256 : Bytes → Digest
  /-- XSalsa20-Poly1305. -/
  box : Sealing.Box
  key : Bytes → box.Key
  base64 : Base64.Codec

/-! ### UTF-8 -/

def isContinuation (b : UInt8) : Bool := 0x80 ≤ b && b ≤ 0xBF

theorem version_ascii : ∀ c ∈ text "00", c.toNat < 128 := by
  have hv : text "00" = [48, 48] := by decide
  rw [hv]
  simp

def charCount (s : Text) : ℕ := s.countP fun b => !isContinuation b

/-- The length of a sequence, by its first byte; 0 if none starts with it. -/
def sequenceWidth (a : UInt8) : ℕ :=
  if a < 0x80 then 1
  else if 0xC2 ≤ a ∧ a ≤ 0xDF then 2
  else if 0xE0 ≤ a ∧ a ≤ 0xEF then 3
  else if 0xF0 ≤ a ∧ a ≤ 0xF4 then 4
  else 0

/-- A sequence that starts with `a` may go on with `b`. -/
def secondByte (a b : UInt8) : Bool :=
  if a = 0xE0 then 0xA0 ≤ b && b ≤ 0xBF
  else if a = 0xED then 0x80 ≤ b && b ≤ 0x9F
  else if a = 0xF0 then 0x90 ≤ b && b ≤ 0xBF
  else if a = 0xF4 then 0x80 ≤ b && b ≤ 0x8F
  else isContinuation b

def replacement : Text := [0xEF, 0xBF, 0xBD]

/-- `String::from_utf8_lossy`: a sequence that breaks off is replaced as far
as it went. -/
def fromUtf8Lossy : Bytes → Text
  | [] => []
  | a :: s =>
    if sequenceWidth a = 1 then a :: fromUtf8Lossy s
    else if sequenceWidth a = 0 then replacement ++ fromUtf8Lossy s
    else
      match s with
      | [] => replacement
      | b :: s₁ =>
        if !secondByte a b then replacement ++ fromUtf8Lossy (b :: s₁)
        else if sequenceWidth a = 2 then a :: b :: fromUtf8Lossy s₁
        else
          match s₁ with
          | [] => replacement
          | c :: s₂ =>
            if !isContinuation c then replacement ++ fromUtf8Lossy (c :: s₂)
            else if sequenceWidth a = 3 then a :: b :: c :: fromUtf8Lossy s₂
            else
              match s₂ with
              | [] => replacement
              | d :: s₃ =>
                if !isContinuation d then replacement ++ fromUtf8Lossy (d :: s₃)
                else a :: b :: c :: d :: fromUtf8Lossy s₃

theorem fromUtf8Lossy_ascii {b : Bytes} (h : ∀ c ∈ b, c.toNat < 128) : fromUtf8Lossy b = b := by
  induction b with
  | nil => rfl
  | cons a s ih =>
    have ha : sequenceWidth a = 1 := by
      rw [sequenceWidth, if_pos]
      exact h a List.mem_cons_self
    rw [fromUtf8Lossy.eq_def]
    dsimp only
    rw [if_pos ha, ih fun c hc => h c (List.mem_cons_of_mem a hc)]

/-! ### Strings are read as they are -/

theorem toNat_ofNat_lt {n : ℕ} (h : n < 256) : (UInt8.ofNat n).toNat = n := by
  rw [UInt8.toNat_ofNat']
  exact Nat.mod_eq_of_lt h

theorem between_ofNat {n : ℕ} (h : n < 256) {l u : UInt8} (hl : l.toNat ≤ n) (hu : n ≤ u.toNat) :
    (l ≤ UInt8.ofNat n && UInt8.ofNat n ≤ u) = true := by
  simp [UInt8.le_iff_toNat_le, toNat_ofNat_lt h, hl, hu]

theorem isContinuation_ofNat {n : ℕ} (hl : 128 ≤ n) (hu : n ≤ 191) :
    isContinuation (UInt8.ofNat n) = true := between_ofNat (by omega) hl hu

theorem sequenceWidth_ofNat {n : ℕ} (h : n < 256) : sequenceWidth (UInt8.ofNat n) =
    if n < 128 then 1 else if 194 ≤ n ∧ n ≤ 223 then 2 else if 224 ≤ n ∧ n ≤ 239 then 3
    else if 240 ≤ n ∧ n ≤ 244 then 4 else 0 := by
  simp only [sequenceWidth, UInt8.le_iff_toNat_le, UInt8.lt_iff_toNat_lt, toNat_ofNat_lt h]
  rfl

theorem secondByte_ofNat {m n : ℕ} (hm : m < 256) (hl : 128 ≤ n) (hu : n ≤ 191)
    (h0 : m = 224 → 160 ≤ n) (hd : m = 237 → n ≤ 159) (hf : m = 240 → 144 ≤ n)
    (h4 : m = 244 → n ≤ 143) : secondByte (UInt8.ofNat m) (UInt8.ofNat n) = true := by
  have hn : n < 256 := by omega
  have heq : ∀ k < 256, UInt8.ofNat m = UInt8.ofNat k ↔ m = k := fun k hk => by
    rw [← UInt8.toNat_inj, toNat_ofNat_lt hm, toNat_ofNat_lt hk]
  unfold secondByte
  split_ifs with h h h h
  · exact between_ofNat hn (h0 ((heq 224 (by omega)).1 h)) hu
  · exact between_ofNat hn hl (hd ((heq 237 (by omega)).1 h))
  · exact between_ofNat hn (hf ((heq 240 (by omega)).1 h)) hu
  · exact between_ofNat hn hl (h4 ((heq 244 (by omega)).1 h))
  · exact isContinuation_ofNat hl hu

section

variable {a b c d : UInt8} {s : Bytes}

theorem fromUtf8Lossy_one (hw : sequenceWidth a = 1) :
    fromUtf8Lossy (a :: s) = a :: fromUtf8Lossy s := by
  rw [fromUtf8Lossy.eq_def]
  simp [hw]

theorem fromUtf8Lossy_two (hw : sequenceWidth a = 2) (hb : secondByte a b = true) :
    fromUtf8Lossy (a :: b :: s) = a :: b :: fromUtf8Lossy s := by
  rw [fromUtf8Lossy.eq_def]
  simp [hw, hb]

theorem fromUtf8Lossy_three (hw : sequenceWidth a = 3) (hb : secondByte a b = true)
    (hc : isContinuation c = true) :
    fromUtf8Lossy (a :: b :: c :: s) = a :: b :: c :: fromUtf8Lossy s := by
  rw [fromUtf8Lossy.eq_def]
  simp [hw, hb, hc]

theorem fromUtf8Lossy_four (hw : sequenceWidth a = 4) (hb : secondByte a b = true)
    (hc : isContinuation c = true) (hd : isContinuation d = true) :
    fromUtf8Lossy (a :: b :: c :: d :: s) = a :: b :: c :: d :: fromUtf8Lossy s := by
  rw [fromUtf8Lossy.eq_def]
  simp [hw, hb, hc, hd]

end

theorem fromUtf8Lossy_char (c : Char) (rest : Bytes) :
    fromUtf8Lossy (String.utf8EncodeChar c ++ rest) =
      String.utf8EncodeChar c ++ fromUtf8Lossy rest := by
  have hv : c.val.toNat < 0xD800 ∨ 0xDFFF < c.val.toNat ∧ c.val.toNat < 0x110000 := c.valid
  unfold String.utf8EncodeChar
  generalize c.val.toNat = v at hv
  dsimp only
  have hcont : ∀ n, isContinuation (UInt8.ofNat (n % 64 + 128)) = true := fun n =>
    isContinuation_ofNat (by omega) (by omega)
  -- One case for each length; the surrogates are what the second byte after `0xED` excludes.
  split
  · refine fromUtf8Lossy_one ?_
    rw [sequenceWidth_ofNat (by omega), if_pos (by omega)]
  split
  · refine fromUtf8Lossy_two ?_ (secondByte_ofNat ?_ ?_ ?_ ?_ ?_ ?_ ?_)
    · rw [sequenceWidth_ofNat (by omega), if_neg (by omega), if_pos (by omega)]
    all_goals omega
  split
  · refine fromUtf8Lossy_three ?_ (secondByte_ofNat ?_ ?_ ?_ ?_ ?_ ?_ ?_) (hcont _)
    · rw [sequenceWidth_ofNat (by omega), if_neg (by omega), if_neg (by omega), if_pos (by omega)]
    all_goals omega
  · refine fromUtf8Lossy_four ?_ (secondByte_ofNat ?_ ?_ ?_ ?_ ?_ ?_ ?_) (hcont _) (hcont _)
    · rw [sequenceWidth_ofNat (by omega), if_neg (by omega), if_neg (by omega), if_neg (by omega),
        if_pos (by omega)]
    all_goals omega

theorem fromUtf8Lossy_text (s : String) : fromUtf8Lossy (text s) = text s := by
  have htext : text s = s.toList.flatMap String.utf8EncodeChar := by
    rw [text, String.toUTF8, ← String.utf8Encode_toList, List.utf8Encode, List.data_toByteArray]
  rw [htext]
  induction s.toList with
  | nil => rfl
  | cons c cs ih => rw [List.flatMap_cons, fromUtf8Lossy_char, ih]

namespace Machine

variable (m : Machine)

/-! ### The cipher -/

def keybuf (b : Bytes) : Bytes := (b ++ List.replicate 32 0).take 32

def formatV1 : UInt8 := 1

/-- `secretbox::open` under the nonce in the payload, then under the nonce of
zeros that was used before there was a format. -/
def openSecretboxPayload (data : Bytes) (key : m.box.Key) : Option Bytes :=
  let legacy := m.box.openBox key (List.replicate 24 0) data
  if data.head? = some formatV1 ∧ 1 + 24 + 16 ≤ data.length then
    match m.box.openBox key ((data.drop 1).take 24) (data.drop (1 + 24)) with
    | some v => some v
    | none => legacy
  else legacy

def symmetricEncrypt (nonce : Nonce) (data : Bytes) : Bytes :=
  formatV1 :: (nonce.bytes ++ m.box.sealBox (m.key (keybuf m.uuid)) nonce.bytes data)

/-- `symmetric_crypt(data, false)`. `pk` is the public key of the existing key
pair, if there is one and the platform is not a mobile one. -/
def symmetricDecrypt (pk : Option Bytes) (data : Bytes) : Option Bytes :=
  match m.openSecretboxPayload data (m.key (keybuf m.uuid)) with
  | some v => some v
  | none =>
    match pk with
    | some pk => if pk ≠ m.uuid then m.openSecretboxPayload data (m.key (keybuf pk)) else none
    | none => none

/-! ### Encrypted values -/

def isEncrypted (v : Bytes) : Bool :=
  if v.length ≤ 2 ∨ ¬ text "00" <+: v then false
  else
    match m.base64.decode (v.drop 2) with
    | some decoded => 16 ≤ decoded.length
    | none => false

def encrypt (nonce : Nonce) (v : Bytes) : Option Text :=
  if v ≠ [] then some (m.base64.encode (m.symmetricEncrypt nonce v)) else none

def decrypt (pk : Option Bytes) (v : Bytes) : Option Bytes :=
  if v ≠ [] then (m.base64.decode v).bind (m.symmetricDecrypt pk) else none

def encryptStrOrOriginal (nonce : Nonce) (s version : Text) (maxLen : ℕ) : Text :=
  if m.isEncrypted s then s
  else if maxLen < charCount s then []
  else if version = text "00" then
    match m.encrypt nonce s with
    | some e => version ++ e
    | none => s
  else s

/-- The value, whether it was decrypted, and whether it should be stored
again. -/
def decryptStrOrOriginal (pk : Option Bytes) (s currentVersion : Text) : Text × Bool × Bool :=
  let original := (s, false, s ≠ [] && !m.isEncrypted s)
  if 2 < s.length ∧ text "00" <+: s then
    match m.decrypt pk (s.drop 2) with
    | some v => (fromUtf8Lossy v, true, text "00" ≠ currentVersion)
    | none => original
  else original

def encryptVecOrOriginal (nonce : Nonce) (v : Bytes) (version : Text) (maxLen : ℕ) : Bytes :=
  if m.isEncrypted v then v
  else if maxLen < v.length then []
  else if version = text "00" then
    match m.encrypt nonce v with
    | some e => version ++ e
    | none => v
  else v

def decryptVecOrOriginal (pk : Option Bytes) (v : Bytes) (currentVersion : Text) :
    Bytes × Bool × Bool :=
  let original := (v, false, v ≠ [] && !m.isEncrypted v)
  if 2 < v.length ∧ fromUtf8Lossy (v.take 2) = text "00" then
    match m.decrypt pk (v.drop 2) with
    | some d => (d, true, fromUtf8Lossy (v.take 2) ≠ currentVersion)
    | none => original
  else original

/-! ### What was encrypted on this machine -/

variable (pk : Option Bytes) (nonce : Nonce)

variable (data : Bytes)

theorem symmetricDecrypt_encrypt :
    m.symmetricDecrypt pk (m.symmetricEncrypt nonce data) = some data := by
  have hlen : 1 + 24 + 16 ≤ (m.symmetricEncrypt nonce data).length := by
    simp only [symmetricEncrypt, List.length_cons, List.length_append, nonce.length_bytes,
      m.box.length_seal]
    omega
  have hnonce : ((m.symmetricEncrypt nonce data).drop 1).take 24 = nonce.bytes := by
    rw [symmetricEncrypt, List.drop_succ_cons, List.drop_zero, List.take_left' nonce.length_bytes]
  have hbox : (m.symmetricEncrypt nonce data).drop (1 + 24) =
      m.box.sealBox (m.key (keybuf m.uuid)) nonce.bytes data := by
    rw [symmetricEncrypt, Nat.add_comm, List.drop_succ_cons, List.drop_left' nonce.length_bytes]
  have hopen : m.openSecretboxPayload (m.symmetricEncrypt nonce data) (m.key (keybuf m.uuid)) =
      some data := by
    rw [openSecretboxPayload, if_pos ⟨rfl, hlen⟩, hnonce, hbox, m.box.open_seal]
  unfold symmetricDecrypt
  rw [hopen]

theorem symmetricEncrypt_ne_nil : m.symmetricEncrypt nonce data ≠ [] := List.cons_ne_nil _ _

theorem encode_symmetricEncrypt_ne_nil : m.base64.encode (m.symmetricEncrypt nonce data) ≠ [] := by
  intro he
  have hl := m.base64.length_encode (m.symmetricEncrypt nonce data)
  rw [he] at hl
  simp only [symmetricEncrypt, List.length_cons, List.length_nil] at hl
  omega

theorem decryptVecOrOriginal_encode {payload : Bytes} (hp : payload ≠ []) :
    (∀ data, m.symmetricDecrypt pk payload = some data →
      m.decryptVecOrOriginal pk (text "00" ++ m.base64.encode payload) (text "00") =
        (data, true, false)) ∧
      (m.symmetricDecrypt pk payload = none →
        (m.decryptVecOrOriginal pk (text "00" ++ m.base64.encode payload) (text "00")).2.1 =
          false) := by
  have hver : (text "00").length = 2 := by decide
  have hlossy : fromUtf8Lossy (text "00") = text "00" := fromUtf8Lossy_ascii version_ascii
  have hpos := List.length_pos_iff.2 hp
  have hlen := m.base64.length_encode payload
  have hne : m.base64.encode payload ≠ [] := by
    intro he
    rw [he, List.length_nil] at hlen
    omega
  have hlong : 2 < (text "00" ++ m.base64.encode payload).length := by
    rw [List.length_append, hver, hlen]
    omega
  unfold decryptVecOrOriginal
  rw [List.take_left' hver, List.drop_left' hver, hlossy, if_pos ⟨hlong, rfl⟩, decrypt, if_pos hne,
    m.base64.decode_encode, Option.bind_some]
  refine ⟨fun data hd => ?_, fun hd => ?_⟩
  · rw [hd]
    simp
  · rw [hd]

def bench (uuid : Bytes) : Machine where
  uuid := uuid
  sha256 := fun b => ⟨(b ++ List.replicate 32 0).take 32, by simp⟩
  box := Sealing.Box.keyed
  key := id
  base64 := Base64.standard

end Machine
end CodeDesk.Auth
