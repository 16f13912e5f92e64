/-
# How the permanent password is stored

`libs/hbb_common/src/config/permanent_password.rs`. The stored text of a local
password is `01` and the encryption of `00` and the hash in base64; before
that it was `00` and the encryption of the password, and before that the
password. A preset password is `00` and the hash, or the password.
-/
import CodeDesk.Auth.Crypt

namespace CodeDesk.Auth

def passwordEncVersion : Text := text "00"
def permanentPasswordEncVersion : Text := text "01"
def permanentPasswordHashPrefix : Text := text "00"
def hbbsPresetPasswordHashPrefix : Text := text "00"
def encryptMaxLen : ℕ := 128

namespace Machine

variable (m : Machine) (pk : Option Bytes)

def encodePermanentPasswordStorageFromH1 (h1 : Digest) : Text :=
  permanentPasswordHashPrefix ++ m.base64.encode h1.bytes

def decodePasswordH1AfterPrefix (storage pre : Text) : Option Digest :=
  if pre <+: storage then
    match m.base64.decode (storage.drop pre.length) with
    | some v => if h : v.length = 32 then some ⟨v, h⟩ else none
    | none => none
  else none

def decodePermanentPasswordH1FromHashedStorage (storage : Text) : Option Digest :=
  m.decodePasswordH1AfterPrefix storage permanentPasswordHashPrefix

def decodePresetPasswordH1FromStorage (storage : Text) : Option Digest :=
  m.decodePasswordH1AfterPrefix storage hbbsPresetPasswordHashPrefix

def computePermanentPasswordH1 (password salt : Text) : Digest := m.sha256 (password ++ salt)

def encryptPermanentPasswordStorage (nonce : Nonce) (storage : Text) : Option Text :=
  if encryptMaxLen < charCount storage then none
  else some (permanentPasswordEncVersion ++ m.base64.encode (m.symmetricEncrypt nonce storage))

def encodePermanentPasswordEncryptedStorageFromH1 (nonce : Nonce) (h1 : Digest) : Option Text :=
  m.encryptPermanentPasswordStorage nonce (m.encodePermanentPasswordStorageFromH1 h1)

/-- The value, whether it was decrypted, and whether it should be stored
again. -/
def decryptPermanentPasswordStrOrOriginal (storage : Text) : Text × Bool × Bool :=
  let original := (storage, false, decide (storage ≠ []))
  if 2 < storage.length ∧ permanentPasswordEncVersion <+: storage then
    match m.base64.decode (storage.drop 2) with
    | some decoded =>
      match m.symmetricDecrypt pk decoded with
      | some v => (fromUtf8Lossy v, true, false)
      | none => original
    | none => original
  else original

def decodePermanentPasswordH1FromStorage (storage : Text) : Option Digest :=
  if permanentPasswordEncVersion <+: storage then
    match m.decryptPermanentPasswordStrOrOriginal pk storage with
    | (hashedStorage, true, _) => m.decodePermanentPasswordH1FromHashedStorage hashedStorage
    | (_, false, _) => none
  else none

def localPermanentPasswordStorageIsUsableForAuth (storage salt : Text) : Bool :=
  if storage = [] then false
  else if (m.decodePermanentPasswordH1FromStorage pk storage).isSome then salt ≠ []
  else if permanentPasswordEncVersion <+: storage ∧
      (m.decryptPermanentPasswordStrOrOriginal pk storage).2.1 then false
  else
    match m.decryptStrOrOriginal pk storage passwordEncVersion with
    | (_, decrypted, looksLikePlaintext) =>
      if passwordEncVersion <+: storage ∧ !decrypted ∧ !looksLikePlaintext then false else true

def presetPermanentPasswordStorageMatchesPlain (storage salt input : Text) : Bool :=
  if storage = [] ∨ input = [] then false
  else if salt = [] then storage = input
  else
    match m.decodePresetPasswordH1FromStorage storage with
    | some storedH1 => m.computePermanentPasswordH1 input salt = storedH1
    | none => false

/-- The salt may be replaced. Storage of the current version is bound to it. -/
def passwordIsEmptyOrNotHashed (storage : Text) : Bool :=
  if storage = [] then true
  else if (m.decodePermanentPasswordH1FromStorage pk storage).isSome then false
  else if permanentPasswordEncVersion <+: storage then false
  else
    match m.decryptStrOrOriginal pk storage passwordEncVersion with
    | (_, decrypted, looksLikePlaintext) => decrypted || looksLikePlaintext

def presetPermanentPasswordStorageIsUsableForAuth (storage salt : Text) : Bool :=
  if storage = [] then false
  else if salt = [] then true
  else (m.decodePresetPasswordH1FromStorage storage).isSome

/-! ### Hashes -/

theorem decodePasswordH1AfterPrefix_encode (pre : Text) (h1 : Digest) :
    m.decodePasswordH1AfterPrefix (pre ++ m.base64.encode h1.bytes) pre = some h1 := by
  unfold decodePasswordH1AfterPrefix
  rw [if_pos (List.prefix_append _ _), List.drop_left, m.base64.decode_encode]
  dsimp only
  rw [dif_pos h1.length_bytes]

theorem encodePermanentPasswordStorageFromH1_ascii (h1 : Digest) :
    ∀ c ∈ m.encodePermanentPasswordStorageFromH1 h1, c.toNat < 128 :=
  List.forall_mem_append.2 ⟨version_ascii, m.base64.encode_ascii _⟩

theorem charCount_encodePermanentPasswordStorageFromH1 (h1 : Digest) :
    charCount (m.encodePermanentPasswordStorageFromH1 h1) ≤ encryptMaxLen := by
  have hp : permanentPasswordHashPrefix.length = 2 := by decide
  calc charCount (m.encodePermanentPasswordStorageFromH1 h1)
      ≤ (m.encodePermanentPasswordStorageFromH1 h1).length := List.countP_le_length
    _ = 2 + (32 + 2) / 3 * 4 := by
        rw [encodePermanentPasswordStorageFromH1, List.length_append, hp, m.base64.length_encode,
          h1.length_bytes]
    _ ≤ encryptMaxLen := by decide

/-! ### Encrypted hashes -/

variable {m : Machine} {pk : Option Bytes} {storage salt : Text} {h1 : Digest}

theorem encryptedStorage_eq (m : Machine) (nonce : Nonce) (h1 : Digest) :
    m.encodePermanentPasswordEncryptedStorageFromH1 nonce h1 = some (permanentPasswordEncVersion ++
        m.base64.encode (m.symmetricEncrypt nonce (m.encodePermanentPasswordStorageFromH1 h1))) := by
  unfold encodePermanentPasswordEncryptedStorageFromH1 encryptPermanentPasswordStorage
  rw [if_neg (Nat.not_lt.2 (m.charCount_encodePermanentPasswordStorageFromH1 h1))]

theorem decryptPermanent_encrypt (m : Machine) (pk : Option Bytes) (nonce : Nonce) (data : Bytes) :
    m.decryptPermanentPasswordStrOrOriginal pk
      (permanentPasswordEncVersion ++ m.base64.encode (m.symmetricEncrypt nonce data)) =
        (fromUtf8Lossy data, true, false) := by
  have hne := m.encode_symmetricEncrypt_ne_nil nonce data
  have hver : permanentPasswordEncVersion.length = 2 := by decide
  have hlen : 2 < (permanentPasswordEncVersion ++
      m.base64.encode (m.symmetricEncrypt nonce data)).length := by
    rw [List.length_append, hver]
    have := List.length_pos_iff.2 hne
    omega
  unfold decryptPermanentPasswordStrOrOriginal
  rw [if_pos ⟨hlen, List.prefix_append _ _⟩, List.drop_left' hver, m.base64.decode_encode]
  dsimp only
  rw [symmetricDecrypt_encrypt]

theorem decode_of_encrypted {nonce : Nonce}
    (h : m.encodePermanentPasswordEncryptedStorageFromH1 nonce h1 = some storage) :
    m.decodePermanentPasswordH1FromStorage pk storage = some h1 := by
  rw [encryptedStorage_eq] at h
  cases h
  unfold decodePermanentPasswordH1FromStorage
  rw [if_pos (List.prefix_append _ _), decryptPermanent_encrypt]
  rw [fromUtf8Lossy_ascii (m.encodePermanentPasswordStorageFromH1_ascii h1)]
  exact m.decodePasswordH1AfterPrefix_encode _ h1

section

variable (h : permanentPasswordEncVersion <+: storage)

include h

theorem not_legacy_of_current : ¬ passwordEncVersion <+: storage := by
  intro hl
  have he := (List.prefix_of_prefix_length_le h hl (by decide)).eq_of_length (by decide)
  cases he

theorem ne_nil_of_current : storage ≠ [] := by
  rintro rfl
  cases List.prefix_nil.1 h

theorem hashed_of_current (m : Machine) (pk : Option Bytes) :
    m.passwordIsEmptyOrNotHashed pk storage = false := by
  rw [passwordIsEmptyOrNotHashed, if_neg (ne_nil_of_current h)]
  by_cases hd : (m.decodePermanentPasswordH1FromStorage pk storage).isSome = true
  · rw [if_pos hd]
  · rw [if_neg hd, if_pos h]

end

variable (h : m.decodePermanentPasswordH1FromStorage pk storage = some h1)

include h

theorem current_of_decode : permanentPasswordEncVersion <+: storage := by
  by_contra hc
  simp [decodePermanentPasswordH1FromStorage, if_neg hc] at h

theorem decrypted_of_decode :
    ∃ hashed again, m.decryptPermanentPasswordStrOrOriginal pk storage = (hashed, true, again) ∧
      m.decodePermanentPasswordH1FromHashedStorage hashed = some h1 := by
  have hc := current_of_decode h
  rw [decodePermanentPasswordH1FromStorage, if_pos hc] at h
  rcases hd : m.decryptPermanentPasswordStrOrOriginal pk storage with ⟨hashed, decrypted, again⟩
  rw [hd] at h
  cases decrypted with
  | false => cases h
  | true => exact ⟨hashed, again, rfl, h⟩

theorem usable_of_decode (hs : salt ≠ []) :
    m.localPermanentPasswordStorageIsUsableForAuth pk storage salt = true := by
  unfold localPermanentPasswordStorageIsUsableForAuth
  rw [if_neg (ne_nil_of_current (current_of_decode h)), h]
  simpa using hs

end Machine
end CodeDesk.Auth
