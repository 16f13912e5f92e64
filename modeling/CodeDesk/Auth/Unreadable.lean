/-
# Stored passwords that cannot be read

A stored password can be unreadable: encrypted on another machine, damaged, or
without its salt (`Unreadable`). `unreadable_refused_iff` says when nobody can
log in with it: unless it is storage of the current version that does not
decrypt, which is taken for a password from before there was encryption, so
that whoever has read the configuration file can log in.
-/
import CodeDesk.Auth.Lifecycle
import CodeDesk.Conn.Step

namespace CodeDesk.Auth.Installation

/-- Storage that was produced by encryption and that this machine cannot
decrypt, or cannot decode as a hash with its salt. -/
inductive Unreadable (v : Installation) (pk : Option Bytes) (storage salt : Text) : Prop
  | legacy (payload : Bytes) (mac : 16 ≤ payload.length)
      (eq : storage = passwordEncVersion ++ v.base64.encode payload)
      (locked : v.symmetricDecrypt pk payload = none)
  | current (payload : Bytes) (mac : 16 ≤ payload.length)
      (eq : storage = permanentPasswordEncVersion ++ v.base64.encode payload)
      (broken : v.decodePermanentPasswordH1FromStorage pk storage = none ∨ salt = [])

/-- Storage of the current version that does not decrypt. -/
def Undecryptable (v : Installation) (pk : Option Bytes) (storage : Text) : Prop :=
  permanentPasswordEncVersion <+: storage ∧
    (v.decryptPermanentPasswordStrOrOriginal pk storage).2.1 = false

/-- Whatever a peer answers, `validate_password` accepts the temporary
password only. -/
def OnlyTemporary (v : Installation) (pk : Option Bytes) (w : State) : Prop :=
  ∀ (hash : Hash) (h : Conn.Host) (login : Conn.Env) (c : Conn.Connection),
    login.acceptsPermanent = v.acceptsPermanent pk hash w →
    (c.validatePassword h login).2 = true →
    login.temporaryEnabled = true ∧ c.validatePasswordPlain h login.temporaryPassword = true

variable {v : Installation} {pk : Option Bytes} {storage salt : Text} {w : State}

theorem onlyTemporary_of_refuses (hr : ∀ hash lr, v.acceptsPermanent pk hash w lr = false) :
    OnlyTemporary v pk w := by
  intro hash h login c ha ht
  rw [Conn.Connection.validatePassword, ha, hr, Bool.and_false] at ht
  by_cases htmp : (login.temporaryEnabled && c.validatePasswordPlain h login.temporaryPassword) = true
  · simpa using htmp
  · rw [if_neg htmp, if_neg (by decide)] at ht
    cases ht

/-! ### What is refused -/

variable {payload : Bytes} {c : Config}

theorem isEncrypted_encode (m : Machine) (hp : 16 ≤ payload.length) :
    m.isEncrypted (passwordEncVersion ++ m.base64.encode payload) = true := by
  have hver : (text "00").length = 2 := by decide
  have hlen := m.base64.length_encode payload
  rw [Machine.isEncrypted, passwordEncVersion, if_neg, List.drop_left' hver, m.base64.decode_encode]
  · simpa using hp
  · rw [not_or, not_not, List.length_append, hver]
    exact ⟨by omega, List.prefix_append _ _⟩

theorem decryptStrOrOriginal_locked (m : Machine) (hp : 16 ≤ payload.length)
    (hl : m.symmetricDecrypt pk payload = none) :
    m.decryptStrOrOriginal pk (passwordEncVersion ++ m.base64.encode payload) passwordEncVersion =
      (passwordEncVersion ++ m.base64.encode payload, false, false) := by
  have hver : passwordEncVersion.length = 2 := by decide
  have hd : m.decrypt pk ((passwordEncVersion ++ m.base64.encode payload).drop 2) = none := by
    rw [List.drop_left' hver]
    unfold Machine.decrypt
    split
    · rw [m.base64.decode_encode, Option.bind_some, hl]
    · rfl
  rw [Machine.decryptStrOrOriginal, isEncrypted_encode m hp, hd]
  split <;> simp

theorem unusable_legacy (hp : 16 ≤ payload.length) (hl : v.symmetricDecrypt pk payload = none) :
    v.localPermanentPasswordStorageIsUsableForAuth pk (passwordEncVersion ++ v.base64.encode payload)
      salt = false := by
  have hleg : passwordEncVersion <+: passwordEncVersion ++ v.base64.encode payload :=
    List.prefix_append _ _
  have hcur : ¬ permanentPasswordEncVersion <+: passwordEncVersion ++ v.base64.encode payload :=
    fun h => Machine.not_legacy_of_current h hleg
  unfold Machine.localPermanentPasswordStorageIsUsableForAuth
  rw [decryptStrOrOriginal_locked _ hp hl, Machine.decodePermanentPasswordH1FromStorage,
    if_neg hcur]
  rfl

theorem unusable_current (hc : permanentPasswordEncVersion <+: storage)
    (hb : v.decodePermanentPasswordH1FromStorage pk storage = none ∨ salt = [])
    (hu : ¬ Undecryptable v pk storage) :
    v.localPermanentPasswordStorageIsUsableForAuth pk storage salt = false := by
  have hdec : (v.decryptPermanentPasswordStrOrOriginal pk storage).2.1 = true := by
    by_contra hne
    exact hu ⟨hc, by simpa using hne⟩
  rw [Machine.localPermanentPasswordStorageIsUsableForAuth, if_neg (Machine.ne_nil_of_current hc)]
  rcases hb with hb | hb
  · rw [hb, if_neg (by decide), if_pos ⟨hc, hdec⟩]
  · rw [hb]
    split
    · rfl
    · rw [if_pos ⟨hc, hdec⟩]

theorem ne_nil_of_unreadable (h : Unreadable v pk storage salt) : storage ≠ [] := by
  intro he
  cases h with
  | legacy _ _ eq | current _ _ eq =>
    rw [he] at eq
    cases (List.append_eq_nil_iff.1 eq.symm).1

theorem refuses_of_unreadable (h : Unreadable v pk w.config.password w.config.salt)
    (hu : ¬ Undecryptable v pk w.config.password) (hash : Hash) (lr : Bytes) :
    v.acceptsPermanent pk hash w lr = false := by
  have huse : v.localPermanentPasswordStorageIsUsableForAuth pk w.config.password w.config.salt =
      false := by
    cases h with
    | legacy payload mac eq locked =>
      rw [eq]
      exact unusable_legacy mac locked
    | current payload mac eq broken =>
      exact unusable_current (eq ▸ List.prefix_append _ _) broken hu
  rw [acceptsPermanent, if_pos (ne_nil_of_unreadable h), huse, Bool.false_and]

/-! ### What is accepted -/

theorem accepts_undecryptable (hu : Undecryptable v pk w.config.password) (hash : Hash) :
    v.acceptsPermanent pk hash w (v.answer hash w.config.password) = true := by
  obtain ⟨hc, hd⟩ := hu
  have hne := Machine.ne_nil_of_current hc
  have hnone : v.decodePermanentPasswordH1FromStorage pk w.config.password = none := by
    rw [Machine.decodePermanentPasswordH1FromStorage, if_pos hc]
    rcases hdec : v.decryptPermanentPasswordStrOrOriginal pk w.config.password with ⟨s, b, again⟩
    rw [hdec] at hd
    cases hd
    rfl
  have huse : v.localPermanentPasswordStorageIsUsableForAuth pk w.config.password w.config.salt =
      true := by
    unfold Machine.localPermanentPasswordStorageIsUsableForAuth
    rw [if_neg hne, hnone, if_neg (by decide), if_neg (by simp [hd])]
    simp [Machine.not_legacy_of_current hc]
  unfold acceptsPermanent validatePasswordStorage validatePasswordPlain
  rw [if_pos hne, huse, if_neg hne, hnone]
  simp [hne, verifyH1, answer]

theorem not_onlyTemporary (hu : Undecryptable v pk w.config.password) : ¬ OnlyTemporary v pk w := by
  intro ht
  -- the temporary password is off, and the peer answers with the stored text as the password
  have hash : Hash := ⟨[], []⟩
  let c : Conn.Connection := .start .desktop {} none false [] {}
  let lr : Conn.LoginRequest := { password := v.answer hash w.config.password }
  have hfalse := ht hash .desktop
    { temporaryEnabled := false, acceptsPermanent := v.acceptsPermanent pk hash w }
    { c with gate := { c.gate with lr := lr } } rfl
    (validatePassword_of_accepts rfl (accepts_undecryptable hu hash))
  exact Bool.false_ne_true hfalse.1

/-! ### Loading -/

theorem validate_legacy (hp : 16 ≤ payload.length)
    (hs : c.password = passwordEncVersion ++ v.base64.encode payload)
    (hl : v.symmetricDecrypt pk payload = none) :
    (v.validateOrDecryptPermanentPasswordStorage pk c).1 = c := by
  unfold validateOrDecryptPermanentPasswordStorage
  by_cases he : c.password = []
  · rw [if_pos he]
  · have hleg : passwordEncVersion <+: c.password := hs ▸ List.prefix_append _ _
    rw [if_neg he, if_pos hleg, hs, decryptStrOrOriginal_locked _ hp hl]
    rfl

theorem validate_current (hc : permanentPasswordEncVersion <+: c.password) :
    (v.validateOrDecryptPermanentPasswordStorage pk c).1 = c := by
  unfold validateOrDecryptPermanentPasswordStorage ensurePermanentPasswordHashSalt
  rw [if_neg (Machine.ne_nil_of_current hc), if_neg (Machine.not_legacy_of_current hc)]
  rcases v.decryptPermanentPasswordStrOrOriginal pk c.password with ⟨s, decrypted, again⟩
  cases decrypted with
  | false => rfl
  | true => by_cases hs : c.salt = [] <;> by_cases hd :
      (v.decodePermanentPasswordH1FromHashedStorage s).isSome = true <;> simp [hs, hd]

theorem load_unreadable (env : Env) (h : Unreadable v env.pk w.file.password w.file.salt) :
    (v.load env w).config.password = w.file.password ∧
      (v.load env w).config.salt = w.file.salt := by
  have hv : (v.validateOrDecryptPermanentPasswordStorage env.pk w.file).1 = w.file := by
    cases h with
    | legacy payload mac eq locked => exact validate_legacy mac eq locked
    | current payload mac eq => exact validate_current (eq ▸ List.prefix_append _ _)
  rw [load_config, hv]
  exact v.loadId_keeps env w.file

/-! ### Unreadable storage -/

/-- Nobody can log in with storage that cannot be read, in the configuration
or loaded from the file, if and only if it is not storage of the current
version that does not decrypt; then its text is the password. A preset hash
that cannot be read is always refused. -/
theorem unreadable_refused_iff (v : Installation) (pk : Option Bytes) :
    (∀ w : State, Unreadable v pk w.config.password w.config.salt →
      ((OnlyTemporary v pk w ↔ ¬ Undecryptable v pk w.config.password) ∧
        (Undecryptable v pk w.config.password → ∀ hash : Hash,
          v.acceptsPermanent pk hash w (v.answer hash w.config.password) = true))) ∧
    (∀ (w : State) (env : Env), env.pk = pk → Unreadable v pk w.file.password w.file.salt →
      (OnlyTemporary v pk (v.load env w) ↔ ¬ Undecryptable v pk w.file.password)) ∧
    ∀ w : State, w.config.password = [] → v.presetSalt ≠ [] →
      v.decodePresetPasswordH1FromStorage v.presetStorage = none → OnlyTemporary v pk w := by
  have hiff : ∀ w : State, Unreadable v pk w.config.password w.config.salt →
      (OnlyTemporary v pk w ↔ ¬ Undecryptable v pk w.config.password) := by
    intro w h
    constructor
    · intro ht hu
      exact not_onlyTemporary hu ht
    · intro hu
      exact onlyTemporary_of_refuses (refuses_of_unreadable h hu)
  refine ⟨fun w h => ⟨hiff w h, accepts_undecryptable⟩, ?_, ?_⟩
  · rintro w env rfl h
    obtain ⟨hp, hs⟩ := load_unreadable env h
    rw [← hp] at h ⊢
    rw [← hs] at h
    exact hiff _ h
  · intro w he hs hd
    apply onlyTemporary_of_refuses
    intro hash lr
    unfold acceptsPermanent Machine.presetPermanentPasswordStorageIsUsableForAuth
    rw [if_neg (not_not.2 he), if_neg hs, hd]
    split <;> rfl

/-- The payload of a password that was set on another machine. -/
def foreignPayload : Bytes :=
  (Machine.bench (text "another")).symmetricEncrypt (benchEnv 0).nonce
    (bench.encodePermanentPasswordStorageFromH1
      (bench.computePermanentPasswordH1 (text "secret") (text "salt")))

def foreignStorage : Text := permanentPasswordEncVersion ++ bench.base64.encode foreignPayload

/-- The configuration file of the other machine, copied to this one. -/
def copied : State := { config := { password := foreignStorage, salt := text "salt" } }

theorem unreadable_refused_legacy : OnlyTemporary bench none { config := {
      password := passwordEncVersion ++ bench.base64.encode foreignPayload
      salt := text "salt" } } :=
  ((bench.unreadable_refused_iff none).1 _
    (.legacy foreignPayload (by decide +kernel) rfl (by decide +kernel))).1.2 fun h =>
      absurd h.1 (by decide +kernel)

/-- The text in the copied file is a password on this machine. -/
theorem copied_storage_accepted : Unreadable bench none copied.config.password copied.config.salt ∧
      bench.acceptsPermanent none ⟨text "salt", text "abcdef"⟩ copied
        (bench.answer ⟨text "salt", text "abcdef"⟩ copied.config.password) = true ∧
      ¬ OnlyTemporary bench none copied :=
  ⟨.current foreignPayload (by decide +kernel) rfl (.inl (by decide +kernel)),
    by decide +kernel, not_onlyTemporary ⟨by decide +kernel, by decide +kernel⟩⟩

end CodeDesk.Auth.Installation
