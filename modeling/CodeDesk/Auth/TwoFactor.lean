/-
# The second factor

`src/auth_2fa.rs`: the secret of the second factor is made by `generate2fa`,
kept until a code confirms it (`verify2fa`), then written as the option `2fa`,
from which every new connection reads it (`get_2fa`). JSON and one-time
passwords are the libraries' (`TotpLib`).

`second_factor_required_iff`: what was written is read back; an option that is
there but cannot be read, as after the machine's key has changed, is taken for
none.
-/
import CodeDesk.Auth.Crypt
import CodeDesk.Conn.Step
import CodeDesk.Run

namespace CodeDesk.Auth

/-- `Secret::generate_secret` makes 160 bits. -/
structure Secret where
  bytes : Bytes
  length_bytes : bytes.length = 20
  deriving DecidableEq, Repr

structure TotpInfo where
  name : Text := []
  secret : Bytes := []
  digits : ℕ := 0
  createdAt : ℤ := 0
  deriving DecidableEq, Repr

inductive Algorithm where
  | sha1
  deriving DecidableEq, Repr

structure Totp where
  algorithm : Algorithm
  digits : ℕ
  skew : ℕ
  step : ℕ
  secret : Bytes
  issuer : Option Text
  accountName : Text
  deriving DecidableEq, Repr

/-- `serde_json` for `TOTPInfo`, and `totp_rs`: `TOTP::new` checks the values
it is given and keeps them. -/
structure TotpLib where
  toJson : TotpInfo → Option Text
  fromJson : Text → Option TotpInfo
  from_to : ∀ i s, toJson i = some s → fromJson s = some i
  accepts : Totp → Bool
  getUrl : Totp → Text

def issuer : Text := text "RustDesk"
def tagLogin : Text := text "Connection"

namespace TotpLib

variable (lib : TotpLib) (m : Machine) (pk : Option Bytes)

/-! ### The information about a secret -/

def totpOf (info : TotpInfo) : Totp where
  algorithm := .sha1
  digits := info.digits
  skew := 1
  step := 30
  secret := info.secret
  issuer := some (issuer ++ text " " ++ tagLogin)
  accountName := info.name

def newTotp (info : TotpInfo) : Option Totp :=
  if lib.accepts (totpOf info) then some (totpOf info) else none

def genTotpInfo (secret : Secret) (now : ℤ) (name : Text) (digits : ℕ) : TotpInfo :=
  { secret := secret.bytes, name := name, digits := digits, createdAt := now }

def intoString (nonce : Nonce) (info : TotpInfo) : Option Text :=
  lib.toJson { info with secret := m.encryptVecOrOriginal nonce info.secret (text "00") 1024 }

def fromStr (data : Text) : Option Totp :=
  match lib.fromJson data with
  | some info =>
    match m.decryptVecOrOriginal pk info.secret (text "00") with
    | (secret, true, _) => lib.newTotp { info with secret := secret }
    | (_, false, _) => none
  | none => none

/-! ### Setting it up -/

structure TwoFactor where
  current : Option (TotpInfo × Totp) := none
  option : Text := []

def generate2fa (id : Text) (secret : Secret) (now : ℤ) (s : TwoFactor) : TwoFactor × Text :=
  match lib.newTotp (genTotpInfo secret now id 6) with
  | some totp => ({ s with current := some (genTotpInfo secret now id 6, totp) }, lib.getUrl totp)
  | none => (s, [])

/-- `check` is `check_current` at this time. -/
def verify2fa (nonce : Nonce) (check : Totp → Text → Option Bool) (code : Text) (s : TwoFactor) :
    TwoFactor × Bool :=
  match s.current with
  | some (info, totp) =>
    if check totp code = some true then
      match lib.intoString m nonce info with
      | some v => ({ s with option := v }, true)
      | none => (s, false)
    else (s, false)
  | none => (s, false)

/-- `raw` is the option, or the value asked about. -/
def get2fa (raw : Text) : Option Totp := lib.fromStr m pk raw

/-! ### What was generated -/

inductive Op where
  | generate2fa (id : Text) (secret : Secret) (now : ℤ)
  | verify2fa (nonce : Nonce) (check : Totp → Text → Option Bool) (code : Text)

def step (s : TwoFactor) : Op → TwoFactor
  | .generate2fa id secret now => (lib.generate2fa id secret now s).1
  | .verify2fa nonce check code => (lib.verify2fa m nonce check code s).1

def Generated (s : TwoFactor) : Prop :=
  ∀ info totp, s.current = some (info, totp) →
    info.secret.length = 20 ∧ info.digits = 6 ∧ lib.newTotp info = some totp

variable {lib m pk} {s : TwoFactor} {info : TotpInfo} {totp : Totp} {nonce : Nonce}

theorem generated_step (hg : Generated lib s) (op : Op) : Generated lib (step lib m s op) := by
  cases op with
  | generate2fa id secret now =>
    unfold step generate2fa
    dsimp only
    cases ht : lib.newTotp (genTotpInfo secret now id 6) with
    | none => exact hg
    | some =>
      intro info' totp' he
      cases he
      exact ⟨secret.length_bytes, rfl, ht⟩
  | verify2fa nonce check code =>
    have hc : (lib.verify2fa m nonce check code s).1.current = s.current := by
      unfold verify2fa
      split
      · split
        · split <;> rfl
        · rfl
      · rfl
    intro info totp he
    exact hg info totp (hc.symm.trans he)

theorem generated_run (ops : List Op) : Generated lib (Run.run (step lib m) {} ops) :=
  Run.inv_run (I := Generated lib) (fun _ op hg => generated_step hg op) (fun _ _ he => by cases he)
    ops

/-- A secret is too short to look encrypted: what follows the first two bytes
is not a whole number of groups. -/
theorem not_isEncrypted (m : Machine) {secret : Bytes} (hl : secret.length = 20) :
    m.isEncrypted secret = false := by
  unfold Machine.isEncrypted
  split
  · rfl
  cases hd : m.base64.decode (secret.drop 2) with
  | none => rfl
  | some =>
    have h4 := m.base64.length_of_decode _ _ hd
    simp [List.length_drop, hl] at h4

theorem encryptVecOrOriginal_secret (m : Machine) (nonce : Nonce) {secret : Bytes}
    (hl : secret.length = 20) :
    m.encryptVecOrOriginal nonce secret (text "00") 1024 =
      text "00" ++ m.base64.encode (m.symmetricEncrypt nonce secret) := by
  have hne : secret ≠ [] := by
    rintro rfl
    cases hl
  unfold Machine.encryptVecOrOriginal Machine.encrypt
  rw [not_isEncrypted m hl, if_neg (by decide), if_neg (by omega), if_pos rfl, if_pos hne]

theorem get2fa_intoString (hl : info.secret.length = 20) (ht : lib.newTotp info = some totp)
    {v : Text} (hv : lib.intoString m nonce info = some v) : lib.get2fa m pk v = some totp := by
  rw [intoString, encryptVecOrOriginal_secret m nonce hl] at hv
  rw [get2fa, fromStr, lib.from_to _ _ hv]
  dsimp only
  rw [(m.decryptVecOrOriginal_encode pk (m.symmetricEncrypt_ne_nil nonce info.secret)).1 _
    (m.symmetricDecrypt_encrypt pk nonce info.secret)]
  exact ht

theorem get2fa_elsewhere (hl : info.secret.length = 20) {v : Text}
    (hv : lib.intoString m nonce info = some v) (uuid : Bytes) (pk : Option Bytes) :
    (lib.get2fa { m with uuid := uuid } pk v).isSome = true ↔
      ∃ secret, ({ m with uuid := uuid } : Machine).symmetricDecrypt pk
          (m.symmetricEncrypt nonce info.secret) = some secret ∧
        (lib.newTotp { info with secret := secret }).isSome = true := by
  obtain ⟨hsome, hnone⟩ := ({ m with uuid := uuid } : Machine).decryptVecOrOriginal_encode pk
    (m.symmetricEncrypt_ne_nil nonce info.secret)
  rw [intoString, encryptVecOrOriginal_secret m nonce hl] at hv
  rw [get2fa, fromStr, lib.from_to _ _ hv]
  dsimp only at hsome hnone ⊢
  cases hd : ({ m with uuid := uuid } : Machine).symmetricDecrypt pk
      (m.symmetricEncrypt nonce info.secret) with
  | none =>
    have hf := hnone hd
    rcases hr : ({ m with uuid := uuid } : Machine).decryptVecOrOriginal pk
      (text "00" ++ m.base64.encode (m.symmetricEncrypt nonce info.secret)) (text "00") with
      ⟨secret, decrypted, again⟩
    rw [hr] at hf
    cases hf
    simp
  | some secret =>
    rw [hsome secret hd]
    simp

theorem verify2fa_true {check : Totp → Text → Option Bool} {code : Text}
    (h : (lib.verify2fa m nonce check code s).2 = true) :
    ∃ info totp, s.current = some (info, totp) ∧
      lib.intoString m nonce info = some (lib.verify2fa m nonce check code s).1.option := by
  unfold verify2fa at h ⊢
  cases hc : s.current with
  | none =>
    simp [hc] at h
  | some p =>
    obtain ⟨info, totp⟩ := p
    rw [hc] at h
    dsimp only at h ⊢
    by_cases hcheck : check totp code = some true
    · rw [if_pos hcheck] at h ⊢
      cases hi : lib.intoString m nonce info with
      | none =>
        simp [hi] at h
      | some => exact ⟨info, totp, rfl, hi⟩
    · simp [if_neg hcheck] at h

/-! ### New connections -/

/-- The value is JSON, its secret decrypts on this machine, and it makes a
one-time password. -/
def Readable (lib : TotpLib) (m : Machine) (pk : Option Bytes) (raw : Text) : Prop :=
  ∃ info secret again, lib.fromJson raw = some info ∧
    m.decryptVecOrOriginal pk info.secret (text "00") = (secret, true, again) ∧
    (lib.newTotp { info with secret := secret }).isSome = true

theorem get2fa_isSome_iff (lib : TotpLib) (m : Machine) (pk : Option Bytes) (raw : Text) :
    (lib.get2fa m pk raw).isSome = true ↔ Readable lib m pk raw := by
  unfold get2fa fromStr Readable
  cases hj : lib.fromJson raw with
  | none => simp
  | some info =>
    dsimp only
    rcases hd : m.decryptVecOrOriginal pk info.secret (text "00") with ⟨secret, decrypted, again⟩
    constructor
    · intro h
      cases decrypted with
      | false => cases h
      | true => exact ⟨info, secret, again, rfl, hd, h⟩
    · rintro ⟨info', secret', again', he, hd', h⟩
      cases he
      rw [hd] at hd'
      cases hd'
      exact h

/-- A new connection requires the second factor if and only if the option can
be read. What `verify2fa` has written is read as the password that was
generated, and on a machine with another id it is read if its secret decrypts
there. -/
theorem second_factor_required_iff (lib : TotpLib) (m : Machine) :
    (∀ (pk : Option Bytes) (raw : Text) (h : Conn.Host) (env : Conn.Env) (control : Option ℕ)
      (services : List Conn.Service) (tables : Conn.Tables),
      (Conn.Connection.start h env control (lib.get2fa m pk raw).isSome services
        tables).gate.require2fa = true ↔ Readable lib m pk raw) ∧
    ∀ (ops : List Op) (nonce : Nonce) (check : Totp → Text → Option Bool) (code : Text),
      (lib.verify2fa m nonce check code (Run.run (step lib m) {} ops)).2 = true →
      ∃ info totp, (Run.run (step lib m) {} ops).current = some (info, totp) ∧
        totp.secret = info.secret ∧ totp.digits = info.digits ∧
        (∀ pk, lib.get2fa m pk
          (lib.verify2fa m nonce check code (Run.run (step lib m) {} ops)).1.option = some totp) ∧
        ∀ uuid pk, (lib.get2fa { m with uuid := uuid } pk
            (lib.verify2fa m nonce check code (Run.run (step lib m) {} ops)).1.option).isSome = true ↔
          ∃ secret, ({ m with uuid := uuid } : Machine).symmetricDecrypt pk
              (m.symmetricEncrypt nonce info.secret) = some secret ∧
            (lib.newTotp { info with secret := secret }).isSome = true := by
  constructor
  · intro pk raw h env control services tables
    exact get2fa_isSome_iff lib m pk raw
  · intro ops nonce check code hv
    obtain ⟨info, totp, hc, hi⟩ := verify2fa_true hv
    obtain ⟨hl, -, ht⟩ := generated_run ops info totp hc
    have hfields : totp.secret = info.secret ∧ totp.digits = info.digits := by
      unfold newTotp at ht
      split_ifs at ht
      cases ht
      exact ⟨rfl, rfl⟩
    exact ⟨info, totp, hc, hfields.1, hfields.2, fun pk => get2fa_intoString hl ht hi,
      get2fa_elsewhere hl hi⟩

/-! ### A machine whose id changes -/

/-- The JSON of a name without quotes or control characters. -/
def jsonOf (i : TotpInfo) : Text :=
  text "\x7b\"name\":\"" ++ i.name ++ text "\",\"secret\":[" ++
    List.intercalate (text ",") (i.secret.map fun b => text (toString b.toNat)) ++
    text "],\"digits\":" ++ text (toString i.digits) ++
    text ",\"created_at\":" ++ text (toString i.createdAt) ++ text "\x7d"

def single (i : TotpInfo) : TotpLib where
  toJson := fun j => if j = i then some (jsonOf i) else none
  fromJson := fun s => if s = jsonOf i then some i else none
  from_to := by
    intro j s h
    by_cases hj : j = i
    · rw [if_pos hj] at h
      cases h
      rw [if_pos rfl, hj]
    · rw [if_neg hj] at h
      cases h
  accepts := fun t => 6 ≤ t.digits && t.digits ≤ 8 && 16 ≤ t.secret.length
  getUrl := fun t => text "otpauth://totp/" ++ t.accountName

def benchInfo : TotpInfo := genTotpInfo ⟨List.replicate 20 7, rfl⟩ 0 (text "123456789") 6

def benchNonce : Nonce := ⟨List.replicate 24 3, rfl⟩

def benchLib : TotpLib :=
  single { benchInfo with
    secret := (Machine.bench (text "machine")).encryptVecOrOriginal benchNonce benchInfo.secret
      (text "00") 1024 }

def benchCheck : Totp → Text → Option Bool := fun _ code => some (code = text "123456")

/-- The second factor is set up: a secret, and its code. -/
def benchVerified : TwoFactor × Bool :=
  benchLib.verify2fa (Machine.bench (text "machine")) benchNonce benchCheck (text "123456")
    (Run.run (step benchLib (Machine.bench (text "machine"))) {}
      [.generate2fa (text "123456789") ⟨List.replicate 20 7, rfl⟩ 0])

theorem second_factor_read_back :
    ∃ totp, ∀ pk, benchLib.get2fa (Machine.bench (text "machine")) pk benchVerified.1.option =
      some totp := by
  obtain ⟨-, totp, -, -, -, hread, -⟩ :=
    (second_factor_required_iff benchLib (Machine.bench (text "machine"))).2
      [.generate2fa (text "123456789") ⟨List.replicate 20 7, rfl⟩ 0] benchNonce benchCheck
      (text "123456") (by decide +kernel)
  exact ⟨totp, hread⟩

/-- The option is there, and on a machine with another id a new connection is
authorized by the password alone. -/
theorem second_factor_lost : benchVerified.2 = true ∧ benchVerified.1.option ≠ [] ∧
      (let c := Conn.Connection.start .desktop {} none
        (benchLib.get2fa (Machine.bench (text "another")) none benchVerified.1.option).isSome [] {}
      c.gate.require2fa = false ∧ (Run.run (Conn.Connection.step .desktop) c
          [({ temporaryPassword := "pw" }, .message (.loginRequest
            { username := "host", password := [112, 119] }))]).gate.authorized = true ∧
        (Run.run (Conn.Connection.step .desktop) c
          [({ temporaryPassword := "pw" }, .message (.loginRequest
            { username := "host", password := [112, 119] }))]).past.factors = [.password]) := by
  decide +kernel

end TotpLib
end CodeDesk.Auth
