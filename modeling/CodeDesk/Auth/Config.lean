/-
# The permanent password in the configuration

The functions of `libs/hbb_common/src/config.rs` that read and write the
permanent password and its salt, and the check of a login against them in
`src/server/connection.rs`. `State` is the configuration of the running
process and the configuration file; an operation takes the state and what it
gets from outside (`Env`), and returns the state with its answer.
-/
import CodeDesk.Auth.Storage
import CodeDesk.Conn.Login

namespace CodeDesk.Auth

/-! ### State -/

structure Config where
  id : Text := []
  encId : Text := []
  password : Text := []
  salt : Text := []
  keyPair : Bytes × Bytes := ([], [])
  keyConfirmed : Bool := false
  keysConfirmed : List (Text × Bool) := []
  deriving DecidableEq, Repr

structure State where
  config : Config := {}
  /-- What the file holds, or the default if it cannot be read. -/
  file : Config := {}
  trustedDevices : List Conn.TrustedDevice := []
  deriving DecidableEq, Repr

structure Env where
  /-- The public key of `get_existing_key_pair`. -/
  pk : Option Bytes := none
  /-- The nonces for the password and for the id. -/
  nonce : Nonce
  idNonce : Nonce
  /-- The draws of the random number generator. -/
  rng : ℕ → ℕ
  /-- The three tries of `gen_id`. -/
  genId : Fin 3 → Option Text := fun _ => none
  /-- The file could be written. -/
  written : Bool := true

/-- A machine with the settings the program was shipped with. -/
structure Installation extends Machine where
  /-- `HARD_SETTINGS`: the preset password and its salt. -/
  presetStorage : Text := []
  presetSalt : Text := []
  disableChangePermanentPassword : Bool := false

def chars : Text := text "23456789abcdefghijkmnpqrstuvwxyz"

def getAutoPassword (rng : ℕ → ℕ) (length : ℕ) : Text :=
  (List.range length).map fun i => chars.getD (rng i % chars.length) 0

def defaultSaltLen : ℕ := 32

namespace Installation

variable (v : Installation)

/-! ### Loading and storing -/

def ensurePermanentPasswordHashSalt (c : Config) : Except String Unit :=
  if c.salt = [] then .error "Permanent password hash storage requires a non-empty salt" else .ok ()

def validateOrDecryptPermanentPasswordStorage (pk : Option Bytes) (c : Config) :
    Config × Except String Unit :=
  if c.password = [] then (c, .ok ())
  else if passwordEncVersion <+: c.password then
    match v.decryptStrOrOriginal pk c.password passwordEncVersion with
    | (plain, true, _) => ({ c with password := plain }, .ok ())
    | (_, false, shouldStore) =>
      if !shouldStore then (c, .error "Invalid permanent password encrypted hash storage")
      else (c, .ok ())
  else
    match v.decryptPermanentPasswordStrOrOriginal pk c.password with
    | (decryptedStorage, true, _) =>
      match ensurePermanentPasswordHashSalt c with
      | .error e => (c, .error e)
      | .ok () =>
        if (v.decodePermanentPasswordH1FromHashedStorage decryptedStorage).isSome then (c, .ok ())
        else (c, .error "Invalid permanent password encrypted hash storage")
    | (_, false, _) => (c, .ok ())

def prepareConfigForStore (pk : Option Bytes) (c : Config) : Config :=
  match v.validateOrDecryptPermanentPasswordStorage pk c with
  | (c, .ok ()) => c
  | (c, .error _) => { c with password := [], salt := [] }

def keepEncryptedStorageIfPlaintextUnchanged (env : Env) (plain stored : Text) : Text :=
  match v.decryptStrOrOriginal env.pk stored passwordEncVersion with
  | (storedPlain, encrypted, _) =>
    if encrypted ∧ storedPlain = plain then stored
    else v.encryptStrOrOriginal env.nonce plain passwordEncVersion encryptMaxLen

def storedPassword (env : Env) (file c : Config) : Config :=
  if c.password ≠ [] ∧ v.decodePermanentPasswordH1FromStorage env.pk c.password = none then
    { c with
      password := v.keepEncryptedStorageIfPlaintextUnchanged env c.password file.password }
  else c

def storedId (env : Env) (c : Config) : Config :=
  match v.decryptStrOrOriginal env.pk c.encId passwordEncVersion with
  | (storedId, encrypted, _) =>
    if !encrypted ∨ storedId ≠ c.id then
      { c with
        id := []
        encId := v.encryptStrOrOriginal env.idNonce c.id passwordEncVersion encryptMaxLen }
    else { c with id := [] }

def store (env : Env) (w : State) : State :=
  if env.written then
    { w with
      file := v.storedId env (v.storedPassword env w.file
        (v.prepareConfigForStore env.pk w.config)) }
  else w

/-- The id of a loaded configuration, and whether it has to be stored. -/
def loadId (env : Env) (c : Config) : Config × Bool :=
  match v.decryptStrOrOriginal env.pk c.encId passwordEncVersion with
  | (id, true, store2) => ({ c with id := id }, store2)
  | (_, false, _) =>
    if c.id ≠ [] ∧ c.encId = [] ∧
        (v.decryptStrOrOriginal env.pk c.id passwordEncVersion).2.1 = false then (c, true)
    else
      match (env.genId 0).or ((env.genId 1).or (env.genId 2)) with
      | some id => ({ c with id := id }, true)
      | none => (c, false)

def load (env : Env) (w : State) : State :=
  match v.loadId env (v.validateOrDecryptPermanentPasswordStorage env.pk w.file).1 with
  | (c, store) => if store then v.store env { w with config := c } else { w with config := c }

/-! ### Setting the password -/

def ensurePermanentPasswordSalt (env : Env) (c : Config) : Config :=
  if c.salt = [] then { c with salt := getAutoPassword env.rng defaultSaltLen } else c

def computePermanentPasswordStorageForUpdate (env : Env) (password : Text) (c : Config) :
    Config × Option Text :=
  let c := ensurePermanentPasswordSalt env c
  (c, v.encodePermanentPasswordEncryptedStorageFromH1 env.nonce
    (v.computePermanentPasswordH1 password c.salt))

def setPermanentPassword (env : Env) (password : Text) (w : State) : State × Bool :=
  if v.disableChangePermanentPassword then (w, false)
  else if v.presetPermanentPasswordStorageMatchesPlain v.presetStorage v.presetSalt password ∧
      w.config.password = [] then (w, true)
  else
    match
      if password = [] then (w.config, some [])
      else v.computePermanentPasswordStorageForUpdate env password w.config with
    | (c, none) => ({ w with config := c }, false)
    | (c, some stored) =>
      if stored = c.password then ({ w with config := c }, true)
      else
        ({ v.store env { w with config := { c with password := stored } } with
            trustedDevices := [] }, true)

def applyPermanentPasswordStorageForSync (pk : Option Bytes) (storage salt : Text) (c : Config) :
    Config × Except String Bool :=
  if storage = [] then
    if c.password = [] ∧ (salt = [] ∨ c.salt = salt) then (c, .ok false)
    else ({ c with password := [], salt := if salt ≠ [] then salt else c.salt }, .ok true)
  else if salt = [] then
    (c, .error "Refusing to persist permanent password storage without salt")
  else if v.decodePermanentPasswordH1FromStorage pk storage = none then
    (c, .error "Invalid permanent password storage sync payload")
  else if c.password = storage ∧ c.salt = salt then (c, .ok false)
  else ({ c with password := storage, salt := salt }, .ok true)

def setPermanentPasswordStorageForSync (env : Env) (storage salt : Text) (w : State) :
    State × Except String Bool :=
  match v.applyPermanentPasswordStorageForSync env.pk storage salt w.config with
  | (c, .error e) => ({ w with config := c }, .error e)
  | (c, .ok false) => ({ w with config := c }, .ok false)
  | (c, .ok true) => ({ v.store env { w with config := c } with trustedDevices := [] }, .ok true)

/-! ### The salt -/

def setSalt (env : Env) (salt : Text) (w : State) : State :=
  if salt = w.config.salt then w
  else if v.passwordIsEmptyOrNotHashed env.pk w.config.password = false ∧ w.config.salt ≠ [] then w
  else v.store env { w with config := { w.config with salt := salt } }

def getSalt (env : Env) (w : State) : State × Text :=
  if w.config.salt = [] then
    (v.setSalt env (getAutoPassword env.rng defaultSaltLen) w, getAutoPassword env.rng defaultSaltLen)
  else (w, w.config.salt)

/-- The salt a new connection sends to its peer. -/
def getEffectivePermanentPasswordSalt (env : Env) (w : State) : State × Text :=
  if w.config.password ≠ [] then
    if v.localPermanentPasswordStorageIsUsableForAuth env.pk w.config.password w.config.salt then
      v.getSalt env w
    else (w, [])
  else if v.presetSalt ≠ [] then
    if v.presetPermanentPasswordStorageIsUsableForAuth v.presetStorage v.presetSalt then
      (w, v.presetSalt)
    else (w, [])
  else v.getSalt env w

/-! ### The check of a login -/

structure Hash where
  salt : Text
  challenge : Text

def answerOf (challenge : Text) (h1 : Bytes) : Bytes := (v.sha256 (h1 ++ challenge)).bytes

def answer (hash : Hash) (password : Text) : Bytes :=
  v.answerOf hash.challenge (v.sha256 (password ++ hash.salt)).bytes

/-- `lr` is the password of the login request. -/
def verifyH1 (hash : Hash) (lr h1 : Bytes) : Bool := v.answerOf hash.challenge h1 = lr

def validatePasswordPlain (hash : Hash) (lr : Bytes) (password : Text) : Bool :=
  if password = [] then false else v.verifyH1 hash lr (v.sha256 (password ++ hash.salt)).bytes

def validatePasswordStorage (pk : Option Bytes) (hash : Hash) (lr : Bytes) (storage : Text) :
    Bool :=
  if storage = [] then false
  else
    match v.decodePermanentPasswordH1FromStorage pk storage with
    | some h1 => v.verifyH1 hash lr h1.bytes
    | none => v.validatePasswordPlain hash lr storage

def validatePresetPasswordStorage (hash : Hash) (lr : Bytes) (storage salt : Text) : Bool :=
  if salt = [] then v.validatePasswordPlain hash lr storage
  else
    match v.decodePresetPasswordH1FromStorage storage with
    | some h1 => v.verifyH1 hash lr h1.bytes
    | none => false

/-- The part of `validate_password` after the temporary password. -/
def acceptsPermanent (pk : Option Bytes) (hash : Hash) (w : State) (lr : Bytes) : Bool :=
  if w.config.password ≠ [] then
    v.localPermanentPasswordStorageIsUsableForAuth pk w.config.password w.config.salt &&
      v.validatePasswordStorage pk hash lr w.config.password
  else
    v.presetPermanentPasswordStorageIsUsableForAuth v.presetStorage v.presetSalt &&
      v.validatePresetPasswordStorage hash lr v.presetStorage v.presetSalt

end Installation
end CodeDesk.Auth
