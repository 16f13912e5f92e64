/-
# Where the password of a connection comes from

The controlling side (`src/client.rs`) takes the password it sends from one of several
places, and after the login it stores it with the peer, and in the personal address book,
unless it is a shared one: the password of a shared address book, or the built-in default.
What it has at that time is a hash, made with the salt the peer had sent, and the test for
a shared one makes the hash again, with the salt that the peer has sent last
(`isSharedAb`).

`Secret` is a hash together with the shared password and the salt it comes from, which
nothing in the code can see. As long as the salt is the same the test finds a shared
password (`traced_handlePeerInfo`), and a peer that sends another salt has it stored
(`shared_password_stored`).
-/
import CodeDesk.Run
import CodeDesk.Auth.Crypt

namespace CodeDesk.Client

open Auth (Text Digest)

abbrev Bytes := List UInt8

structure Derivation where
  password : Text
  salt : Text
  deriving DecidableEq, Repr

/-- A hashed password, and what it was made from if that is shared. -/
structure Secret where
  bytes : Bytes
  shared : Option Derivation
  deriving DecidableEq, Repr

def Secret.own (bytes : Bytes) : Secret := ⟨bytes, none⟩

inductive PasswordSource where
  | personalAb (bytes : Bytes)
  | sharedAb (password : Text)
  | undefined
  deriving DecidableEq, Repr

structure Hash where
  salt : Text := []
  challenge : Text := []
  deriving DecidableEq, Repr

/-- What the program was built with, and its built-in option `default-connect-password`. -/
structure Program where
  sha256 : Bytes → Digest
  flutter : Bool := true
  desktop : Bool := true
  defaultConnectPassword : Text := []

structure LoginConfigHandler where
  password : Secret := .own []
  passwordSource : PasswordSource := .undefined
  hash : Hash := {}
  sharedPassword : Option Text := none
  /-- A well-formed `switch_uuid` is there. -/
  switchUuid : Bool := false
  remember : Bool := false
  /-- The password of `config`, and the one in the peer's file. -/
  config : Secret := .own []
  file : Secret := .own []
  kept : List Secret := []
  deriving DecidableEq, Repr

/-- What `handle_hash` gets: the message, whether the service knows the `switch_uuid`, the
preset password and the hash in the personal address book. -/
structure HashEnv where
  hash : Hash
  trusted : Bool := false
  passwordPreset : Text := []
  personalAb : Option Bytes := none
  deriving DecidableEq, Repr

inductive LoginError where
  | passwordEmpty
  | passwordWrong
  | other
  deriving DecidableEq, Repr

inductive Event where
  | hash (env : HashEnv)
  | loginError (err : LoginError)
  | loginFromUi (password : Text) (remember : Bool)
  | peerInfo
  /-- An option of the peer is saved: `config` is read from the file again. -/
  | saveConfig
  /-- Another session of the program has written the file. -/
  | written (password : Bytes)
  deriving DecidableEq, Repr

namespace Program

variable (p : Program)

def hashed (password salt : Text) : Bytes := (p.sha256 (password ++ salt)).bytes

theorem hashed_ne_nil (password salt : Text) : p.hashed password salt ≠ [] := by
  intro h
  have hlength := (p.sha256 (password ++ salt)).length_bytes
  rw [hashed] at h
  simp [h] at hlength

end Program

namespace PasswordSource

def isPersonalAb (source : PasswordSource) (password : Bytes) : Bool :=
  if password = [] then false
  else
    match source with
    | .personalAb b => b = password
    | _ => false

def isSharedAb (p : Program) (source : PasswordSource) (password : Bytes) (hash : Hash) : Bool :=
  if password = [] then false
  else
    match source with
    | .sharedAb shared => password = p.hashed shared hash.salt
    | _ => false

end PasswordSource

namespace LoginConfigHandler

variable (p : Program)

/-! ### The handlers -/

def takeShared (password : Text) (s : LoginConfigHandler) : LoginConfigHandler :=
  { s with
    password := ⟨p.hashed password s.hash.salt, some ⟨password, s.hash.salt⟩⟩
    passwordSource := .sharedAb password }

def presetPassword (preset : Text) (s : LoginConfigHandler) : LoginConfigHandler :=
  if s.password.bytes = [] ∧ preset ≠ [] then
    { s with password := .own (p.hashed preset s.hash.salt), passwordSource := .undefined }
  else s

def useSharedPassword (s : LoginConfigHandler) : LoginConfigHandler :=
  match s.sharedPassword with
  | some shared =>
    if shared ≠ [] then takeShared p shared { s with sharedPassword := none }
    else { s with sharedPassword := none }
  | none => s

def peerConfigPassword (s : LoginConfigHandler) : LoginConfigHandler :=
  if s.password.bytes = [] ∧ s.config.bytes ≠ [] then
    { s with password := s.config, passwordSource := .undefined }
  else s

def tryGetPasswordFromPersonalAb (entry : Option Bytes) (s : LoginConfigHandler) :
    LoginConfigHandler :=
  match entry with
  | some b =>
    if s.password.bytes = [] ∧ b ≠ [] then
      { s with password := .own b, passwordSource := .personalAb b }
    else s
  | none => s

def defaultPassword (s : LoginConfigHandler) : LoginConfigHandler :=
  if s.password.bytes = [] ∧ p.defaultConnectPassword ≠ [] then
    takeShared p p.defaultConnectPassword s
  else s

def handleHash (env : HashEnv) (s : LoginConfigHandler) : LoginConfigHandler :=
  let s := { s with hash := env.hash }
  if p.flutter && p.desktop && s.switchUuid && env.trusted then
    { s with switchUuid := false, passwordSource := .undefined }
  else
    let s := if p.flutter && p.desktop then { s with switchUuid := false } else s
    (s.presetPassword p env.passwordPreset |>.useSharedPassword p |>.peerConfigPassword
      |>.tryGetPasswordFromPersonalAb env.personalAb |>.defaultPassword p)

def handleLoginError (err : LoginError) (s : LoginConfigHandler) : LoginConfigHandler :=
  match err with
  | .passwordEmpty => { s with password := .own [] }
  | .passwordWrong => { s with password := .own [] }
  | .other => s

def handleLoginFromUi (password : Text) (remember : Bool) (s : LoginConfigHandler) :
    LoginConfigHandler :=
  if password = [] then s.peerConfigPassword
  else
    { s with
      password := .own (p.hashed password s.hash.salt)
      passwordSource := .undefined
      remember := remember }

/-- The password `handle_peer_info` leaves in the peer's configuration. -/
def storedPassword (s : LoginConfigHandler) : Secret :=
  if s.remember then
    if s.password.bytes ≠ [] ∧ s.password.bytes ≠ s.file.bytes ∧
        !s.passwordSource.isSharedAb p s.password.bytes s.hash then s.password
    else s.file
  else if s.passwordSource.isPersonalAb s.password.bytes then s.password
  else if s.file.bytes ≠ [] then .own []
  else s.file

/-- The password it sends for the personal address book. -/
def syncedPassword (s : LoginConfigHandler) : Option Secret :=
  if p.flutter ∧ (s.storedPassword p).bytes ≠ [] ∧
      !s.passwordSource.isSharedAb p s.password.bytes s.hash ∧
      !s.passwordSource.isPersonalAb s.password.bytes then some (s.storedPassword p)
  else none

def handlePeerInfo (s : LoginConfigHandler) : LoginConfigHandler :=
  { s with
    config := s.storedPassword p
    file := s.storedPassword p
    kept := s.storedPassword p :: ((s.syncedPassword p).toList ++ s.kept) }

def step (s : LoginConfigHandler) : Event → LoginConfigHandler
  | .hash env => s.handleHash p env
  | .loginError err => s.handleLoginError err
  | .loginFromUi password remember => s.handleLoginFromUi p password remember
  | .peerInfo => s.handlePeerInfo p
  | .saveConfig => { s with config := s.file }
  | .written password => { s with file := .own password }

def initialized (file : Bytes) (switchUuid : Bool) (sharedPassword : Option Text)
    (connToken : Option (Secret × PasswordSource)) : LoginConfigHandler :=
  let s : LoginConfigHandler :=
    { file := .own file
      config := .own file
      remember := file ≠ []
      switchUuid := switchUuid
      sharedPassword := sharedPassword }
  match connToken with
  | some (password, source) => { s with password := password, passwordSource := source }
  | none => s

/-! ### A shared password is marked as one -/

/-- The source says where a shared password comes from, and the hash is the one that was made
from it. -/
def Marked (password : Secret) (source : PasswordSource) : Prop :=
  ∀ d, password.shared = some d →
    source = .sharedAb d.password ∧ password.bytes = p.hashed d.password d.salt

structure Traced (s : LoginConfigHandler) : Prop where
  marked : Marked p s.password s.passwordSource
  config : s.config.shared = none
  file : s.file.shared = none
  kept : ∀ k ∈ s.kept, k.shared = none

variable {p} {s : LoginConfigHandler}

theorem marked_own (b : Bytes) (source : PasswordSource) : Marked p (.own b) source := by
  intro d hd
  cases hd

section

variable (h : Traced p s)

include h

theorem traced_takeShared (password : Text) : Traced p (s.takeShared p password) := by
  refine { h with marked := fun d hd => ?_ }
  cases hd
  exact ⟨rfl, rfl⟩

theorem traced_presetPassword (preset : Text) : Traced p (s.presetPassword p preset) := by
  unfold presetPassword
  split
  · exact { h with marked := marked_own _ _ }
  · exact h

theorem traced_useSharedPassword : Traced p (s.useSharedPassword p) := by
  have htaken : Traced p { s with sharedPassword := none } := { h with }
  unfold useSharedPassword
  split
  · split
    · exact traced_takeShared htaken _
    · exact htaken
  · exact h

theorem traced_peerConfigPassword : Traced p s.peerConfigPassword := by
  unfold peerConfigPassword
  split
  · refine { h with marked := fun d hd => ?_ }
    simp [h.config] at hd
  · exact h

theorem traced_tryGetPasswordFromPersonalAb (entry : Option Bytes) :
    Traced p (s.tryGetPasswordFromPersonalAb entry) := by
  unfold tryGetPasswordFromPersonalAb
  split
  · split
    · exact { h with marked := marked_own _ _ }
    · exact h
  · exact h

theorem traced_defaultPassword : Traced p (s.defaultPassword p) := by
  unfold defaultPassword
  split
  · exact traced_takeShared h _
  · exact h

theorem traced_handleHash {env : HashEnv}
    (hswitch : (p.flutter && p.desktop && s.switchUuid && env.trusted) = true →
      s.password.shared = none) : Traced p (s.handleHash p env) := by
  unfold handleHash
  dsimp only
  split
  · next ht =>
    refine { h with marked := fun d hd => ?_ }
    simp [hswitch ht] at hd
  · refine traced_defaultPassword (traced_tryGetPasswordFromPersonalAb
      (traced_peerConfigPassword (traced_useSharedPassword (traced_presetPassword ?_ _))) _)
    split <;> exact { h with }

end

theorem isSharedAb_of_marked (h : Marked p s.password s.passwordSource) {d : Derivation}
    (hd : s.password.shared = some d) (hsalt : d.salt = s.hash.salt) :
    s.passwordSource.isSharedAb p s.password.bytes s.hash = true := by
  obtain ⟨hsource, hbytes⟩ := h d hd
  rw [hsource]
  simp [PasswordSource.isSharedAb, hbytes, hsalt, p.hashed_ne_nil]

theorem shared_eq_none_of_isPersonalAb (h : Marked p s.password s.passwordSource)
    (hpersonal : s.passwordSource.isPersonalAb s.password.bytes = true) :
    s.password.shared = none := by
  cases hd : s.password.shared with
  | none => rfl
  | some d =>
    rw [(h d hd).1] at hpersonal
    simp [PasswordSource.isPersonalAb] at hpersonal

theorem shared_storedPassword (h : Traced p s)
    (hsalt : ∀ d, s.password.shared = some d → d.salt = s.hash.salt) :
    (s.storedPassword p).shared = none := by
  unfold storedPassword
  split
  · split
    · next hnot =>
      cases hd : s.password.shared with
      | none => rfl
      | some d =>
        have := isSharedAb_of_marked h.marked hd (hsalt d hd)
        simp [this] at hnot
    · exact h.file
  · split
    · next hpersonal => exact shared_eq_none_of_isPersonalAb h.marked hpersonal
    · split
      · rfl
      · exact h.file

theorem traced_handlePeerInfo (h : Traced p s)
    (hsalt : ∀ d, s.password.shared = some d → d.salt = s.hash.salt) :
    Traced p (s.handlePeerInfo p) := by
  have hstored := shared_storedPassword h hsalt
  refine ⟨h.marked, hstored, hstored,
    List.forall_mem_cons.2 ⟨hstored, List.forall_mem_append.2 ⟨?_, h.kept⟩⟩⟩
  unfold syncedPassword
  split
  · exact List.forall_mem_singleton.2 hstored
  · nofun

/-! ### Whole runs -/

/-- A `PeerInfo` comes while the last `Hash` has the salt that a shared password in use was
hashed with, and a trusted `switch_uuid` while no shared password is in use. -/
def Steady (p : Program) (s : LoginConfigHandler) : Event → Prop
  | .hash env => (p.flutter && p.desktop && s.switchUuid && env.trusted) = true →
      s.password.shared = none
  | .peerInfo => ∀ d, s.password.shared = some d → d.salt = s.hash.salt
  | _ => True

theorem traced_step (h : Traced p s) {e : Event} (he : Steady p s e) : Traced p (s.step p e) := by
  cases e with
  | hash => exact traced_handleHash h he
  | loginError err =>
    cases err with
    | passwordEmpty | passwordWrong => exact { h with marked := marked_own _ _ }
    | other => exact h
  | loginFromUi password remember =>
    show Traced p (s.handleLoginFromUi p password remember)
    unfold handleLoginFromUi
    split
    · exact traced_peerConfigPassword h
    · exact { h with marked := marked_own _ _ }
  | peerInfo => exact traced_handlePeerInfo h he
  | saveConfig => exact ⟨h.marked, h.file, h.file, h.kept⟩
  | written => exact { h with file := rfl }

theorem traced_initialized (file : Bytes) (switchUuid : Bool) (sharedPassword : Option Text)
    {token : Option (Secret × PasswordSource)} (ht : ∀ t ∈ token, Marked p t.1 t.2) :
    Traced p (initialized file switchUuid sharedPassword token) := by
  cases token with
  | none => exact ⟨marked_own _ _, rfl, rfl, nofun⟩
  | some t => exact ⟨ht t rfl, rfl, rfl, nofun⟩

/-- No shared password is stored or sent if each `PeerInfo` comes while the last `Hash` has the
salt that the password in use was hashed with, and no trusted `switch_uuid` while it is a shared
one. -/
theorem kept_passwords_own {p : Program} {file : Bytes} {switchUuid : Bool}
    {sharedPassword : Option Text} {token : Option (Secret × PasswordSource)}
    (ht : ∀ t ∈ token, Marked p t.1 t.2) {es : List Event}
    (hes : Run.Meets (step p) (Steady p) (initialized file switchUuid sharedPassword token) es) :
    ∀ k ∈ (Run.run (step p) (initialized file switchUuid sharedPassword token) es).kept,
      k.shared = none :=
  (Run.inv_run_of_meets (I := Traced p) (fun _ _ _ hs he => traced_step hs he)
    (traced_initialized file switchUuid sharedPassword ht) hes).kept

def bench : Program where
  sha256 := fun b => ⟨(b ++ List.replicate 32 0).take 32, by simp⟩

theorem kept_passwords_own_bench : let s := initialized [7] false (some [1, 2]) none
    ∀ k ∈ (Run.run (step bench) s [.hash { hash := ⟨[3], []⟩ }, .peerInfo]).kept, k.shared = none :=
  kept_passwords_own (by simp) ⟨nofun, fun _ hd => Option.some.inj hd ▸ rfl, trivial⟩

/-- A password is remembered for the peer, and the session is opened with the password of a
shared address book. The peer sends a second salt before it lets the session in: the hash of
the shared password replaces the one in the file and is sent to the personal address book. -/
theorem shared_password_stored :
    let s := Run.run (step bench) (initialized [7] false (some [1, 2]) none)
      [.hash { hash := ⟨[3], []⟩ }, .hash { hash := ⟨[4], []⟩ }, .peerInfo]
    s.file.shared = some ⟨[1, 2], [3]⟩ ∧ s.syncedPassword bench = some s.file := by
  decide

end LoginConfigHandler

end CodeDesk.Client
