/-
# Logging in on a controlled connection

The state of one connection of `src/server/connection.rs` and the functions
that decide whether, and as what, it becomes authorized: the login request,
the second factor, the switch of sides, the click in the connection manager,
and `send_logon_response_and_keep_alive`, which all of them end in. A
function returns the connection and whether it is kept alive.

`Env` holds what the configuration, the platform and the failure tables
answer while one input is handled; `Past` is history that no function reads.
-/
import CodeDesk.Conn.Feed

namespace CodeDesk.Conn

/-! ### State -/

structure SessionKey where
  peerId : String
  name : String
  sessionId : ℕ
  deriving DecidableEq, Repr

structure Session where
  randomPassword : String
  tfa : Bool
  deriving DecidableEq, Repr

structure TrustedDevice where
  hwid : Bytes
  id : String
  name : String
  platform : String
  outdate : Bool
  deriving DecidableEq, Repr

/-- The tables a connection shares with the others. Entries past their time
limit are no longer in them. -/
structure Tables where
  sessions : SessionKey → Option Session := fun _ => none
  switchSidesUuid : String → Option ℕ := fun _ => none
  trustedDevices : List TrustedDevice := []

inductive ConnAuditPrimaryAuth where
  | none
  | click
  | temporaryPassword
  | permanentPassword
  | switchSides
  deriving DecidableEq, Repr

inductive ConnAuditTwoFactor where
  | none
  | totp
  | trustedDevice
  deriving DecidableEq, Repr

structure Gate where
  lr : LoginRequest := {}
  optionsInLogin : Option OptionMessage := none
  fileTransfer : Option (String × Bool) := none
  viewCamera : Bool := false
  terminal : Bool := false
  terminalServiceId : String := ""
  terminalUserToken : Bool := false
  portForwardSocket : Option String := none
  portForwardAddress : String := ""
  authorized : Bool := false
  authedConnType : Option AuthConnType := none
  require2fa : Bool
  fromSwitch : Bool := false
  connAuditPrimaryAuth : ConnAuditPrimaryAuth := .none
  connAuditTwoFactor : ConnAuditTwoFactor := .none
  controlPermissions : Option ℕ := none

structure Login where
  isFileTransfer : Bool
  isViewCamera : Bool
  isTerminal : Bool
  portForward : String
  peerId : String
  name : String
  avatar : String
  authorized : Bool
  keyboard : Bool
  clipboard : Bool
  audio : Bool
  file : Bool
  restart : Bool
  recording : Bool
  blockInput : Bool
  privacyMode : Bool
  fromSwitch : Bool
  deriving DecidableEq, Repr

inductive Reply where
  | error (text : String) (enableTrustedDevices : Bool)
  | peerInfo
  deriving DecidableEq, Repr

inductive Factor where
  | password
  | recentSession
  | click
  | switchSides
  | totp
  | trustedDevice
  | recentTfa
  deriving DecidableEq, Repr

structure Past where
  factors : List Factor := []
  /-- The login request that set the session's scope, once the permission of
  that scope was found to be on. -/
  checked : Option (AuthConnType × LoginRequest) := none

inductive Phase where
  | running
  | forwarding
  | closed
  deriving DecidableEq, Repr

structure Connection where
  gate : Gate
  feed : Feed
  tables : Tables
  lastTestDelay : Bool := false
  replies : List Reply := []
  logins : List Login := []
  past : Past := {}
  phase : Phase := .running

inductive ApproveMode where
  | both
  | password
  | click
  deriving DecidableEq, Repr

inductive PermissionOption where
  | keyboard
  | remotePrinter
  | clipboard
  | fileTransfer
  | audio
  | camera
  | terminal
  | tunnel
  | remoteRestart
  | recordSession
  | blockInput
  | privacyMode
  deriving DecidableEq, Repr

inductive Block where
  | tooManyWrongAttempts
  | oneMinuteLater
  | ipv6Prefix (length : ℕ)
  deriving DecidableEq, Repr

def Block.text : Block → String
  | .tooManyWrongAttempts => "Too many wrong attempts"
  | .oneMinuteLater => "Please try 1 minute later"
  | .ipv6Prefix n => "Too many wrong attempts for IPv6 prefix /" ++ toString n

structure Env where
  accessMode : String := ""
  option : PermissionOption → String := fun _ => ""
  privacyModeOn : Bool := false
  isInstalled : Bool := true
  isPrelogin : Bool := false
  isHeadlessAllowed : Bool := false
  desktopUsername : String := ""
  desktopErr : String := ""
  /-- What `check_failure` answers before the desktop is started, after it
  failed, before a password and before a code. -/
  headlessBlock : Option Block := none
  desktopBlock : Option Block := none
  passwordBlock : Option Block := none
  codeBlock : Option Block := none
  approveMode : ApproveMode := .both
  hasValidPassword : Bool := true
  allowLogonScreenPassword : Bool := false
  temporaryEnabled : Bool := true
  temporaryPassword : String := ""
  permanentEnabled : Bool := true
  /-- The stored permanent or preset password is usable and matches. -/
  acceptsPermanent : Bytes → Bool := fun _ => false
  /-- `check_current` of the TOTP; it can fail. -/
  checkCurrent : String → Option Bool := fun _ => some false
  enableTrustedDevices : Bool := true
  /-- The error a terminal login ends with, if any. -/
  terminalLoginError : Option String := none
  connects : String → Bool := fun _ => true
  displayServerError : String := ""
  displaysError : Option String := none
  waitSessionIdConfirm : Bool := false
  primaryCamera : Bool := true
  scopeViolationClose : Bool := false
  anotherRemote : Bool := false
  now : ℤ := 0
  /-- `SelectedSid`: there is a current session, and another one is chosen. -/
  sessionSwitch : Option Bool := none

/-! ### Permissions -/

def PermissionOption.value : PermissionOption → ℕ
  | .keyboard => 0
  | .remotePrinter => 1
  | .clipboard => 2
  | .fileTransfer => 3
  | .audio => 4
  | .camera => 5
  | .terminal => 6
  | .tunnel => 7
  | .remoteRestart => 8
  | .recordSession => 9
  | .blockInput => 10
  | .privacyMode => 12

def getControlPermission (permissions : ℕ) (p : PermissionOption) : Option Bool :=
  match (permissions >>> (p.value * 2)) % 4 with
  | 1 => some false
  | 2 => some true
  | _ => none

/-- Every option here starts with `enable-`, so it is on unless it is "N". -/
def isPermissionEnabledLocally (h : Host) (env : Env) (p : PermissionOption) : Bool :=
  if (h.flutter && !h.mobile) && env.accessMode = "full" then true
  else if (h.flutter && !h.mobile) && env.accessMode = "view" then false
  else env.option p ≠ "N"

def permission (h : Host) (env : Env) (control : Option ℕ) (p : PermissionOption) : Bool :=
  match control.bind (getControlPermission · p) with
  | some enabled => enabled
  | none => isPermissionEnabledLocally h env p

/-! ### Small steps -/

def isWhite (c : Char) : Bool :=
  (9 ≤ c.toNat && c.toNat ≤ 13) || (0x2000 ≤ c.toNat && c.toNat ≤ 0x200A) ||
    c.toNat ∈ [0x20, 0x85, 0xA0, 0x1680, 0x2028, 0x2029, 0x202F, 0x205F, 0x3000]

def blank (s : String) : Bool := s.toList.all isWhite

def shouldUseTerminalOsLoginScope (h : Host) (isTerminal : Bool) (username : String) : Bool :=
  h.windows && isTerminal && !blank username

def normalizePortForwardTarget (host : String) (port : ℤ) : String × Bool :=
  if host = "RDP" ∧ port = 0 then ("localhost:3389", true)
  else ((if host = "" then "localhost" else host) ++ ":" ++ toString port, false)

namespace Gate

def sessionKey (g : Gate) : SessionKey :=
  { peerId := g.lr.myId, name := g.lr.myName, sessionId := g.lr.sessionId }

def isRemote (g : Gate) : Bool :=
  g.fileTransfer.isNone && g.portForwardSocket.isNone && !g.viewCamera && !g.terminal

def connType (g : Gate) : AuthConnType :=
  if g.fileTransfer.isSome then .fileTransfer
  else if g.portForwardSocket.isSome then .portForward
  else if g.viewCamera then .viewCamera
  else if g.terminal then .terminal
  else .remote

/-- `authed_conn_id` and `normalize_conn_audit_auth_fields`. -/
def grant (g : Gate) : Gate :=
  { g with
    authorized := true
    authedConnType := some g.connType
    connAuditTwoFactor :=
      if g.connAuditPrimaryAuth = .click ∨ g.connAuditPrimaryAuth = .switchSides then .none
      else g.connAuditTwoFactor }

end Gate

namespace Connection

def reply (r : Reply) (c : Connection) : Connection := { c with replies := c.replies ++ [r] }

def sendLoginError (env : Env) (err : String) (c : Connection) : Connection :=
  c.reply (.error err (err == "2FA Required" && env.enableTrustedDevices))

def proved (x : Factor) (c : Connection) : Connection :=
  { c with past := { c.past with factors := c.past.factors ++ [x] } }

def tryStartCm (peerId name : String) (authorized : Bool) (c : Connection) : Connection :=
  { c with logins := c.logins ++
      [{ isFileTransfer := c.gate.fileTransfer.isSome
         isViewCamera := c.gate.viewCamera
         isTerminal := c.gate.terminal
         portForward := c.gate.portForwardAddress
         peerId := peerId
         name := name
         avatar := c.gate.lr.avatar
         authorized := authorized
         keyboard := c.feed.keyboard
         clipboard := c.feed.clipboard
         audio := c.feed.audio
         file := c.feed.file
         restart := c.feed.restart
         recording := c.feed.recording
         blockInput := c.feed.blockInput
         privacyMode := c.feed.privacyMode
         fromSwitch := c.gate.fromSwitch }] }

/-! ### Passwords and sessions -/

def setSession (k : SessionKey) (s : Option Session) (t : Tables) : Tables :=
  { t with sessions := fun k' => if k' = k then s else t.sessions k' }

def validatePasswordPlain (h : Host) (password : String) (c : Connection) : Bool :=
  password ≠ "" && c.gate.lr.password = h.passwordHash password

/-- The live session of the peer, by its mark (`tfa`) or by its password. -/
def sessionMatches (h : Host) (tfa : Bool) (c : Connection) : Bool :=
  match c.tables.sessions c.gate.sessionKey with
  | some s =>
    c.gate.lr.password ≠ [] && (if tfa then s.tfa else c.validatePasswordPlain h s.randomPassword)
  | none => false

def isRecentSession (h : Host) (tfa : Bool) (c : Connection) : Connection × Bool :=
  if c.sessionMatches h tfa then
    (if tfa then
      ({ c with gate := { c.gate with connAuditTwoFactor := .totp } } : Connection).proved .recentTfa
    else
      ({ c with gate := { c.gate with connAuditPrimaryAuth := .temporaryPassword } } :
        Connection).proved .recentSession, true)
  else (c, false)

def validatePassword (h : Host) (env : Env) (c : Connection) : Connection × Bool :=
  if env.temporaryEnabled && c.validatePasswordPlain h env.temporaryPassword then
    (({ c with
        gate := { c.gate with connAuditPrimaryAuth := .temporaryPassword }
        tables := setSession c.gate.sessionKey
          (some { randomPassword := env.temporaryPassword, tfa := false }) c.tables } :
        Connection).proved .password, true)
  else if (env.permanentEnabled || env.allowLogonScreenPassword) &&
      env.acceptsPermanent c.gate.lr.password then
    (({ c with gate := { c.gate with connAuditPrimaryAuth := .permanentPassword } } :
        Connection).proved .password, true)
  else (c, false)

def setSession2fa (c : Connection) : Connection :=
  let s := (c.tables.sessions c.gate.sessionKey).getD { randomPassword := "", tfa := true }
  { c with tables := setSession c.gate.sessionKey (some { s with tfa := true }) c.tables }

def checkRemoveSession (env : Env) (c : Connection) : Connection :=
  if c.gate.authedConnType = some .remote ∨ env.anotherRemote = false then
    { c with tables := setSession c.gate.sessionKey none c.tables }
  else c

def addTrustedDevice (hwid : Bytes) (c : Connection) : Connection :=
  { c with tables := { c.tables with
      trustedDevices := c.tables.trustedDevices.filter (fun d => d.hwid ≠ hwid) ++
        [{ hwid := hwid, id := c.gate.lr.myId, name := c.gate.lr.myName
           platform := c.gate.lr.myPlatform, outdate := false }] } }

/-- Only the first device with the hardware id is looked at. -/
def isTrusted (env : Env) (lr : LoginRequest) (c : Connection) : Bool :=
  lr.hwid ≠ [] && env.enableTrustedDevices &&
    match c.tables.trustedDevices.find? (fun d => d.hwid = lr.hwid) with
    | some d => !d.outdate && d.id = lr.myId && d.name = lr.myName && d.platform = lr.myPlatform
    | none => false

def handleLoginRequestWithoutValidation (env : Env) (lr : LoginRequest) (c : Connection) :
    Connection :=
  let c : Connection := { c with gate := { c.gate with
    lr := lr
    optionsInLogin := lr.option.or c.gate.optionsInLogin } }
  if c.gate.require2fa && c.isTrusted env lr then
    ({ c with gate := { c.gate with require2fa := false, connAuditTwoFactor := .trustedDevice } } :
      Connection).proved .trustedDevice
  else c

/-! ### The logon -/

/-- `prepare_terminal_login_for_authorization`: a failure closes the connection. -/
def prepareTerminalLogin (h : Host) (env : Env) (c : Connection) : Connection × Option Bool :=
  if h.mobile || !c.gate.terminal || c.gate.terminalUserToken then (c, none)
  else
    match env.terminalLoginError with
    | some err => (c.sendLoginError env err, some false)
    | none => ({ c with gate := { c.gate with terminalUserToken := true } }, none)

def connectPortForwardIfNeeded (env : Env) (c : Connection) : Connection × Bool :=
  if c.gate.portForwardSocket.isSome then (c, true)
  else
    match c.gate.lr.union with
    | some (.portForward host port) =>
      let target := normalizePortForwardTarget host port
      let c : Connection := { c with gate := { c.gate with portForwardAddress := target.1 } }
      if env.connects target.1 then
        ({ c with gate := { c.gate with portForwardSocket := some target.1 } }, true)
      else
        (c.sendLoginError env ("Failed to access remote " ++
          (if target.2 then "RDP" else target.1) ++ ". Please make sure it is reachable/open."),
          false)
    | _ => (c, true)

def updateScopedLoginOptions (h : Host) (c : Connection) : Connection :=
  match c.gate.optionsInLogin with
  | none => c
  | some o =>
    let c : Connection := { c with gate := { c.gate with optionsInLogin := none } }
    match c.gate.authedConnType.bind (scopedLoginOption · o) with
    | some o => { c with feed := c.feed.updateOptions h c.gate.authedConnType o }
    | none => c

/-- What an authorized connection that is no port forward is fed at once. -/
def startSession (h : Host) (env : Env) (c : Connection) : Connection :=
  let wait := h.windows && !c.gate.terminal && env.waitSessionIdConfirm
  if c.gate.fileTransfer.isSome || c.gate.terminal then
    { c with feed := { c.feed with keyboard := false } }
  else if c.gate.viewCamera then
    let feed := if wait then c.feed else c.feed.trySubCameraDisplays env.primaryCamera
    { c with feed := { feed with keyboard := false } }
  else if env.displaysError.isNone && !wait then
    { c with feed := c.feed.trySubMonitorServices h c.gate.isRemote }
  else c

def welcome (h : Host) (env : Env) (c : Connection) : Connection :=
  if c.gate.portForwardSocket.isSome then c.reply .peerInfo
  else if h.linux && c.gate.isRemote && env.displayServerError ≠ "" then
    c.reply (.error env.displayServerError false)
  else
    let answer := match env.displaysError with
      | some err => if c.gate.isRemote then Reply.error err false else .peerInfo
      | none => .peerInfo
    ((c.reply answer).updateScopedLoginOptions h).startSession h env

/-- The part of `send_logon_response_and_keep_alive` after the second factor. -/
def logon (h : Host) (env : Env) (c : Connection) : Connection × Bool :=
  match c.prepareTerminalLogin h env with
  | (c, some keepAlive) => (c, keepAlive)
  | (c, none) =>
    match c.connectPortForwardIfNeeded env with
    | (c, false) => (c, false)
    | (c, true) => (({ c with gate := c.gate.grant } : Connection).welcome h env, true)

/-- The second factor is asked for only where it is required; asking leaves a
trace in the audit fields. -/
def secondFactorMissing (h : Host) (c : Connection) : Connection × Bool :=
  if c.gate.require2fa then
    match c.isRecentSession h true with
    | (c, true) => (c, false)
    | (c, false) => (c, !c.gate.fromSwitch)
  else (c, false)

def sendLogonResponseAndKeepAlive (h : Host) (env : Env) (c : Connection) : Connection × Bool :=
  if c.gate.authorized then (c, true)
  else
    match c.secondFactorMissing h with
    | (c, true) => (c.sendLoginError env "2FA Required", true)
    | (c, false) => c.logon h env

/-- The logon and, if the connection is kept, the message to the connection
manager. -/
def logonAndStartCm (h : Host) (env : Env) (peerId name : String) (c : Connection) :
    Connection × Bool :=
  match c.sendLogonResponseAndKeepAlive h env with
  | (c, false) => (c, false)
  | (c, true) => (c.tryStartCm peerId name c.gate.authorized, true)

/-! ### The login request -/

def resetSessionScopeForLogin (c : Connection) : Connection :=
  { c with
    gate := { c.gate with
      fileTransfer := none, viewCamera := false, terminal := false, portForwardAddress := "" }
    feed := { c.feed with terminalPersistent := false }
    past := { c.past with checked := none } }

def passed (t : AuthConnType) (lr : LoginRequest) (c : Connection) : Connection :=
  { c with past := { c.past with checked := some (t, lr) } }

/-- The permission check and the scope the request asks for. -/
def loginScope (h : Host) (env : Env) (lr : LoginRequest) (c : Connection) : Connection × Bool :=
  let on := permission h env c.gate.controlPermissions
  match lr.union with
  | some (.fileTransfer dir showHidden) =>
    if !on .fileTransfer then (c.sendLoginError env "No permission of file transfer", false)
    else
      (({ c with gate := { c.gate with fileTransfer := some (dir, showHidden) } } :
        Connection).passed .fileTransfer lr, true)
  | some .viewCamera =>
    if !on .camera then (c.sendLoginError env "No permission of viewing camera", false)
    else
      (({ c with gate := { c.gate with viewCamera := true } } : Connection).passed .viewCamera lr,
        true)
  | some (.terminal serviceId) =>
    if !on .terminal then (c.sendLoginError env "No permission of terminal", false)
    else if h.windows && lr.osUsername ≠ "" && !env.isInstalled then
      (c.sendLoginError env "Supported only in the installed version.", false)
    else
      (({ c with
          gate := { c.gate with terminal := true, terminalServiceId := serviceId }
          feed := { c.feed with
            terminalPersistent := match c.gate.optionsInLogin with
              | some o => o.terminalPersistent == .yes
              | none => c.feed.terminalPersistent } } : Connection).passed .terminal lr, true)
  | some (.portForward host port) =>
    if !on .tunnel then (c.sendLoginError env "No permission of IP tunneling", false)
    else
      (({ c with gate := { c.gate with
          portForwardAddress := (normalizePortForwardTarget host port).1 } } :
        Connection).passed .portForward lr, true)
  | none =>
    if env.privacyModeOn then (c.sendLoginError env "Someone turns on privacy mode, exit", false)
    else (c, true)

/-- The connection manager is asked. On Windows a terminal for an operating
system user is prepared first. -/
def askConnectionManager (h : Host) (env : Env) (lr : LoginRequest) (c : Connection) :
    Connection × Bool :=
  let prepared :=
    if shouldUseTerminalOsLoginScope h c.gate.terminal lr.osUsername then
      c.prepareTerminalLogin h env
    else (c, none)
  match prepared with
  | (c, some keepAlive) => (c, keepAlive)
  | (c, none) => (c.tryStartCm lr.myId lr.myName false, true)

def clickOnly (env : Env) : Bool :=
  (env.approveMode == .click && !env.allowLogonScreenPassword) ||
    (env.approveMode == .both && !env.hasValidPassword)

/-- The password stage. `errMsg` is empty or says that the desktop session is
not ready. -/
def passwordLogin (h : Host) (env : Env) (errMsg : String) (lr : LoginRequest) (c : Connection) :
    Connection × Bool :=
  match env.passwordBlock with
  | some b => (c.sendLoginError env b.text, true)
  | none =>
    match c.validatePassword h env with
    | (c, false) =>
      if errMsg = "" then
        ((c.sendLoginError env "Wrong Password").tryStartCm lr.myId lr.myName false, true)
      else (c.sendLoginError env "Desktop session not ready, password wrong", true)
    | (c, true) =>
      if errMsg = "" then c.logonAndStartCm h env lr.myId lr.myName
      else (c.sendLoginError env errMsg, true)

def authenticate (h : Host) (env : Env) (errMsg : String) (lr : LoginRequest) (c : Connection) :
    Connection × Bool :=
  if clickOnly env then
    match c.askConnectionManager h env lr with
    | (c, false) => (c, false)
    | (c, true) =>
      if h.getVersionNumber "1.2.0" ≤ h.getVersionNumber lr.version then
        (c.sendLoginError env "No Password Access", true)
      else (c, true)
  else
    match c.isRecentSession h false with
    | (c, true) =>
      if errMsg = "" then c.logonAndStartCm h env lr.myId lr.myName
      else (c.sendLoginError env errMsg, true)
    | (c, false) =>
      if lr.password = [] then
        if errMsg = "" then c.askConnectionManager h env lr
        else (c.sendLoginError env "Desktop session not ready, password empty", true)
      else c.passwordLogin h env errMsg lr

/-- Headless Linux: the desktop is started before the peer is authenticated.
The error goes on to the password stage only if the session is not ready. -/
def startDesktop (h : Host) (env : Env) (lr : LoginRequest) (c : Connection) : Connection × Bool :=
  if h.linux && env.isHeadlessAllowed && !blank lr.osUsername && env.desktopUsername = "" &&
      env.headlessBlock.isSome then
    (c.sendLoginError env (env.headlessBlock.elim "" Block.text), true)
  else
    let errMsg := if h.linux then env.desktopErr else ""
    if errMsg ≠ "" && errMsg ≠ "Desktop session not ready" then
      match env.desktopBlock with
      | some b =>
        if env.isHeadlessAllowed && !blank lr.osUsername && errMsg = "Wrong Password" then
          (c.sendLoginError env b.text, true)
        else (c.sendLoginError env errMsg, true)
      | none => (c.sendLoginError env errMsg, true)
    else c.authenticate h env errMsg lr

def loginRequest (h : Host) (env : Env) (lr : LoginRequest) (c : Connection) : Connection × Bool :=
  let c := (c.handleLoginRequestWithoutValidation env lr).resetSessionScopeForLogin
  match c.loginScope h env lr with
  | (c, false) => (c, false)
  | (c, true) =>
    if !h.isDirectIpAccess lr.username && lr.username ≠ h.id then
      (c.sendLoginError env "Offline", false)
    else if h.windows && c.gate.terminal && blank lr.osUsername && env.isPrelogin then
      (c.sendLoginError env "No active console user logged on, please connect and logon first.",
        false)
    else c.startDesktop h env lr

/-! ### The second factor and the switch of sides -/

def auth2fa (h : Host) (env : Env) (code : String) (hwid : Bytes) (c : Connection) :
    Connection × Bool :=
  match env.codeBlock with
  | some b => (c.sendLoginError env b.text, true)
  | none =>
    if c.gate.require2fa then
      match env.checkCurrent code with
      | some true =>
        let c := (({ c with gate := { c.gate with
          require2fa := false, connAuditTwoFactor := .totp } } : Connection).proved
            .totp).setSession2fa
        match c.logonAndStartCm h env c.gate.lr.myId c.gate.lr.myName with
        | (c, false) => (c, false)
        | (c, true) =>
          (if hwid ≠ [] && env.enableTrustedDevices then c.addTrustedDevice hwid else c, true)
      | some false => (c.sendLoginError env "Wrong 2FA Code", true)
      | none => (c, true)
    else (c, true)

/-- The uuid is taken out of the table whether it matches or not. -/
def switchSidesResponse (h : Host) (env : Env) (lr : Option LoginRequest) (uuid : Option ℕ)
    (c : Connection) : Connection × Bool :=
  match lr with
  | some lr =>
    if h.flutter && !h.mobile then
      let c := c.handleLoginRequestWithoutValidation env lr
      let old := c.tables.switchSidesUuid lr.myId
      let c : Connection := { c with tables := { c.tables with
        switchSidesUuid := fun id => if id = lr.myId then none else c.tables.switchSidesUuid id } }
      if uuid.isSome && old = uuid then
        (({ c with gate := { c.gate with
            fromSwitch := true, connAuditPrimaryAuth := .switchSides } } : Connection).proved
          .switchSides).logonAndStartCm h env lr.myId lr.myName
      else (c, true)
    else (c, true)
  | none => (c, true)

def authorize (h : Host) (env : Env) (c : Connection) : Connection × Bool :=
  (({ c with gate := { c.gate with
      connAuditPrimaryAuth := .click, require2fa := false } } : Connection).proved
    .click).sendLogonResponseAndKeepAlive h env

end Connection
end CodeDesk.Conn
