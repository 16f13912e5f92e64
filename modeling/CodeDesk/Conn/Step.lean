/-
# The loop of a controlled connection

`on_message` of `src/server/connection.rs`, the events of the connection
manager, and one turn of the main loop (`Connection.step`). The loop ends
when a handler does not keep the connection alive, or when a port forward
starts; then the forwarding loop runs, if there is a socket, and the
connection is taken out of all services.
-/
import CodeDesk.Conn.Login

namespace CodeDesk.Conn
namespace Connection

/-- The handlers that are reached only by an authorized connection. -/
def authorizedMessage (h : Host) (env : Env) (m : Message) (c : Connection) : Connection × Bool :=
  let source := Feed.videoSource c.gate.viewCamera
  let multiUi := h.getVersionNumber "1.2.4" ≤ h.getVersionNumber c.gate.lr.version
  if c.gate.portForwardSocket.isSome then (c, true)
  else
    match m with
    | .option o =>
      if c.gate.authedConnType = some .remote then
        ({ c with feed := c.feed.updateOptions h c.gate.authedConnType o }, true)
      else
        match c.gate.authedConnType.bind (scopedUpdateOptionMessage · o) with
        | some o => ({ c with feed := c.feed.updateOptions h c.gate.authedConnType o }, true)
        | none => (c, true)
    | .switchDisplay display =>
      ({ c with feed := c.feed.handleSwitchDisplay h source multiUi display }, true)
    | .captureDisplays add sub set =>
      ({ c with feed := c.feed.captureDisplays source add sub set }, true)
    | .voiceCallRequest isConnect ts =>
      if isConnect then
        ({ c with feed := { c.feed with
            voiceCallRequestTimestamp := some (if ts = 0 then env.now else ts) } }, true)
      else ({ c with feed := c.feed.closeVoiceCall c.gate.authedConnType }, true)
    | .switchSidesRequest uuid => (c, !(h.flutter && !h.mobile && uuid.isSome))
    | .selectedSid _ =>
      match h.windows, env.sessionSwitch with
      | true, some true => (c, false)
      | true, some false =>
        if c.gate.fileTransfer.isSome then (c, true)
        else if c.gate.viewCamera then
          ({ c with feed := c.feed.trySubCameraDisplays env.primaryCamera }, true)
        else if !c.gate.terminal then
          ({ c with feed := c.feed.trySubMonitorServices h c.gate.isRemote }, true)
        else (c, true)
      | _, _ => (c, true)
    | _ => (c, true)

/-- Whether an authorized connection refuses the message. -/
def authorizedScopeViolation (h : Host) (m : Message) (c : Connection) : Bool :=
  match c.gate.authedConnType with
  | some t => authorizedMessageScopeViolation h.windows t m
  | none => !isConnectionHousekeepingMessage m

def isLoginRequest : Message → Bool
  | .loginRequest _ => true
  | _ => false

/-- `on_message` after the close reason and the scope of the session. -/
def handleMessage (h : Host) (env : Env) (m : Message) (c : Connection) : Connection × Bool :=
  match m with
  | .loginRequest lr => c.loginRequest h env lr
  | .auth2fa code hwid => c.auth2fa h env code hwid
  | .testDelay fromClient =>
    (if fromClient then c else { c with lastTestDelay := false }, true)
  | .switchSidesResponse lr uuid => c.switchSidesResponse h env lr uuid
  | m => if c.gate.authorized then c.authorizedMessage h env m else (c, true)

def onMessage (h : Host) (env : Env) (m : Message) (c : Connection) : Connection × Bool :=
  if m = .closeReason then (c.checkRemoveSession env, false)
  else if c.gate.authorized && isLoginRequest m then (c, true)
  else if c.gate.authorized && c.authorizedScopeViolation h m then (c, !env.scopeViolationClose)
  else c.handleMessage h env m

/-- Whether the message makes `on_message` call `on_close`; switching sides does
so too, but never with a port forward. -/
def closes (h : Host) (env : Env) (m : Message) (c : Connection) : Bool :=
  m = .closeReason || c.gate.authorized && !isLoginRequest m && c.authorizedScopeViolation h m &&
    env.scopeViolationClose

/-! ### The loop -/

def close (c : Connection) : Connection :=
  { c with
    feed := { c.feed with server := c.feed.server.removeConnection }
    phase := .closed }

/-- The end of the main loop. `on_close`, where it has run (`closed`), has taken
the socket of a port forward. -/
def leave (closed : Bool) (c : Connection) : Connection :=
  if !closed && c.gate.portForwardSocket.isSome then { c with phase := .forwarding } else c.close

/-- The main loop goes on if the handler kept the connection alive and no port
forward is to start (`forwards`). -/
def goOn (closed : Bool) (forwards : Connection → Bool) (r : Connection × Bool) : Connection :=
  if r.2 && !forwards r.1 then r.1 else r.1.leave closed

inductive Input where
  | message (m : Message)
  | authorize
  | switchPermission (name : Feed.Switch) (enabled privacyLeft : Bool)
  | voiceCallResponse (accepted : Bool)
  | closeVoiceCall
  | testDelayTimer
  /-- The connection manager closes, an error, a timeout, the end of the stream. -/
  | stop
  /-- Other connections and the passing of time change the shared tables. -/
  | shared (tables : Tables)
  | serviceAdded (s : Service)

def turn (h : Host) (env : Env) (i : Input) (c : Connection) : Connection :=
  match i with
  | .message m =>
    goOn (c.closes h env m)
      (fun c => c.gate.portForwardSocket.isSome && c.gate.authorized && !c.lastTestDelay)
      (c.onMessage h env m)
  | .authorize => goOn false (fun c => c.gate.portForwardSocket.isSome) (c.authorize h env)
  | .switchPermission name enabled privacyLeft =>
    { c with
      feed := c.feed.switchPermission h c.gate.authorized c.gate.authedConnType privacyLeft name
        enabled }
  | .voiceCallResponse accepted =>
    { c with feed := c.feed.handleVoiceCall c.gate.authedConnType accepted }
  | .closeVoiceCall => { c with feed := c.feed.closeVoiceCall c.gate.authedConnType }
  | .testDelayTimer =>
    if !c.lastTestDelay && !(c.gate.portForwardSocket.isSome && c.gate.authorized) then
      { c with lastTestDelay := true }
    else c
  | .stop => c.leave true
  | .shared tables => { c with tables := tables }
  | .serviceAdded s => { c with feed := { c.feed with server := c.feed.server.addService s } }

/-- One input with the answers of its environment. In the forwarding loop the
connection manager and the peer can only end the connection. -/
def step (h : Host) (c : Connection) (x : Env × Input) : Connection :=
  match c.phase with
  | .running => c.turn h x.1 x.2
  | .forwarding =>
    match x.2 with
    | .stop => c.close
    | .shared tables => { c with tables := tables }
    | .serviceAdded s => { c with feed := { c.feed with server := c.feed.server.addService s } }
    | _ => c
  | .closed => c

def start (h : Host) (env : Env) (controlPermissions : Option ℕ) (require2fa : Bool)
    (services : List Service) (tables : Tables) : Connection :=
  let on := permission h env controlPermissions
  { gate := { require2fa := require2fa, controlPermissions := controlPermissions }
    feed :=
      { keyboard := on .keyboard
        clipboard := on .clipboard
        audio := on .audio
        file := on .fileTransfer
        restart := on .remoteRestart
        recording := on .recordSession
        blockInput := on .blockInput
        privacyMode := on .privacyMode
        displayIdx := h.primaryDisplayIdx
        server := { services := services, subs := [], subs_services := by simp } }
    tables := tables }

end Connection

/-- A Linux desktop with the id "host"; a password is sent in the clear. -/
def Host.desktop : Host :=
  { id := "host"
    isDirectIpAccess := fun _ => false
    getVersionNumber := fun _ => 0
    passwordHash := fun p => p.toList.map fun c => UInt8.ofNat c.toNat }

end CodeDesk.Conn
