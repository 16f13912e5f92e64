/-
# What a peer makes the host do

The handlers of `on_message` in `src/server/connection.rs` for what they do to
the host: input, clipboard, resolutions, virtual displays, privacy mode,
files, terminals. `Connection.step` is the same loop for what becomes of the
connection. A `Desk` is a connection together with the state only these
handlers have and the list of everything that was done to the host.

What happens after the main loop was left (the file clipboard is emptied,
privacy mode of this connection is turned off, the last connection restores
the resolutions) is no handler and not here.
-/
import CodeDesk.Conn.Step

namespace CodeDesk.Conn

/-! ### The contents of the messages -/

structure MouseEvent where
  mask : ℤ
  x : ℤ
  y : ℤ
  deriving DecidableEq, Repr

inductive PointerDeviceEvent where
  | scaleUpdate (scale : ℤ)
  | panStart (x y : ℤ)
  | panUpdate (x y : ℤ)
  | panEnd (x y : ℤ)
  | unset
  deriving DecidableEq, Repr

inductive KeyUnion where
  | controlKey (key : ℤ)
  | chr (code : ℕ)
  | unicode (code : ℕ)
  | seq (text : String)
  | win2winHotkey (code : ℕ)
  | unset
  deriving DecidableEq, Repr

structure KeyEvent where
  down : Bool := false
  press : Bool := false
  union : KeyUnion := .unset
  deriving DecidableEq, Repr

structure Resolution where
  width : ℤ
  height : ℤ
  deriving DecidableEq, Repr

inductive Cliprdr where
  /-- The names for the audit. -/
  | files
  | clip (body : Bytes)
  deriving DecidableEq, Repr

inductive FileAction where
  | readEmptyDirs (path : String) (includeHidden : Bool)
  | readDir (path : String) (includeHidden : Bool)
  | allFiles (id : ℤ) (path : String) (includeHidden : Bool)
  | send (id : ℤ) (path : String) (printer : Bool) (fileNum : ℤ) (includeHidden : Bool)
  | receive (id : ℤ) (path : String) (fileNum : ℤ) (files : List (String × ℕ)) (totalSize : ℕ)
  | removeDir (id : ℤ) (path : String) (recursive : Bool)
  | removeFile (id : ℤ) (path : String) (fileNum : ℤ)
  | create (id : ℤ) (path : String)
  | cancel (id : ℤ)
  | sendConfirm (id fileNum : ℤ) (skip : Bool) (offsetBlk : ℕ)
  | rename (id : ℤ) (path newName : String)
  | unset
  deriving DecidableEq, Repr

inductive FileResponse where
  | block (id fileNum : ℤ) (data : Bytes) (compressed : Bool)
  | done (id fileNum : ℤ)
  | digest (id fileNum : ℤ) (fileSize lastModified : ℕ) (isResume : Bool)
  | error (id fileNum : ℤ) (text : String)
  /-- A directory, a list of empty directories, or nothing. -/
  | other
  deriving DecidableEq, Repr

/-- The messages whose handlers read more than `Message` keeps are listed by
`Packet`; every other one is bare. -/
def Message.bare : Message → Bool
  | .switchDisplay _ => false
  | .plain p => p ∉ [.mouseEvent, .pointerDeviceEvent, .keyEvent, .clipboard, .multiClipboards,
      .fileAction, .fileResponse, .terminalAction, .togglePrivacyMode, .toggleVirtualDisplay,
      .changeResolution, .changeDisplayResolution]
  | _ => true

inductive Packet where
  | mouseEvent (me : MouseEvent)
  | pointerDeviceEvent (pde : PointerDeviceEvent)
  | keyEvent (ke : KeyEvent)
  | clipboard (cb : Bytes)
  | multiClipboards (cbs : List Bytes)
  | cliprdr (clip : Cliprdr)
  | fileAction (fa : FileAction)
  | fileResponse (fr : FileResponse)
  | terminalAction (action : Bytes)
  | switchDisplay (display : ℕ) (r : Resolution)
  | togglePrivacyMode (on : Bool) (implKey : String)
  | toggleVirtualDisplay (on : Bool) (display : ℤ)
  | changeResolution (r : Resolution)
  | changeDisplayResolution (display : ℕ) (r : Resolution)
  | restartRemoteDevice
  | elevationRequest
  | rest (m : Message) (bare : m.bare = true)

def Packet.message : Packet → Message
  | .mouseEvent _ => .plain .mouseEvent
  | .pointerDeviceEvent _ => .plain .pointerDeviceEvent
  | .keyEvent _ => .plain .keyEvent
  | .clipboard _ => .plain .clipboard
  | .multiClipboards _ => .plain .multiClipboards
  | .cliprdr _ => .plain .other
  | .fileAction _ => .plain .fileAction
  | .fileResponse _ => .plain .fileResponse
  | .terminalAction _ => .plain .terminalAction
  | .switchDisplay display _ => .switchDisplay display
  | .togglePrivacyMode _ _ => .plain .togglePrivacyMode
  | .toggleVirtualDisplay _ _ => .plain .toggleVirtualDisplay
  | .changeResolution _ => .plain .changeResolution
  | .changeDisplayResolution _ _ => .plain .changeDisplayResolution
  | .restartRemoteDevice => .plain .other
  | .elevationRequest => .plain .other
  | .rest m _ => m

/-! ### The host -/

inductive Effect where
  /-- Input for the thread that simulates it. -/
  | mouse (me : MouseEvent) (simulate showCursor : Bool)
  | pointer (pde : PointerDeviceEvent)
  | key (ke : KeyEvent) (press : Bool)
  /-- Input on a mobile host. -/
  | mainServicePointer (kind : String) (mask x y : ℤ)
  | mainServiceKey (ke : KeyEvent)
  | blockInput (on : Bool)
  | lockScreen
  | updateClipboard (cbs : List Bytes)
  | clipboardFile (clip : Bytes)
  | emptyFileClipboard
  | changeResolution (display : ℕ) (r : Resolution)
  | plugInMonitor (display : ℤ)
  | plugOutMonitor (display : ℤ)
  | turnOnPrivacy (implKey : String)
  | turnOffPrivacy
  | fileAction (fa : FileAction)
  | fileResponse (fr : FileResponse)
  | terminalAction (action : Bytes)
  | restartRemoteDevice
  | startPortableService
  /-- A service has the connection as a new subscriber. -/
  | subscribe (s : Service)
  deriving DecidableEq, Repr

/-- What the platform answers while one input is handled. -/
structure Platform where
  ios : Bool := false
  /-- The key is a modifier, by the event or by its key code. -/
  isModifier : KeyEvent → Bool := fun _ => false
  /-- What `msg_2_clip` makes something of. -/
  isClip : Bytes → Bool := fun _ => true
  hasDisplay : ℕ → Bool := fun _ => true
  virtualDisplaySupported : Bool := true
  privacyModeSupported : Bool := true
  /-- Privacy mode was turned on and does not work. -/
  privacyModeFails : Bool := false
  printerData : String → Bool := fun _ => false
  isDir : String → Bool := fun _ => true
  portableServiceRunning : Bool := false

structure Desk where
  conn : Connection
  lockAfterSessionEnd : Bool := false
  showMyCursor : Bool := false
  delayedReadDir : Option (String × Bool) := none
  done : List Effect := []

namespace Desk

def act (es : List Effect) (d : Desk) : Desk := { d with done := d.done ++ es }

def onClose (h : Host) (lock : Bool) (d : Desk) : Desk :=
  if lock && d.lockAfterSessionEnd && d.conn.feed.keyboard && !h.mobile then d.act [.lockScreen]
  else d

/-! ### Displays and privacy mode -/

def changeResolution (plat : Platform) (display : ℕ) (r : Resolution) (d : Desk) : Desk :=
  if d.conn.feed.keyboard && plat.hasDisplay display then d.act [.changeResolution display r] else d

def toggleVirtualDisplay (plat : Platform) (on : Bool) (display : ℤ) (d : Desk) : Desk :=
  if on then if plat.virtualDisplaySupported then d.act [.plugInMonitor display] else d
  else d.act [.plugOutMonitor display]

/-- Privacy mode that does not work is turned off again. -/
def turnOnPrivacy (plat : Platform) (implKey : String) (d : Desk) : Desk :=
  if d.conn.gate.authedConnType ≠ some .remote || !d.conn.feed.privacyMode then d
  else if !plat.privacyModeSupported then d
  else d.act (.turnOnPrivacy implKey :: if plat.privacyModeFails then [.turnOffPrivacy] else [])

def turnOffPrivacy (plat : Platform) (d : Desk) : Desk :=
  if plat.privacyModeSupported then d.act [.turnOffPrivacy] else d

def togglePrivacyMode (plat : Platform) (on : Bool) (implKey : String) (d : Desk) : Desk :=
  if on then d.turnOnPrivacy plat implKey else d.turnOffPrivacy plat

/-! ### Options -/

/-- A field of an option message: an unset or unknown value does nothing. -/
def whenSet (o : BoolOption) (set : Bool → Desk → Desk) (d : Desk) : Desk :=
  match o with
  | .yes => set true d
  | .no => set false d
  | .notSet => d
  | .unknown _ => d

def setLockAfterSessionEnd (yes : Bool) (d : Desk) : Desk := { d with lockAfterSessionEnd := yes }

def setShowMyCursor (yes : Bool) (d : Desk) : Desk := { d with showMyCursor := yes }

def setEnableFileTransfer (h : Host) (yes : Bool) (d : Desk) : Desk :=
  if h.unixFileCopyPaste && !yes then d.act [.emptyFileClipboard] else d

/-- The option is for peers older than 1.2.4. -/
def setPrivacyMode (h : Host) (plat : Platform) (yes : Bool) (d : Desk) : Desk :=
  if h.getVersionNumber d.conn.gate.lr.version < h.getVersionNumber "1.2.4" &&
      d.conn.feed.keyboard then
    d.togglePrivacyMode plat yes ""
  else d

def setBlockInput (yes : Bool) (d : Desk) : Desk :=
  if d.conn.feed.keyboard && d.conn.feed.blockInput then d.act [.blockInput yes] else d

/-- `update_options`, the part that `Feed.updateOptions` leaves out. -/
def updateOptions (h : Host) (plat : Platform) (o : OptionMessage) (d : Desk) : Desk :=
  let d := whenSet o.lockAfterSessionEnd setLockAfterSessionEnd d
  let d := whenSet o.enableFileTransfer (setEnableFileTransfer h) d
  let d := whenSet o.privacyMode (setPrivacyMode h plat) d
  let d := whenSet o.blockInput setBlockInput d
  if h.mobile then d else whenSet o.showMyCursor setShowMyCursor d

/-! ### Input -/

def mouseEvent (h : Host) (me : MouseEvent) (d : Desk) : Desk :=
  if d.conn.gate.authedConnType = some .viewCamera then d
  else if h.mobile then d.act [.mainServicePointer "mouse" me.mask me.x me.y]
  else if d.conn.feed.peerKeyboardEnabled then d.act [.mouse me true d.showMyCursor]
  else if d.showMyCursor then d.act [.mouse me false true]
  else d

def pointerDeviceEvent (h : Host) (pde : PointerDeviceEvent) (d : Desk) : Desk :=
  if d.conn.gate.authedConnType = some .viewCamera then d
  else if h.mobile then
    match pde with
    | .panStart x y => d.act [.mainServicePointer "touch" 4 x y]
    | .panUpdate x y => d.act [.mainServicePointer "touch" 5 x y]
    | .panEnd x y => d.act [.mainServicePointer "touch" 6 x y]
    | _ => d
  else if d.conn.feed.peerKeyboardEnabled then d.act [.pointer pde]
  else d

def keyPress (h : Host) (plat : Platform) (ke : KeyEvent) : Bool :=
  let isPress := if h.linux then (ke.press || ke.down) && !plat.isModifier ke else ke.press
  isPress && match ke.union with
    | .unicode _ => false
    | .seq _ => false
    | _ => true

def keyEvent (h : Host) (plat : Platform) (ke : KeyEvent) (d : Desk) : Desk :=
  if d.conn.gate.authedConnType = some .viewCamera then d
  else if h.mobile then if plat.ios then d else d.act [.mainServiceKey ke]
  else if d.conn.feed.peerKeyboardEnabled then d.act [.key ke (keyPress h plat ke)]
  else d

/-! ### Clipboard, files and terminals -/

def updateClipboard (cbs : List Bytes) (d : Desk) : Desk :=
  if d.conn.gate.authedConnType = some .remote && d.conn.feed.clipboardEnabled then
    d.act [.updateClipboard cbs]
  else d

/-- The session is not asked for its type here. -/
def cliprdr (h : Host) (plat : Platform) (clip : Cliprdr) (d : Desk) : Desk :=
  match clip with
  | .files => d
  | .clip body =>
    if plat.isClip body && (h.windows || (h.unixFileCopyPaste &&
        h.getVersionNumber "1.3.8" ≤ h.getVersionNumber d.conn.gate.lr.version)) then
      d.act [.clipboardFile body]
    else d

def oneWayRefuses : FileAction → Bool
  | .send _ _ _ _ _ => true
  | .removeFile _ _ _ => true
  | .rename _ _ _ => true
  | .create _ _ => true
  | .removeDir _ _ _ => true
  | _ => false

def isPrinterSend : FileAction → Bool
  | .send _ _ printer _ _ => printer
  | _ => false

/-- Until a Windows session is chosen the last directory asked for waits and
other actions are dropped. -/
def fileAction (h : Host) (plat : Platform) (fa : FileAction) (d : Desk) : Desk :=
  if d.conn.gate.fileTransfer.isSome || isPrinterSend fa then
    if d.delayedReadDir.isSome then
      match fa with
      | .readDir path includeHidden => { d with delayedReadDir := some (path, includeHidden) }
      | _ => d
    else if h.oneWayFileTransfer && oneWayRefuses fa then d
    else
      match fa with
      | .send _ path true _ _ => if plat.printerData path then d.act [.fileAction fa] else d
      | .unset => d
      | _ => d.act [.fileAction fa]
  else d

def fileResponse (fr : FileResponse) (d : Desk) : Desk :=
  match fr with
  | .other => d
  | _ => d.act [.fileResponse fr]

def handleTerminalAction (h : Host) (action : Bytes) (d : Desk) : Desk :=
  if !h.mobile && d.conn.gate.terminalUserToken then d.act [.terminalAction action] else d

def selectedSid (h : Host) (env : Env) (d : Desk) : Desk :=
  if h.windows && env.sessionSwitch = some false && d.conn.gate.fileTransfer.isSome then
    match d.delayedReadDir with
    | some (dir, showHidden) =>
      ({ d with delayedReadDir := none } : Desk).act [.fileAction (.readDir dir showHidden)]
    | none => d
  else d

/-! ### The loop -/

def handleElevationRequest (h : Host) (env : Env) (plat : Platform) (d : Desk) : Desk :=
  if h.windows && d.conn.feed.keyboard && !env.isInstalled && !plat.portableServiceRunning then
    d.act [.startPortableService]
  else d

/-- The handlers that are reached only by an authorized connection. -/
def authorizedPacket (h : Host) (env : Env) (plat : Platform) (p : Packet) (d : Desk) : Desk :=
  if d.conn.gate.portForwardSocket.isSome then d
  else
    match p with
    | .mouseEvent me => d.mouseEvent h me
    | .pointerDeviceEvent pde => d.pointerDeviceEvent h pde
    | .keyEvent ke => d.keyEvent h plat ke
    | .clipboard cb => d.updateClipboard [cb]
    | .multiClipboards cbs => if h.mobile && plat.ios then d else d.updateClipboard cbs
    | .cliprdr clip => d.cliprdr h plat clip
    | .fileAction fa => d.fileAction h plat fa
    | .fileResponse fr => d.fileResponse fr
    | .terminalAction action => d.handleTerminalAction h action
    | .switchDisplay display r =>
      if d.conn.feed.displayIdx ≠ display && !h.mobile && !d.conn.gate.viewCamera &&
          r.width ≠ 0 && r.height ≠ 0 then
        d.changeResolution plat display r
      else d
    | .togglePrivacyMode on implKey =>
      if d.conn.gate.viewCamera then d else d.togglePrivacyMode plat on implKey
    | .toggleVirtualDisplay on display =>
      if h.windows && !d.conn.gate.viewCamera then d.toggleVirtualDisplay plat on display else d
    | .changeResolution r =>
      if !h.mobile && !d.conn.gate.viewCamera then
        d.changeResolution plat d.conn.feed.displayIdx r
      else d
    | .changeDisplayResolution display r =>
      if !h.mobile && !d.conn.gate.viewCamera then d.changeResolution plat display r else d
    | .restartRemoteDevice =>
      if !h.mobile && d.conn.feed.restart then d.act [.restartRemoteDevice] else d
    | .elevationRequest => d.handleElevationRequest h env plat
    | .rest (.option o) _ =>
      if d.conn.gate.authedConnType = some .remote then d.updateOptions h plat o
      else
        match d.conn.gate.authedConnType.bind (scopedUpdateOptionMessage · o) with
        | some o => d.updateOptions h plat o
        | none => d
    | .rest (.selectedSid _) _ => d.selectedSid h env
    | .rest _ _ => d

/-- `on_message`. The login request, the second factor, the delay test and the
switch of sides do nothing to the host; see `logon` for what follows them. -/
def onMessage (h : Host) (env : Env) (plat : Platform) (p : Packet) (d : Desk) : Desk :=
  if p.message = .closeReason then d.onClose h true
  else if d.conn.gate.authorized && Connection.isLoginRequest p.message then d
  else if d.conn.gate.authorized && d.conn.authorizedScopeViolation h p.message then
    if env.scopeViolationClose then d.onClose h true else d
  else if d.conn.gate.authorized then d.authorizedPacket h env plat p
  else d

def optionsInLogin (c : Connection) : Connection.Input → Option OptionMessage
  | .message (.loginRequest lr) => lr.option.or c.gate.optionsInLogin
  | .message (.switchSidesResponse (some lr) _) => lr.option.or c.gate.optionsInLogin
  | _ => c.gate.optionsInLogin

/-- The options of the login, in the scope of the session. -/
def updateScopedLoginOptions (h : Host) (plat : Platform) (o : Option OptionMessage) (d : Desk) :
    Desk :=
  match o.bind fun o => d.conn.gate.authedConnType.bind (scopedLoginOption · o) with
  | some o => d.updateOptions h plat o
  | none => d

/-- The end of `send_logon_response_and_keep_alive`, after the answer to the
peer: the options of the login and the directory of a file transfer. -/
def logon (h : Host) (env : Env) (plat : Platform) (o : Option OptionMessage) (d : Desk) : Desk :=
  if d.conn.gate.portForwardSocket.isSome ||
      (h.linux && d.conn.gate.isRemote && env.displayServerError ≠ "") then d
  else
    let d := d.updateScopedLoginOptions h plat o
    match d.conn.gate.fileTransfer with
    | some (dir, showHidden) =>
      let dir := if dir ≠ "" && plat.isDir dir then dir else ""
      if h.windows && !d.conn.gate.terminal && env.waitSessionIdConfirm then
        { d with delayedReadDir := some (dir, showHidden) }
      else d.act [.fileAction (.readDir dir showHidden)]
    | none => d

def isMessage : Connection.Input → Bool
  | .message _ => true
  | _ => false

inductive Event where
  | packet (p : Packet)
  | input (i : Connection.Input) (other : isMessage i = false)

def Event.toInput : Event → Connection.Input
  | .packet p => .message p.message
  | .input i _ => i

def handle (h : Host) (env : Env) (plat : Platform) (e : Event) (d : Desk) : Desk :=
  match d.conn.phase, e with
  | .running, .packet p => d.onMessage h env plat p
  | _, _ => d

def subscribed (before after : Connection) : List Effect :=
  (after.feed.server.subs.filter (· ∉ before.feed.server.subs)).map .subscribe

/-- The connection takes its step; if that authorizes it, the logon follows. -/
def advance (h : Host) (env : Env) (plat : Platform) (i : Connection.Input) (before : Connection)
    (d : Desk) : Desk :=
  let after := before.step h (env, i)
  let d := ({ d with conn := after } : Desk).act (subscribed before after)
  if !before.gate.authorized && after.gate.authorized then
    d.logon h env plat (optionsInLogin before i)
  else d

def step (h : Host) (d : Desk) (x : Env × Platform × Event) : Desk :=
  (d.handle h x.1 x.2.1 x.2.2).advance h x.1 x.2.1 x.2.2.toInput d.conn

def start (h : Host) (env : Env) (controlPermissions : Option ℕ) (require2fa : Bool)
    (services : List Service) (tables : Tables) : Desk :=
  { conn := .start h env controlPermissions require2fa services tables }

end Desk
end CodeDesk.Conn
