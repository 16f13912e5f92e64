/-
# What a connection is fed

The services of the server (`src/server.rs`) and one connection's place in
them: its permissions, the options it set, its voice call and the set of
services it is subscribed to. The functions are those of
`src/server/connection.rs` that touch nothing else of a connection; what
they read of the login (the authorized type, whether the session is a remote
one) is an argument.
-/
import CodeDesk.Conn.Message

namespace CodeDesk.Conn

inductive VideoSource where
  | monitor
  | camera
  deriving DecidableEq, Repr

inductive Service where
  | audio
  | display
  | clipboard
  | fileClipboard
  | cursor
  | pos
  | windowFocus
  | printer
  | video (source : VideoSource) (idx : ℕ)
  deriving DecidableEq, Repr

def Service.isVideo : Service → Bool
  | .video _ _ => true
  | _ => false

/-- What does not change while the process runs: how it was built, its
built-in options, its id, and for a connection the password hash with its
salt and challenge. -/
structure Host where
  windows : Bool := false
  linux : Bool := true
  macos : Bool := false
  mobile : Bool := false
  flutter : Bool := true
  unixFileCopyPaste : Bool := true
  oneWayClipboard : Bool := false
  oneWayFileTransfer : Bool := false
  primaryDisplayIdx : ℕ := 0
  id : String := ""
  isDirectIpAccess : String → Bool
  getVersionNumber : String → ℤ
  passwordHash : String → Bytes

/-! ### The server -/

/-- The services of the server and those that have this connection as a
subscriber. Services are added and never taken away. -/
structure Server where
  services : List Service
  subs : List Service
  subs_services : ∀ s ∈ subs, s ∈ services

namespace Server

def onSubscribe (v : Server) (s : Service) (hs : s ∈ v.services) : Server :=
  if s ∈ v.subs then v
  else { v with
    subs := s :: v.subs
    subs_services := List.forall_mem_cons.2 ⟨hs, v.subs_services⟩ }

def onUnsubscribe (s : Service) (v : Server) : Server :=
  { v with
    subs := v.subs.filter (· ≠ s)
    subs_services := fun x hx => v.subs_services x (List.mem_filter.1 hx).1 }

/-- Nothing happens for a service the server does not have. -/
def subscribe (s : Service) (sub : Bool) (v : Server) : Server :=
  if hs : s ∈ v.services then
    if decide (s ∈ v.subs) = sub then v
    else if sub then v.onSubscribe s hs
    else v.onUnsubscribe s
  else v

def addService (s : Service) (v : Server) : Server :=
  if s ∈ v.services then v
  else { v with
    services := s :: v.services
    subs_services := fun x hx => List.mem_cons_of_mem _ (v.subs_services x hx) }

/-- `add_connection`: every service but the other displays and those in
`noperms`. -/
def addConnection (h : Host) (noperms : List Service) (v : Server) : Server :=
  let wanted := v.services.filter fun s =>
    !(s.isVideo && s ≠ .video .monitor h.primaryDisplayIdx) && s ∉ noperms
  { v with
    subs := wanted.filter (· ∉ v.subs) ++ v.subs
    subs_services := by
      intro s hs
      rcases List.mem_append.1 hs with hs | hs
      · exact (List.mem_filter.1 (List.mem_filter.1 hs).1).1
      · exact v.subs_services s hs }

def addCameraConnection (primaryCamera : Bool) (v : Server) : Server :=
  if primaryCamera then v.subscribe (.video .camera 0) true else v

def removeConnection (v : Server) : Server :=
  { v with
    subs := []
    subs_services := by simp }

def captureDisplay (names : List Service) (inc exc : Bool) (v : Server) (s : Service) : Server :=
  if s ∈ names then if inc then v.subscribe s true else v
  else if exc then v.subscribe s false else v

def captureDisplays (names : List Service) (inc exc : Bool) (v : Server) : Server :=
  (v.services.filter Service.isVideo).foldl (captureDisplay names inc exc) v

end Server

/-! ### The connection's side -/

structure Feed where
  keyboard : Bool
  clipboard : Bool
  audio : Bool
  file : Bool
  restart : Bool
  recording : Bool
  blockInput : Bool
  privacyMode : Bool
  showRemoteCursor : Bool := false
  followRemoteWindow : Bool := false
  disableKeyboard : Bool := false
  disableClipboard : Bool := false
  disableAudio : Bool := false
  enableFileTransfer : Bool := false
  terminalPersistent : Bool := false
  voiceCallRequestTimestamp : Option ℤ := none
  voiceCalling : Bool := false
  servicesSubed : Bool := false
  multiUiSession : Bool := false
  displayIdx : ℕ
  server : Server

namespace Feed

def peerKeyboardEnabled (f : Feed) : Bool := f.keyboard && !f.disableKeyboard

def clipboardEnabled (f : Feed) : Bool := f.clipboard && !f.disableClipboard

def canSubClipboardService (h : Host) (f : Feed) : Bool :=
  f.clipboardEnabled && f.peerKeyboardEnabled && !h.oneWayClipboard

def audioEnabled (f : Feed) : Bool := f.audio && !f.disableAudio

def fileTransferEnabled (f : Feed) : Bool := f.file && f.enableFileTransfer

def canSubFileClipboardService (h : Host) (f : Feed) : Bool :=
  f.clipboardEnabled && f.fileTransferEnabled && !h.oneWayFileTransfer

def subscribe (s : Service) (sub : Bool) (f : Feed) : Feed :=
  { f with server := f.server.subscribe s sub }

/-! ### Subscribing after the login -/

def noperms (h : Host) (f : Feed) : List Service :=
  (if !f.peerKeyboardEnabled && !f.showRemoteCursor then [.cursor] else []) ++
  (if !f.showRemoteCursor then [.pos] else []) ++
  (if !f.followRemoteWindow then [.windowFocus] else []) ++
  (if !f.canSubClipboardService h then [.clipboard] else []) ++
  (if h.unixFileCopyPaste && !f.canSubFileClipboardService h then [.fileClipboard] else []) ++
  (if !f.audioEnabled then [.audio] else [])

def trySubMonitorServices (h : Host) (isRemote : Bool) (f : Feed) : Feed :=
  if isRemote && !f.servicesSubed then
    { f with
      servicesSubed := true
      server := (f.server.addService (.video .monitor h.primaryDisplayIdx)).addConnection h
        (f.noperms h) }
  else f

def trySubCameraDisplays (primaryCamera : Bool) (f : Feed) : Feed :=
  let server := if primaryCamera then f.server.addService (.video .camera 0) else f.server
  { f with server := server.addCameraConnection primaryCamera }

/-! ### Options -/

/-- A field of an option message: an unset or unknown value changes nothing. -/
def whenSet (o : BoolOption) (set : Bool → Feed → Feed) (f : Feed) : Feed :=
  match o with
  | .yes => set true f
  | .no => set false f
  | .notSet => f
  | .unknown _ => f

theorem whenSet_ind {o : BoolOption} {set : Bool → Feed → Feed} {f : Feed} {P : Feed → Prop}
    (hf : P f) (hset : ∀ yes, P (set yes f)) : P (whenSet o set f) := by
  cases o with
  | yes => exact hset true
  | no => exact hset false
  | notSet | unknown => exact hf

/-- The audio service after a change of the audio permission or option. -/
def subAudio (t : Option AuthConnType) (f : Feed) : Feed :=
  if t = some .viewCamera then
    if f.voiceCalling || !f.audioEnabled then f.subscribe .audio f.audioEnabled else f
  else f.subscribe .audio f.audioEnabled

def setShowRemoteCursor (yes : Bool) (f : Feed) : Feed :=
  let f := { f with showRemoteCursor := yes }
  (f.subscribe .cursor (f.peerKeyboardEnabled || f.showRemoteCursor)).subscribe .pos
    f.showRemoteCursor

def setFollowRemoteWindow (yes : Bool) (f : Feed) : Feed :=
  ({ f with followRemoteWindow := yes } : Feed).subscribe .windowFocus yes

def setDisableAudio (t : Option AuthConnType) (yes : Bool) (f : Feed) : Feed :=
  ({ f with disableAudio := yes } : Feed).subAudio t

def setEnableFileTransfer (h : Host) (yes : Bool) (f : Feed) : Feed :=
  let f := { f with enableFileTransfer := yes }
  if h.unixFileCopyPaste then f.subscribe .fileClipboard (f.canSubFileClipboardService h) else f

def setDisableClipboard (h : Host) (yes : Bool) (f : Feed) : Feed :=
  let f := { f with disableClipboard := yes }
  f.subscribe .clipboard (f.canSubClipboardService h)

def setDisableKeyboard (h : Host) (yes : Bool) (f : Feed) : Feed :=
  let f := { f with disableKeyboard := yes }
  let f := f.subscribe .clipboard (f.canSubClipboardService h)
  let f :=
    if h.unixFileCopyPaste then f.subscribe .fileClipboard (f.canSubFileClipboardService h) else f
  f.subscribe .cursor (f.peerKeyboardEnabled || f.showRemoteCursor)

/-- `update_options`: the fields in the order of the source. Image quality,
frame rate and codec, privacy mode, blocked input and the whiteboard cursor
go to other components. -/
def updateOptions (h : Host) (t : Option AuthConnType) (o : OptionMessage) (f : Feed) : Feed :=
  let f := if h.mobile then f else whenSet o.showRemoteCursor setShowRemoteCursor f
  let f := whenSet o.followRemoteWindow setFollowRemoteWindow f
  let f := whenSet o.disableAudio (setDisableAudio t) f
  let f :=
    if h.windows || h.unixFileCopyPaste then
      whenSet o.enableFileTransfer (setEnableFileTransfer h) f
    else f
  let f := whenSet o.disableClipboard (setDisableClipboard h) f
  let f := whenSet o.disableKeyboard (setDisableKeyboard h) f
  if h.mobile then f
  else whenSet o.terminalPersistent (fun yes f => { f with terminalPersistent := yes }) f

/-! ### Displays -/

def videoSource (viewCamera : Bool) : VideoSource := if viewCamera then .camera else .monitor

def switchDisplayTo (h : Host) (source : VideoSource) (multiUi : Bool) (display : ℕ) (f : Feed) :
    Feed :=
  let old := f.displayIdx
  let f :=
    if display ≠ h.primaryDisplayIdx then
      { f with server := f.server.addService (.video source display) }
    else f
  let f := if multiUi then f else f.subscribe (.video source old) false
  { f.subscribe (.video source display) true with displayIdx := display }

def handleSwitchDisplay (h : Host) (source : VideoSource) (multiUi : Bool) (display : ℕ)
    (f : Feed) : Feed :=
  if f.displayIdx ≠ display then f.switchDisplayTo h source multiUi display else f

def captureDisplays (source : VideoSource) (add sub set : List ℕ) (f : Feed) : Feed :=
  let server := (add ++ set).foldl (fun v d => v.addService (.video source d)) f.server
  let server :=
    if add ≠ [] then server.captureDisplays (add.map (.video source)) true false
    else if sub ≠ [] then server.captureDisplays (sub.map (.video source)) false true
    else server.captureDisplays (set.map (.video source)) true true
  let f := { f with
    server := server
    multiUiSession := 1 < (server.subs.filter Service.isVideo).length }
  if f.followRemoteWindow then f.subscribe .windowFocus (!f.multiUiSession) else f

/-! ### Voice calls and permission switches -/

def handleVoiceCall (t : Option AuthConnType) (accepted : Bool) (f : Feed) : Feed :=
  match f.voiceCallRequestTimestamp with
  | some _ =>
    let f := { f with voiceCallRequestTimestamp := none, voiceCalling := accepted }
    if t = some .viewCamera then f.subscribe .audio (f.audioEnabled && accepted) else f
  | none => f

def closeVoiceCall (t : Option AuthConnType) (f : Feed) : Feed :=
  let f := { f with voiceCalling := false }
  if t = some .viewCamera then f.subscribe .audio false else f

/-- The names a `SwitchPermission` of the connection manager can have. -/
inductive Switch where
  | keyboard
  | clipboard
  | audio
  | file
  | restart
  | recording
  | blockInput
  | privacyMode
  | other
  deriving DecidableEq, Repr

/-- `SwitchPermission`. Leaving privacy mode can fail, which keeps that
permission (`privacyLeft`). -/
def switchPermission (h : Host) (authorized : Bool) (t : Option AuthConnType) (privacyLeft : Bool)
    (name : Switch) (enabled : Bool) (f : Feed) : Feed :=
  match name with
  | .keyboard =>
    let f := { f with keyboard := enabled }
    let f := f.subscribe .clipboard (f.canSubClipboardService h)
    let f :=
      if h.unixFileCopyPaste then f.subscribe .fileClipboard (f.canSubFileClipboardService h) else f
    f.subscribe .cursor (enabled || f.showRemoteCursor)
  | .clipboard =>
    let f := { f with clipboard := enabled }
    f.subscribe .clipboard (f.canSubClipboardService h)
  | .audio =>
    let f := { f with audio := enabled }
    if authorized then f.subAudio t else f
  | .file =>
    let f := { f with file := enabled }
    if h.unixFileCopyPaste then f.subscribe .fileClipboard (f.canSubFileClipboardService h) else f
  | .restart => { f with restart := enabled }
  | .recording => { f with recording := enabled }
  | .blockInput => { f with blockInput := enabled }
  | .privacyMode => if enabled || privacyLeft then { f with privacyMode := enabled } else f
  | .other => f

end Feed
end CodeDesk.Conn
