/-
# Messages of a controlled connection

What a peer can send to the controlled side, as far as
`src/server/connection.rs` decides by it, and the functions that confine an
authorized connection to its session type: `authorized_message_scope_violation`
and the scoped options. An enum field of a protobuf message can hold a number
its enum does not have (`unknown`).
-/
import Mathlib.Data.Int.Basic

namespace CodeDesk.Conn

abbrev Bytes := List UInt8

inductive AuthConnType where
  | remote
  | fileTransfer
  | portForward
  | viewCamera
  | terminal
  deriving DecidableEq, Repr

inductive BoolOption where
  | notSet
  | no
  | yes
  | unknown (n : ℤ)
  deriving DecidableEq, Repr

inductive ImageQuality where
  | notSet
  | low
  | balanced
  | best
  | unknown (n : ℤ)
  deriving DecidableEq, Repr

structure OptionMessage where
  imageQuality : ImageQuality := .notSet
  lockAfterSessionEnd : BoolOption := .notSet
  showRemoteCursor : BoolOption := .notSet
  privacyMode : BoolOption := .notSet
  blockInput : BoolOption := .notSet
  customImageQuality : ℤ := 0
  disableAudio : BoolOption := .notSet
  disableClipboard : BoolOption := .notSet
  enableFileTransfer : BoolOption := .notSet
  supportedDecoding : Option Bytes := none
  customFps : ℤ := 0
  disableKeyboard : BoolOption := .notSet
  followRemoteCursor : BoolOption := .notSet
  followRemoteWindow : BoolOption := .notSet
  disableCamera : BoolOption := .notSet
  terminalPersistent : BoolOption := .notSet
  showMyCursor : BoolOption := .notSet
  deriving DecidableEq, Repr

inductive LoginUnion where
  | fileTransfer (dir : String) (showHidden : Bool)
  | viewCamera
  | terminal (serviceId : String)
  | portForward (host : String) (port : ℤ)
  deriving DecidableEq, Repr

structure LoginRequest where
  username : String := ""
  password : Bytes := []
  myId : String := ""
  myName : String := ""
  myPlatform : String := ""
  hwid : Bytes := []
  sessionId : ℕ := 0
  version : String := ""
  avatar : String := ""
  osUsername : String := ""
  option : Option OptionMessage := none
  union : Option LoginUnion := none
  deriving DecidableEq, Repr

/-- The messages whose handlers change nothing of the model; they are told
apart where the scope of a session does. -/
inductive Plain where
  | mouseEvent
  | pointerDeviceEvent
  | keyEvent
  | audioFrame
  | clipboard
  | multiClipboards
  | fileAction
  | fileResponse
  | voiceCallResponse
  | screenshotRequest
  | terminalAction
  | refreshVideo
  | refreshVideoDisplay
  | videoReceived
  | chatMessage
  | audioFormat
  | clientRecordStatus
  | messageQuery
  | togglePrivacyMode
  | toggleVirtualDisplay
  | changeResolution
  | changeDisplayResolution
  | other
  deriving DecidableEq, Repr

inductive Message where
  | closeReason
  | loginRequest (lr : LoginRequest)
  | auth2fa (code : String) (hwid : Bytes)
  | testDelay (fromClient : Bool)
  | switchSidesResponse (lr : Option LoginRequest) (uuid : Option ℕ)
  | switchSidesRequest (uuid : Option ℕ)
  | option (o : OptionMessage)
  | switchDisplay (display : ℕ)
  | captureDisplays (add sub set : List ℕ)
  | voiceCallRequest (isConnect : Bool) (reqTimestamp : ℤ)
  | selectedSid (sid : ℕ)
  | plain (p : Plain)
  deriving DecidableEq, Repr

/-! ### Options in scope -/

def optionHasNonViewCameraLoginField (o : OptionMessage) : Bool :=
  !(o.lockAfterSessionEnd == .notSet && o.showRemoteCursor == .notSet && o.privacyMode == .notSet &&
    o.blockInput == .notSet && o.disableClipboard == .notSet && o.enableFileTransfer == .notSet &&
    o.disableKeyboard == .notSet && o.followRemoteCursor == .notSet &&
    o.followRemoteWindow == .notSet && o.disableCamera == .notSet &&
    o.terminalPersistent == .notSet && o.showMyCursor == .notSet)

def optionHasNonTerminalLoginField (o : OptionMessage) : Bool :=
  o.imageQuality != .notSet || o.customImageQuality != 0 || o.customFps != 0 ||
    o.supportedDecoding.isSome || o.lockAfterSessionEnd != .notSet ||
    o.showRemoteCursor != .notSet || o.privacyMode != .notSet || o.blockInput != .notSet ||
    o.disableAudio != .notSet || o.disableClipboard != .notSet || o.enableFileTransfer != .notSet ||
    o.disableKeyboard != .notSet || o.followRemoteCursor != .notSet ||
    o.followRemoteWindow != .notSet || o.disableCamera != .notSet || o.showMyCursor != .notSet

def optionHasAnyField (o : OptionMessage) : Bool :=
  optionHasNonTerminalLoginField o || o.terminalPersistent != .notSet

def isSupportedDecodingOnlyOption (o : OptionMessage) : Bool :=
  o.supportedDecoding.isSome && o.imageQuality == .notSet && o.customImageQuality == 0 &&
    o.customFps == 0 && o.lockAfterSessionEnd == .notSet && o.showRemoteCursor == .notSet &&
    o.privacyMode == .notSet && o.blockInput == .notSet && o.disableAudio == .notSet &&
    o.disableClipboard == .notSet && o.enableFileTransfer == .notSet &&
    o.disableKeyboard == .notSet && o.followRemoteCursor == .notSet &&
    o.followRemoteWindow == .notSet && o.disableCamera == .notSet &&
    o.terminalPersistent == .notSet && o.showMyCursor == .notSet

def viewCameraFields (o : OptionMessage) : OptionMessage :=
  { imageQuality := match o.imageQuality with
      | .unknown _ => .notSet
      | q => q
    customImageQuality := if 0 ≤ o.customImageQuality then o.customImageQuality else 0
    customFps := if 0 ≤ o.customFps then o.customFps else 0
    supportedDecoding := o.supportedDecoding
    disableAudio := match o.disableAudio with
      | .unknown _ => .notSet
      | q => q }

def terminalFields (o : OptionMessage) : OptionMessage :=
  { terminalPersistent := match o.terminalPersistent with
      | .unknown _ => .notSet
      | q => q }

/-- The option in scope, if any field of it is set, and whether the message
had a field out of scope. -/
def scopedViewCameraOption (o : OptionMessage) : Option OptionMessage × Bool :=
  (if optionHasAnyField (viewCameraFields o) then some (viewCameraFields o) else none,
    optionHasNonViewCameraLoginField o)

def scopedTerminalLoginOption (o : OptionMessage) : Option OptionMessage × Bool :=
  let unknown := match o.terminalPersistent with
    | .unknown _ => true
    | _ => false
  (if optionHasAnyField (terminalFields o) then some (terminalFields o) else none,
    unknown || optionHasNonTerminalLoginField o)

def scopedLoginOption (t : AuthConnType) (o : OptionMessage) : Option OptionMessage :=
  match t with
  | .remote => some o
  | .viewCamera => (scopedViewCameraOption o).1
  | .terminal => (scopedTerminalLoginOption o).1
  | .fileTransfer => none
  | .portForward => none

def scopedUpdateOptionMessage (t : AuthConnType) (o : OptionMessage) : Option OptionMessage :=
  match t with
  | .viewCamera => (scopedViewCameraOption o).1
  | .terminal => (scopedTerminalLoginOption o).1
  | .remote => none
  | .fileTransfer => none
  | .portForward => none

variable {t : AuthConnType} {o s : OptionMessage}

theorem scopedLoginOption_of_update (ho : scopedUpdateOptionMessage t o = some s) :
    scopedLoginOption t o = some s := by
  cases t with
  | remote => cases ho
  | _ => exact ho

theorem scopedLoginOption_fields (ht : t ≠ .remote) (ho : scopedLoginOption t o = some s) :
    t = .viewCamera ∧ s = viewCameraFields o ∨ t = .terminal ∧ s = terminalFields o := by
  cases t with
  | remote => exact absurd rfl ht
  | viewCamera => exact .inl ⟨rfl, (Option.some.inj (Option.ite_none_right_eq_some.1 ho).2).symm⟩
  | terminal => exact .inr ⟨rfl, (Option.some.inj (Option.ite_none_right_eq_some.1 ho).2).symm⟩
  | fileTransfer | portForward => cases ho

/-! ### Messages in scope -/

def isConnectionHousekeepingMessage : Message → Bool
  | .loginRequest _ => true
  | .testDelay _ => true
  | .closeReason => true
  | _ => false

def isRenderBroadcastNoopCompatMessage : Message → Bool
  | .plain .refreshVideo => true
  | .plain .refreshVideoDisplay => true
  | .option o => isSupportedDecodingOnlyOption o
  | _ => false

def isTextClipboardNoopCompatMessage : Message → Bool
  | .plain .clipboard => true
  | .plain .multiClipboards => true
  | _ => false

def isFileTransferScopedMessage (windows : Bool) : Message → Bool
  | .plain .fileAction => true
  | .plain .fileResponse => true
  | .selectedSid _ => windows
  | _ => false

def isTerminalScopedMessage : Message → Bool
  | .plain .terminalAction => true
  | .plain .chatMessage => true
  | .option o => !(scopedTerminalLoginOption o).2
  | _ => false

def isViewCameraScopedMessage (windows : Bool) : Message → Bool
  | .plain p => p ∈ [.screenshotRequest, .mouseEvent, .pointerDeviceEvent, .keyEvent, .audioFrame,
      .voiceCallResponse, .refreshVideo, .refreshVideoDisplay, .videoReceived, .chatMessage,
      .audioFormat, .clientRecordStatus, .messageQuery, .togglePrivacyMode, .toggleVirtualDisplay,
      .changeResolution, .changeDisplayResolution]
  | .voiceCallRequest _ _ => true
  | .switchDisplay _ => true
  | .captureDisplays _ _ _ => true
  | .option o => !(scopedViewCameraOption o).2
  | .selectedSid _ => windows
  | _ => false

/-- Whether an authorized session of type `t` refuses the message. -/
def authorizedMessageScopeViolation (windows : Bool) (t : AuthConnType) (m : Message) : Bool :=
  if isConnectionHousekeepingMessage m then false
  else
    let noopCompat := match t with
      | .fileTransfer => isRenderBroadcastNoopCompatMessage m || isTextClipboardNoopCompatMessage m
      | .terminal => isRenderBroadcastNoopCompatMessage m || isTextClipboardNoopCompatMessage m
      | .portForward => isRenderBroadcastNoopCompatMessage m
      | .viewCamera => isTextClipboardNoopCompatMessage m
      | .remote => false
    if noopCompat then false
    else
      match t with
      | .remote => false
      | .fileTransfer => !isFileTransferScopedMessage windows m
      | .portForward => true
      | .viewCamera => !isViewCameraScopedMessage windows m
      | .terminal => !isTerminalScopedMessage m

end CodeDesk.Conn
