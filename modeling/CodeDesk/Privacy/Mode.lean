/-
# Privacy mode on macOS

The static `PRIVACY_MODE` of `privacy_mode.rs` and its macOS implementation
(`privacy_mode/macos.rs`), and what a connection does with them
(`Connection::turn_on_privacy`, `turn_off_privacy`, the `privacy_mode` branch of
`SwitchPermission`, the end of the main loop).

`PRIVACY_MODE` is behind a mutex that each function of `privacy_mode.rs` takes and
gives back, so a request of a connection is a row of locked sections, and other
connections run between them. A connection therefore has a `Phase`, the section it
is about to enter, and an `Event` is one section of one connection. Where a request
takes the lock twice only to read the owner and the key, the two reads are one
section.

`MacSetPrivacyMode` is a call into the system: `Env.sys n` is what the `n`-th call
that has something to do comes back with.
-/
import Mathlib.Data.Int.Notation
import Mathlib.Data.Nat.Notation
import Mathlib.Logic.Function.Basic

namespace CodeDesk.Privacy

/-! ### The system call -/

/-- What `macos.mm` keeps (`g_privacyModeActive`: displays black, input blocked) and
the number of calls that had something to do. -/
structure Mac where
  active : Bool := false
  calls : ℕ := 0

/-- What the process is given: how the system calls end, and the option
`privacy-mode-impl-key`. -/
structure Env where
  sys : ℕ → Bool
  implKeyOption : String := ""

def Env.NeverFails (env : Env) : Prop := ∀ n, env.sys n = true

/-- `MacSetPrivacyMode`. Switching on undoes what it did when a display cannot be
blacked out; switching off forgets that privacy mode was active also when a display
could not be restored. -/
def Env.macSetPrivacyMode (env : Env) (m : Mac) (on : Bool) : Mac × Bool :=
  if on then
    if m.active then (m, true)
    else ({ active := env.sys m.calls, calls := m.calls + 1 }, env.sys m.calls)
  else
    if !m.active then (m, true)
    else ({ active := false, calls := m.calls + 1 }, env.sys m.calls)

/-! ### The implementation -/

def invalidPrivacyModeConnId : ℤ := 0

inductive Error
  | occupied
  | turnOffOtherId
  | failedToTurnOn
  | failedToTurnOff
  | unsupported (implKey : String)
  deriving DecidableEq

def Error.text : Error → String
  | occupied => "Privacy occupied by another one."
  | turnOffOtherId => "Failed to turn off privacy mode that belongs to someone else."
  | failedToTurnOn => "Failed to turn on privacy mode"
  | failedToTurnOff => "Failed to turn off privacy mode"
  | unsupported implKey => "Unsupported privacy mode: " ++ implKey

def privacyModeImpl : String := "privacy_mode_impl_macos"

structure PrivacyModeImpl where
  implKey : String
  connId : ℤ := invalidPrivacyModeConnId
  deriving DecidableEq

namespace PrivacyModeImpl

def checkOnConnId (p : PrivacyModeImpl) (connId : ℤ) : Except Error Bool :=
  if p.connId = connId then .ok true
  else if p.connId ≠ invalidPrivacyModeConnId then .error .occupied
  else .ok false

def checkOffConnId (p : PrivacyModeImpl) (connId : ℤ) : Except Error Unit :=
  if p.connId ≠ invalidPrivacyModeConnId ∧ connId ≠ invalidPrivacyModeConnId ∧
      p.connId ≠ connId then
    .error .turnOffOtherId
  else .ok ()

def turnOnPrivacy (env : Env) (p : PrivacyModeImpl) (m : Mac) (connId : ℤ) :
    PrivacyModeImpl × Mac × Except Error Bool :=
  match p.checkOnConnId connId with
  | .error e => (p, m, .error e)
  | .ok true => (p, m, .ok true)
  | .ok false =>
    match env.macSetPrivacyMode m true with
    | (m, false) => (p, m, .error .failedToTurnOn)
    | (m, true) => ({ p with connId := connId }, m, .ok true)

def turnOffPrivacy (env : Env) (p : PrivacyModeImpl) (m : Mac) (connId : ℤ) :
    PrivacyModeImpl × Mac × Except Error Unit :=
  match p.checkOffConnId connId with
  | .error e => (p, m, .error e)
  | .ok () =>
    match env.macSetPrivacyMode m false with
    | (m, false) => (p, m, .error .failedToTurnOff)
    | (m, true) => ({ p with connId := invalidPrivacyModeConnId }, m, .ok ())

end PrivacyModeImpl

/-! ### The static -/

def getSupportedPrivacyModeImpl : List (String × String) :=
  [(privacyModeImpl, "privacy_mode_impl_macos_tip")]

def defaultPrivacyModeImpl : String := privacyModeImpl

def privacyModeCreator (implKey : String) : Option PrivacyModeImpl :=
  if implKey = privacyModeImpl then some { implKey := implKey } else none

/-- The option, when it names a supported implementation, and otherwise the default. -/
def Env.fallbackImpl (env : Env) : String :=
  if getSupportedPrivacyModeImpl.any fun i => i.1 == env.implKeyOption then env.implKeyOption
  else defaultPrivacyModeImpl

def Env.getSupportedImpl (env : Env) (implKey : String) : String :=
  if getSupportedPrivacyModeImpl.any fun i => i.1 == implKey then implKey else env.fallbackImpl

def isPrivacyModeSupported : Bool := !defaultPrivacyModeImpl.isEmpty

structure Store where
  privacyMode : Option PrivacyModeImpl
  mac : Mac

namespace Store

def init (env : Env) : Store where
  privacyMode := privacyModeCreator env.fallbackImpl
  mac := {}

def getPrivacyModeConnId (st : Store) : Option ℤ := st.privacyMode.map (·.connId)

def getCurImplKey (st : Store) : Option String := st.privacyMode.map (·.implKey)

def isInPrivacyMode (st : Store) : Bool :=
  (st.privacyMode.map fun p => decide (p.connId ≠ invalidPrivacyModeConnId)).getD false

def isCurrentPrivacyModeImpl (st : Store) (implKey : String) : Bool :=
  (st.privacyMode.map fun p => p.implKey == implKey).getD false

/-- The turn-on at the end of `turn_on_privacy_sync`. -/
def turnOnCurrent (env : Env) (st : Store) (connId : ℤ) : Store × Option (Except Error Bool) :=
  match st.privacyMode with
  | none => (st, none)
  | some p =>
    match p.turnOnPrivacy env st.mac connId with
    | (p, m, r) => ({ privacyMode := some p, mac := m }, some r)

/-- A new implementation takes the place of the current one. The old one is cleared,
and cleared again when it is dropped. -/
def replace (env : Env) (st : Store) (p : PrivacyModeImpl) : Store where
  privacyMode := some p
  mac := match st.privacyMode with
    | none => st.mac
    | some _ => (env.macSetPrivacyMode (env.macSetPrivacyMode st.mac false).1 false).1

/-- `turn_on_privacy_sync` once the current implementation has let the connection
through: another implementation is created first. -/
def switchAndTurnOn (env : Env) (st : Store) (cur implKey : String) (connId : ℤ) :
    Store × Option (Except Error Bool) :=
  if cur ≠ implKey then
    match privacyModeCreator implKey with
    | some p => (st.replace env p).turnOnCurrent env connId
    | none => (st, some (.error (.unsupported implKey)))
  else st.turnOnCurrent env connId

/-- `turn_on_privacy`, which is `turn_on_privacy_sync` for an implementation that is
not asynchronous. -/
def turnOnPrivacy (env : Env) (st : Store) (implKey : String) (connId : ℤ) :
    Store × Option (Except Error Bool) :=
  let implKey := env.getSupportedImpl implKey
  match st.privacyMode with
  | none => st.switchAndTurnOn env "" implKey connId
  | some p =>
    match p.checkOnConnId connId with
    | .error e => (st, some (.error e))
    | .ok true =>
      if p.implKey = implKey then (st, some (.ok true))
      else st.switchAndTurnOn env p.implKey implKey connId
    | .ok false => st.switchAndTurnOn env p.implKey implKey connId

def turnOffPrivacy (env : Env) (st : Store) (connId : ℤ) : Store × Option (Except Error Unit) :=
  match st.privacyMode with
  | none => (st, none)
  | some p =>
    match p.turnOffPrivacy env st.mac connId with
    | (p, m, r) => ({ privacyMode := some p, mac := m }, some r)

end Store

/-! ### Messages -/

inductive PrivacyModeState
  | prvNotSupported
  | prvOnSucceeded
  | prvOnFailedDenied
  | prvOnFailedPlugin
  | prvOnFailed
  | prvOffSucceeded
  | prvOffByPeer
  | prvOffFailed
  deriving DecidableEq

structure BackNotification where
  privacyModeState : PrivacyModeState
  details : String := ""
  implKey : String
  deriving DecidableEq

/-- What a connection sends: a notification or its permission to the peer, the
permission it has kept to the connection manager. -/
inductive Out
  | notify (msg : BackNotification)
  | permission (enabled : Bool)
  | toCm (enabled : Bool)
  deriving DecidableEq

def makePrivacyModeMsgWithDetails (state : PrivacyModeState) (details implKey : String) : Out :=
  .notify { privacyModeState := state, details := details, implKey := implKey }

def makePrivacyModeMsg (state : PrivacyModeState) (implKey : String) : Out :=
  makePrivacyModeMsgWithDetails state "" implKey

def unsupportedText : String :=
  "Unsupported. 1 Multi-screen is not supported. 2 Please confirm the license is activated."

def turnOffPrivacyResultToMsg (res : Option (Except Error Unit)) (implKey : String) : Out :=
  match res with
  | some (.ok ()) => makePrivacyModeMsg .prvOffSucceeded implKey
  | some (.error e) => makePrivacyModeMsgWithDetails .prvOffFailed e.text implKey
  | none => makePrivacyModeMsgWithDetails .prvOffFailed "Not supported" implKey

/-- `check_privacy_mode_err`, which has nothing to check outside Windows. -/
def checkPrivacyModeErr : String := ""

/-! ### A connection -/

/-- The id of a connection. `get_new_id` counts up from a positive number. -/
abbrev ConnId := { id : ℤ // 0 < id }

inductive Phase
  /-- none: the main loop waits for the next message -/
  | serving
  /-- `turn_on_privacy` has failed; `is_in_privacy_mode` comes next -/
  | refused (implKey : String) (e : Error)
  /-- and privacy mode is on: `turn_off_privacy(INVALID_PRIVACY_MODE_CONN_ID)` comes next -/
  | forcing (implKey : String) (e : Error)
  /-- the permission is being taken away in privacy mode; the owner is read next -/
  | revoking
  /-- the owner was this connection, which turns privacy mode off next -/
  | leaving (implKey : String)
  /-- the main loop is over; the owner is read next -/
  | closing
  /-- the owner was this connection, which turns privacy mode off next -/
  | releasing
  | ended
  deriving DecidableEq

structure Conn where
  authedRemote : Bool
  privacyMode : Bool
  phase : Phase := .serving
  deriving DecidableEq

/-- What the main loop of a connection takes up: a request of its peer, a switch in the
connection manager, its own end. -/
inductive Request
  | turnOn (implKey : String)
  | turnOff (implKey : String)
  | switchPermission (enabled : Bool)
  | disconnect
  deriving DecidableEq

/-- A connection goes on: with a request, or with the next locked section of the one it
is at. -/
inductive Event
  | request (r : Request)
  | resume
  deriving DecidableEq

namespace Conn

/-- What a section of a connection leaves: itself, the static and what it sends. -/
abbrev Result := Conn × Store × List Out

/-- The notice of `turn_on_privacy` that the implementation has changed. -/
def offMsg (st : Store) : List Out :=
  if st.isInPrivacyMode then
    match st.getCurImplKey with
    | some pre =>
      if !st.isCurrentPrivacyModeImpl pre then [makePrivacyModeMsg .prvOffSucceeded pre] else []
    | none => []
  else []

/-- `Connection::turn_on_privacy`, up to the answer of `privacy_mode::turn_on_privacy`. -/
def turnOnPrivacy (env : Env) (id : ConnId) (c : Conn) (st : Store) (implKey : String) : Result :=
  if !c.authedRemote || !c.privacyMode then
    (c, st, [makePrivacyModeMsg .prvOnFailedDenied implKey])
  else if !isPrivacyModeSupported then
    (c, st, [makePrivacyModeMsgWithDetails .prvNotSupported unsupportedText implKey])
  else
    let off := offMsg st
    match st.turnOnPrivacy env implKey id with
    | (st, some (.ok true)) =>
      if checkPrivacyModeErr.isEmpty then
        (c, st, off ++ [makePrivacyModeMsg .prvOnSucceeded implKey])
      else
        (c, (st.turnOffPrivacy env id).1,
          off ++ [makePrivacyModeMsgWithDetails .prvOnFailed checkPrivacyModeErr implKey])
    | (st, some (.ok false)) => (c, st, off ++ [makePrivacyModeMsg .prvOnFailedPlugin implKey])
    | (st, some (.error e)) => ({ c with phase := .refused implKey e }, st, off)
    | (st, none) =>
      (c, st, off ++ [makePrivacyModeMsgWithDetails .prvOffFailed "Not supported" implKey])

def turnOffPrivacy (env : Env) (id : ConnId) (c : Conn) (st : Store) (implKey : String) : Result :=
  if !isPrivacyModeSupported then
    (c, st, [makePrivacyModeMsgWithDetails .prvNotSupported unsupportedText implKey])
  else
    match st.turnOffPrivacy env id with
    | (st, res) => (c, st, [turnOffPrivacyResultToMsg res implKey])

def grant (c : Conn) (st : Store) (enabled : Bool) : Result :=
  ({ c with privacyMode := enabled, phase := .serving }, st, [.permission enabled])

/-- `SwitchPermission` of `privacy_mode`, up to the question who the owner is. -/
def switchPermission (c : Conn) (st : Store) (enabled : Bool) : Result :=
  if !enabled && st.isInPrivacyMode then ({ c with phase := .revoking }, st, [])
  else c.grant st enabled

def resume (env : Env) (id : ConnId) (c : Conn) (st : Store) : Result :=
  match c.phase with
  | .serving | .ended => (c, st, [])
  | .refused implKey e =>
    if st.isInPrivacyMode then ({ c with phase := .forcing implKey e }, st, [])
    else
      ({ c with phase := .serving }, st,
        [makePrivacyModeMsgWithDetails .prvOnFailed e.text implKey])
  | .forcing implKey e =>
    ({ c with phase := .serving }, (st.turnOffPrivacy env invalidPrivacyModeConnId).1,
      [makePrivacyModeMsgWithDetails .prvOnFailed e.text implKey])
  | .revoking =>
    if st.getPrivacyModeConnId = some id.1 then
      ({ c with phase := .leaving (st.getCurImplKey.getD "") }, st, [])
    else c.grant st false
  | .leaving implKey =>
    match st.turnOffPrivacy env id with
    | (st, some (.ok ())) =>
      let (c, st, out) := c.grant st false
      (c, st, makePrivacyModeMsg .prvOffByPeer implKey :: out)
    | (st, res) =>
      ({ c with phase := .serving }, st,
        [turnOffPrivacyResultToMsg res implKey, .toCm c.privacyMode])
  | .closing =>
    if st.getPrivacyModeConnId = some id.1 then ({ c with phase := .releasing }, st, [])
    else ({ c with phase := .ended }, st, [])
  | .releasing => ({ c with phase := .ended }, (st.turnOffPrivacy env id).1, [])

def serve (env : Env) (id : ConnId) (c : Conn) (st : Store) : Request → Result
  | .turnOn implKey => c.turnOnPrivacy env id st implKey
  | .turnOff implKey => c.turnOffPrivacy env id st implKey
  | .switchPermission enabled => c.switchPermission st enabled
  | .disconnect => ({ c with phase := .closing }, st, [])

/-- One section. A connection takes up a request only in its main loop. -/
def step (env : Env) (id : ConnId) (c : Conn) (st : Store) : Event → Result
  | .request r => if c.phase = .serving then c.serve env id st r else (c, st, [])
  | .resume => c.resume env id st

end Conn

/-! ### All connections -/

structure Host where
  store : Store
  conns : ConnId → Option Conn

namespace Host

/-- Every connection waits in its main loop, and `PRIVACY_MODE` has not been used. A
connection that logs in later is one that has not asked for anything yet. -/
def start (env : Env) (peers : ConnId → Option Conn) : Host where
  store := .init env
  conns id := (peers id).map fun c => { c with phase := .serving }

def put (s : Host) (id : ConnId) (st : Store) (c : Conn) : Host where
  store := st
  conns := Function.update s.conns id (some c)

def stepOut (env : Env) (s : Host) (i : ConnId × Event) : Host × List (ConnId × Out) :=
  match s.conns i.1 with
  | none => (s, [])
  | some c =>
    match c.step env i.1 s.store i.2 with
    | (c, st, out) => (s.put i.1 st c, out.map fun o => (i.1, o))

def step (env : Env) (s : Host) (i : ConnId × Event) : Host := (s.stepOut env i).1

def out (env : Env) (s : Host) (i : ConnId × Event) : List (ConnId × Out) := (s.stepOut env i).2

def owner (s : Host) : ℤ := s.store.getPrivacyModeConnId.getD invalidPrivacyModeConnId

def hidden (s : Host) : Bool := s.store.mac.active

end Host

end CodeDesk.Privacy
