/-
# A forwarded port

The two ends of a port forwarding session with all that is between them:
`connect_and_login` and `run_forward` of the client (`port_forward.rs`), the main
loop of the server with its `test_delay_timer` and `try_port_forward_loop`
(`connection.rs`), a pipe each way, the local application and the target.

Both ends begin by exchanging messages, framed and, on a secured stream,
encrypted. The client goes over to raw bytes when it reads the peer info. The
server goes over after a message, once it is authorized and no test delay is
unanswered, or at the click of the connection manager.

What the login logic makes of a message is an argument of the step
(`Outcome`), as are the messages the other branches of the main loop send
(`Notice`) and what the user interface of the client does.
-/
import CodeDesk.Run
import CodeDesk.Net.Codec

namespace CodeDesk.Net

open Sealing

/-! ### Messages -/

inductive Msg where
  | hash
  | loginRequest
  | loginError
  | peerInfo
  | testDelay (fromClient : Bool)
  | other
  deriving DecidableEq, Repr

/-- `write_to_bytes` and `parse_from_bytes` of the generated messages. A message
and its box fit a frame. -/
structure Proto where
  write : Msg → Bytes
  parse : Bytes → Option Msg
  parse_write : ∀ m, parse (write m) = some m
  length_write : ∀ m, (write m).length + 16 ≤ 0x3FFFFFFF

def Proto.tags : Proto where
  write := fun
    | .hash => [0]
    | .loginRequest => [1]
    | .loginError => [2]
    | .peerInfo => [3]
    | .testDelay false => [4]
    | .testDelay true => [5]
    | .other => [6]
  parse := fun
    | [0] => some .hash
    | [1] => some .loginRequest
    | [2] => some .loginError
    | [3] => some .peerInfo
    | [4] => some (.testDelay false)
    | [5] => some (.testDelay true)
    | [6] => some .other
    | _ => none
  parse_write := by
    intro m
    cases m with
    | testDelay fromClient => cases fromClient <;> rfl
    | _ => rfl
  length_write := by
    intro m
    cases m with
    | testDelay fromClient => cases fromClient <;> decide
    | _ => decide

/-- What the server sends beside the peer info and its own test delays. -/
inductive Notice where
  | hash
  | loginError
  /-- The test delay of the client, sent back. -/
  | echo
  /-- Permissions, chat, reasons to close. -/
  | other
  deriving DecidableEq, Repr

def Notice.msg : Notice → Msg
  | hash => .hash
  | loginError => .loginError
  | echo => .testDelay true
  | other => .other

/-- What the user interface of the client has it send: `Data::Login` and
`Data::Message`. -/
inductive UiData where
  | login
  | message
  deriving DecidableEq, Repr

def UiData.msg : UiData → Msg
  | login => .loginRequest
  | message => .other

/-- What the login logic makes of a message or a click: the connection goes on,
the target is connected and the peer info is to be sent, or the connection ends. -/
inductive Outcome where
  | stay (replies : List Notice)
  | granted
  | closed (replies : List Notice)
  deriving DecidableEq, Repr

/-! ### State -/

inductive Stage where
  | talk
  | forward
  | closed
  deriving DecidableEq, Repr

structure Client (S : Box) where
  stream : Stream S
  stage : Stage := .talk
  /-- What the application wrote before the login was done. -/
  buffer : Bytes := []

structure Server (S : Box) where
  stream : Stream S
  stage : Stage := .talk
  authorized : Bool := false
  portForwardSocket : Bool := false
  /-- `last_test_delay` is set. -/
  lastTestDelay : Bool := false

/-- The socket of the application or of the target: all that was written to us,
what of it we have not read, and what we wrote. -/
structure Socket where
  wrote : Bytes := []
  pending : Bytes := []
  got : Bytes := []

/-- Application data given to a stream, and what the transport got for it. -/
structure Handed where
  plain : Bytes
  wire : Bytes
  deriving DecidableEq

structure Tunnel (S : Box) where
  client : Client S
  server : Server S
  up : Pipe := {}
  down : Pipe := {}
  app : Socket := {}
  target : Socket := {}
  /-- The messages each end sent, and the bytes each end gave to the parser. -/
  clientSaid : List Msg := []
  serverHeard : List Bytes := []
  serverSaid : List Msg := []
  clientHeard : List Bytes := []
  handed : List Handed := []

inductive Event where
  | appWrite (bytes : Bytes)
  | targetWrite (bytes : Bytes)
  | arriveUp (n : ℕ)
  | arriveDown (n : ℕ)
  /-- A chunk of up to `n` bytes from the application or the target. -/
  | clientRead (n : ℕ)
  | serverRead (n : ℕ)
  /-- `login`: a hash is answered; `keep`: a login error does not end the login. -/
  | clientNext (login keep : Bool)
  | clientSay (d : UiData)
  | clientClose
  | serverNext (o : Outcome)
  | authorize (o : Outcome)
  | testDelayTick
  | serverSay (n : Notice)
  | serverClose (replies : List Notice)
  deriving Repr

def Stream.receive {S : Box} (p : Pipe) (s : Stream S) : Stream S × Pipe × Next :=
  match p.get s with
  | (p, some f) => ((s.next f).1, p, (s.next f).2)
  | (p, none) => (s, p, .again)

namespace Tunnel

variable {S : Box} (P : Proto)

/-- Both ends are keyed, or neither is. -/
def start (kind : Kind) (key : Option S.Key) : Tunnel S :=
  let stream : Stream S := { kind := kind }
  let stream := match key with
    | some key => stream.setKey key
    | none => stream
  { client := { stream := stream }, server := { stream := stream } }

/-! ### The client -/

def clientSend (m : Msg) (t : Tunnel S) : Tunnel S :=
  let r := t.client.stream.sendRaw (P.write m)
  { t with
    client := { t.client with stream := r.1 }
    up := t.up.put r.1 r.2
    clientSaid := t.clientSaid ++ [m] }

def clientSendBytes (bytes : Bytes) (t : Tunnel S) : Tunnel S :=
  let r := t.client.stream.sendBytes bytes
  { t with
    client := { t.client with stream := r.1 }
    up := t.up.put r.1 r.2
    handed := t.handed ++ [⟨bytes, r.2⟩] }

def closeClient (t : Tunnel S) : Tunnel S :=
  { t with client := { t.client with stage := .closed } }

def startForward (t : Tunnel S) : Tunnel S :=
  let buffer := t.client.buffer
  let t := { t with
    client := { stream := t.client.stream.setRaw, stage := .forward, buffer := [] } }
  if buffer = [] then t else t.clientSendBytes buffer

def clientMessage (login keep : Bool) (m : Msg) (t : Tunnel S) : Tunnel S :=
  match m with
  | .hash => if login then t.clientSend P .loginRequest else t
  | .loginError => if keep then t else t.closeClient
  | .peerInfo => t.startForward
  | .testDelay fromClient => if fromClient then t else t.clientSend P (.testDelay false)
  | .loginRequest => t
  | .other => t

/-- A turn of `connect_and_login` with what its stream gave. -/
def clientTalk (login keep : Bool) (n : Next) (t : Tunnel S) : Tunnel S :=
  match n with
  | .ok bytes =>
    let t := { t with clientHeard := t.clientHeard ++ [bytes] }
    match P.parse bytes with
    | some m => t.clientMessage P login keep m
    | none => t.closeClient
  | .again => t
  | .err => t.closeClient
  | .closed => t.closeClient

def clientForward (n : Next) (t : Tunnel S) : Tunnel S :=
  match n with
  | .ok bytes => { t with app := { t.app with got := t.app.got ++ bytes } }
  | .again => t
  | .err => t.closeClient
  | .closed => t.closeClient

def clientGot (t : Tunnel S) : Tunnel S :=
  let r := t.client.stream.receive t.down
  { t with client := { t.client with stream := r.1 }, down := r.2.1 }

def clientNext (login keep : Bool) (t : Tunnel S) : Tunnel S :=
  let n := (t.client.stream.receive t.down).2.2
  match t.client.stage with
  | .talk => t.clientGot.clientTalk P login keep n
  | .forward => t.clientGot.clientForward n
  | .closed => t

def clientKeep (n : ℕ) (t : Tunnel S) : Tunnel S :=
  { t with
    client := { t.client with buffer := t.client.buffer ++ t.app.pending.take n }
    app := { t.app with pending := t.app.pending.drop n } }

def clientPass (n : ℕ) (t : Tunnel S) : Tunnel S :=
  clientSendBytes (t.app.pending.take n)
    { t with app := { t.app with pending := t.app.pending.drop n } }

/-- `forward.next()`: a chunk is kept during the login and passed on after it. -/
def clientRead (n : ℕ) (t : Tunnel S) : Tunnel S :=
  if t.app.pending.take n = [] then t
  else
    match t.client.stage with
    | .talk => t.clientKeep n
    | .forward => t.clientPass n
    | .closed => t

def clientSay (d : UiData) (t : Tunnel S) : Tunnel S :=
  if t.client.stage = .talk then t.clientSend P d.msg else t

/-! ### The server -/

def serverSend (m : Msg) (t : Tunnel S) : Tunnel S :=
  let r := t.server.stream.sendRaw (P.write m)
  { t with
    server := { t.server with stream := r.1 }
    down := t.down.put r.1 r.2
    serverSaid := t.serverSaid ++ [m] }

def serverSendAll (ms : List Msg) (t : Tunnel S) : Tunnel S :=
  ms.foldl (fun t m => t.serverSend P m) t

def serverSendBytes (bytes : Bytes) (t : Tunnel S) : Tunnel S :=
  let r := t.server.stream.sendBytes bytes
  { t with
    server := { t.server with stream := r.1 }
    down := t.down.put r.1 r.2
    handed := t.handed ++ [⟨bytes, r.2⟩] }

def closeServer (t : Tunnel S) : Tunnel S :=
  { t with server := { t.server with stage := .closed, portForwardSocket := false } }

/-- Out of the main loop: `try_port_forward_loop`, if there is a target. -/
def leave (t : Tunnel S) : Tunnel S :=
  if t.server.portForwardSocket then
    { t with server := { t.server with stream := t.server.stream.setRaw, stage := .forward } }
  else t.closeServer

/-- `send_logon_response_and_keep_alive` for a port: the target is connected
before the peer info is sent. -/
def grant (t : Tunnel S) : Tunnel S :=
  serverSend P .peerInfo
    { t with server := { t.server with authorized := true, portForwardSocket := true } }

/-- What follows from the outcome of a message or a click, and whether the
connection goes on. -/
def settle (o : Outcome) (t : Tunnel S) : Tunnel S × Bool :=
  match o with
  | .stay replies => (t.serverSendAll P (replies.map Notice.msg), true)
  | .granted => (if t.server.authorized then t else t.grant P, true)
  | .closed replies => ((t.serverSendAll P (replies.map Notice.msg)).closeServer, false)

def delayAnswered (t : Tunnel S) : Tunnel S :=
  { t with server := { t.server with lastTestDelay := false } }

def onMessage (o : Outcome) (m : Msg) (t : Tunnel S) : Tunnel S × Bool :=
  match m with
  | .testDelay fromClient => if fromClient then (t, true) else (t.delayAnswered, true)
  | _ => t.settle P o

/-- After a message the loop is left only when no test delay is unanswered:
"Avoid TestDelay reply injection into rdp data stream". -/
def afterMessage (r : Tunnel S × Bool) : Tunnel S :=
  if !r.2 then r.1.leave
  else if r.1.server.portForwardSocket && r.1.server.authorized && !r.1.server.lastTestDelay then
    r.1.leave
  else r.1

/-- A turn of the main loop with what its stream gave. Bytes that are no message
are passed over. -/
def serverTalk (o : Outcome) (n : Next) (t : Tunnel S) : Tunnel S :=
  match n with
  | .ok bytes =>
    let t := { t with serverHeard := t.serverHeard ++ [bytes] }
    match P.parse bytes with
    | some m => afterMessage (t.onMessage P o m)
    | none => t
  | .again => t
  | .err => t.closeServer
  | .closed => t.closeServer

/-- A turn of `try_port_forward_loop` with what its stream gave. -/
def serverForward (n : Next) (t : Tunnel S) : Tunnel S :=
  match n with
  | .ok bytes => { t with target := { t.target with got := t.target.got ++ bytes } }
  | .again => t
  | .err => t.closeServer
  | .closed => t.closeServer

def serverGot (t : Tunnel S) : Tunnel S :=
  let r := t.server.stream.receive t.up
  { t with server := { t.server with stream := r.1 }, up := r.2.1 }

def serverNext (o : Outcome) (t : Tunnel S) : Tunnel S :=
  let n := (t.server.stream.receive t.up).2.2
  match t.server.stage with
  | .talk => t.serverGot.serverTalk P o n
  | .forward => t.serverGot.serverForward n
  | .closed => t

/-- The main loop does not read from the target. -/
def serverRead (n : ℕ) (t : Tunnel S) : Tunnel S :=
  let chunk := t.target.pending.take n
  if chunk = [] ∨ t.server.stage ≠ .forward then t
  else
    serverSendBytes chunk
      { t with target := { t.target with pending := t.target.pending.drop n } }

def click (o : Outcome) (t : Tunnel S) : Tunnel S × Bool :=
  if t.server.authorized then (t, true) else t.settle P o

/-- After a click the loop is left whenever there is a target. -/
def afterClick (r : Tunnel S × Bool) : Tunnel S :=
  if !r.2 then r.1.leave
  else if r.1.server.portForwardSocket then r.1.leave
  else r.1

def authorize (o : Outcome) (t : Tunnel S) : Tunnel S :=
  if t.server.stage = .talk then afterClick (t.click P o) else t

def testDelayTick (t : Tunnel S) : Tunnel S :=
  if t.server.stage = .talk ∧ t.server.lastTestDelay = false ∧
      ¬ (t.server.portForwardSocket = true ∧ t.server.authorized = true) then
    serverSend P (.testDelay false) { t with server := { t.server with lastTestDelay := true } }
  else t

def serverSay (n : Notice) (t : Tunnel S) : Tunnel S :=
  if t.server.stage = .talk then t.serverSend P n.msg else t

/-- The branches of the main loop that say why, and close; and all that ends
`try_port_forward_loop`, without a word. -/
def serverClose (replies : List Notice) (t : Tunnel S) : Tunnel S :=
  match t.server.stage with
  | .talk => (t.serverSendAll P (replies.map Notice.msg)).closeServer
  | .forward => t.closeServer
  | .closed => t

/-! ### Steps -/

def step (t : Tunnel S) : Event → Tunnel S
  | .appWrite bytes =>
    { t with app :=
      { t.app with wrote := t.app.wrote ++ bytes, pending := t.app.pending ++ bytes } }
  | .targetWrite bytes =>
    { t with target :=
      { t.target with wrote := t.target.wrote ++ bytes, pending := t.target.pending ++ bytes } }
  | .arriveUp n => { t with up := t.up.arrive n }
  | .arriveDown n => { t with down := t.down.arrive n }
  | .clientRead n => t.clientRead n
  | .serverRead n => t.serverRead n
  | .clientNext login keep => t.clientNext P login keep
  | .clientSay d => t.clientSay P d
  | .clientClose => t.closeClient
  | .serverNext o => t.serverNext P o
  | .authorize o => t.authorize P o
  | .testDelayTick => t.testDelayTick P
  | .serverSay n => t.serverSay P n
  | .serverClose replies => t.serverClose P replies

end Tunnel
end CodeDesk.Net
