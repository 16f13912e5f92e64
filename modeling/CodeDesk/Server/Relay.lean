/-
# The relay server's streams and the relay loop

`make_pair_` and `relay` of `server/src/relay_server.rs` for two connections
that present the same uuid: the first frame of each is its `RequestRelay`, then
they are paired, switched to raw if both are TCP, and from there on whatever one
of them gives is sent to the other. `StreamTrait` has two implementations, a
`FramedStream` (TCP, with the frame codec) and a WebSocket.

`RelaySys` is the two connections with their clients' ends. A client sends, TCP
bytes arrive any number at a time, and the server polls either connection, all
in any order; `recv` is a poll, so it may have nothing yet, and a poll that
`select!` drops keeps what the decoder has read. A write may fail after a part
of its bytes; that, an error, the end of a stream, a timeout or the block list
end the relay.

`sent`, `said` and `got` are history: what the client sent, and what `recv` gave.
-/
import CodeDesk.Run
import CodeDesk.Net.FrameCodec

namespace CodeDesk.Server

open Net (Codec IoError)

abbrev Bytes := List UInt8

/-- `tungstenite::Message`: a binary one, or a text, ping, pong or close. -/
inductive WsMessage where
  | binary (bytes : Bytes)
  | other
  deriving DecidableEq, Repr

def WsMessage.payload : WsMessage → Bytes
  | .binary bytes => bytes
  | .other => []

/-- A connection of the relay server, with the way to and from its client. -/
structure Conn where
  ws : Bool
  codec : Codec := .new
  buf : Bytes := []
  wire : Bytes := []
  queue : List WsMessage := []
  out : Bytes := []
  outbox : List Bytes := []
  sent : Bytes := []
  said : List WsMessage := []
  got : List Bytes := []
  deriving DecidableEq, Repr

namespace Conn

/-- A poll: nothing yet, an error, or a frame. -/
def recv (c : Conn) : Conn × Option (Except IoError Bytes) :=
  if c.ws then
    match c.queue with
    | [] => (c, none)
    | m :: queue => ({ c with queue := queue, got := c.got ++ [m.payload] }, some (.ok m.payload))
  else
    match c.codec.decode c.buf with
    | (codec, buf, .ok none) => ({ c with codec := codec, buf := buf }, none)
    | (codec, buf, .ok (some bytes)) =>
      ({ c with codec := codec, buf := buf, got := c.got ++ [bytes] }, some (.ok bytes))
    | (codec, buf, .error e) => ({ c with codec := codec, buf := buf }, some (.error e))

/-- The connection afterwards, and whether the write succeeded. With
`fails = some n` it fails after `n` bytes; a part of a WebSocket message is none. -/
def sendRaw (fails : Option ℕ) (bytes : Bytes) (c : Conn) : Conn × Bool :=
  if c.ws then
    match fails with
    | some _ => (c, false)
    | none => ({ c with outbox := c.outbox ++ [bytes] }, true)
  else
    match c.codec.encode bytes [] with
    | (_, .error _) => (c, false)
    | (w, .ok ()) =>
      match fails with
      | some n => ({ c with out := c.out ++ w.take n }, false)
      | none => ({ c with out := c.out ++ w }, true)

def setRaw (c : Conn) : Conn := if c.ws then c else { c with codec := c.codec.setRaw }

def clientSends (bytes : Bytes) (c : Conn) : Conn :=
  if c.ws then c else { c with wire := c.wire ++ bytes, sent := c.sent ++ bytes }

def clientSays (m : WsMessage) (c : Conn) : Conn :=
  if c.ws then { c with queue := c.queue ++ [m], said := c.said ++ [m] } else c

def arrive (n : ℕ) (c : Conn) : Conn :=
  { c with buf := c.buf ++ c.wire.take n, wire := c.wire.drop n }

end Conn

/-- The fields of a `RequestRelay` that the relay server reads. -/
structure RequestRelay where
  licenceKey : String
  uuid : String
  deriving DecidableEq, Repr

/-- What `make_pair_` does with a request: the uuid to pair by, or the end of
the task. -/
def pairUuid (key : String) (rf : RequestRelay) : Option String :=
  if key ≠ "" ∧ rf.licenceKey ≠ key then none
  else if rf.uuid = "" then none
  else some rf.uuid

/-- The same for the first frame. `parse` is `RendezvousMessage::parse_from_bytes`,
where it gives a `RequestRelay`. -/
def requestUuid (key : String) (parse : Bytes → Option RequestRelay) (bytes : Bytes) :
    Option String :=
  (parse bytes).bind (pairUuid key)

/-- The connection that waited, and the one that found it. -/
inductive End where
  | peer
  | stream
  deriving DecidableEq, Repr

def End.other : End → End
  | peer => stream
  | stream => peer

structure RelaySys where
  conn : End → Conn
  uuid : End → Option String
  relaying : Bool
  ended : Bool

namespace RelaySys

inductive Input where
  | clientSends (e : End) (bytes : Bytes)
  | clientSays (e : End) (m : WsMessage)
  | arrive (e : End) (n : ℕ)
  | recv (e : End) (fails : Option ℕ)
  | pair
  | finish
  deriving DecidableEq, Repr

def start (ws : End → Bool) : RelaySys :=
  ⟨fun e => { ws := ws e }, fun _ => none, false, false⟩

def setConn (s : RelaySys) (e : End) (c : Conn) : RelaySys :=
  { s with conn := Function.update s.conn e c }

variable (key : String) (parse : Bytes → Option RequestRelay)

/-- `stream.recv()` at the start of `make_pair_`. -/
def readRequest (s : RelaySys) (e : End) : RelaySys :=
  match (s.conn e).recv with
  | (c, none) => s.setConn e c
  | (c, some (.error _)) => { s.setConn e c with ended := true }
  | (c, some (.ok bytes)) =>
    match requestUuid key parse bytes with
    | none => { s.setConn e c with ended := true }
    | some u => { s.setConn e c with uuid := Function.update s.uuid e (some u) }

/-- The stream was found in `PEERS` under the uuid of the other. -/
def makePair (s : RelaySys) : RelaySys :=
  if !(s.conn .stream).ws && !(s.conn .peer).ws then
    { s with conn := fun e => (s.conn e).setRaw, relaying := true }
  else { s with relaying := true }

/-- One round of `relay` in which `e.recv()` is polled. -/
def relay (s : RelaySys) (e : End) (fails : Option ℕ) : RelaySys :=
  match (s.conn e).recv with
  | (c, none) => s.setConn e c
  | (c, some (.error _)) => { s.setConn e c with ended := true }
  | (c, some (.ok bytes)) =>
    if bytes = [] then s.setConn e c
    else
      match (s.conn e.other).sendRaw fails bytes with
      | (d, ok) => { (s.setConn e c).setConn e.other d with ended := !ok }

def step (s : RelaySys) : Input → RelaySys
  | .clientSends e bytes => s.setConn e ((s.conn e).clientSends bytes)
  | .clientSays e m => s.setConn e ((s.conn e).clientSays m)
  | .arrive e n => s.setConn e ((s.conn e).arrive n)
  | .recv e fails =>
    if s.ended then s
    else if s.relaying then s.relay e fails
    else if (s.uuid e).isSome then s
    else s.readRequest key parse e
  | .pair =>
    if s.ended || s.relaying then s
    else if (s.uuid .peer).isSome ∧ s.uuid .peer = s.uuid .stream then s.makePair
    else s
  | .finish => { s with ended := true }

end RelaySys

end CodeDesk.Server
