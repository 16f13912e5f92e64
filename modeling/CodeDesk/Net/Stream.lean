/-
# Streams

`Encrypt` and the three kinds of stream of `libs/hbb_common` (`tcp.rs`,
`websocket.rs`, `webrtc.rs`): what a payload becomes when it is handed to the
transport, and what `next` makes of a frame that comes in. The cipher is a
parameter. The sequence numbers are 64-bit and wrap.
-/
import CodeDesk.Sealing

namespace CodeDesk.Net

open Sealing

abbrev Bytes := List UInt8

variable {S : Box}

/-- A key with the numbers of the last message sealed and the last one opened. -/
structure Encrypt (S : Box) where
  key : S.Key
  sent : ℕ := 0
  received : ℕ := 0

/-- The number in 24 bytes. Nothing in it tells the two directions apart. -/
def getNonce (seqnum : ℕ) : Bytes := leBytes 8 seqnum ++ List.replicate 16 0

theorem getNonce_injective {m n : ℕ} (hm : m < 2 ^ 64) (hn : n < 2 ^ 64)
    (he : getNonce m = getNonce n) : m = n := by
  have hl : leBytes 8 m = leBytes 8 n := List.append_cancel_right he
  exact leBytes_injective (by omega) (by omega) hl

namespace Encrypt

def sealNonce (e : Encrypt S) : Bytes := getNonce ((e.sent + 1) % 2 ^ 64)

def openNonce (e : Encrypt S) : Bytes := getNonce ((e.received + 1) % 2 ^ 64)

def enc (e : Encrypt S) (data : Bytes) : Encrypt S × Bytes :=
  ({ e with sent := (e.sent + 1) % 2 ^ 64 }, S.sealBox e.key e.sealNonce data)

/-- A frame of at most one byte is passed on as it is; any other one takes a
number, also when it cannot be opened. -/
def dec (e : Encrypt S) (bytes : Bytes) : Encrypt S × Option Bytes :=
  if bytes.length ≤ 1 then (e, some bytes)
  else ({ e with received := (e.received + 1) % 2 ^ 64 }, S.openBox e.key e.openNonce bytes)

end Encrypt

inductive Kind where
  | tcp
  | webSocket
  | webRtc
  deriving DecidableEq, Repr

structure Stream (S : Box) where
  kind : Kind
  /-- The codec of a TCP stream passes bytes on without frames. -/
  raw : Bool := false
  encrypt : Option (Encrypt S) := none

/-- What comes in: a frame of the codec or a binary message, a text message of a
WebSocket, a ping or the like, the end, an error of the transport. -/
inductive Frame where
  | data (bytes : Bytes)
  | text (bytes : Bytes)
  | control
  | close
  | error
  deriving DecidableEq, Repr

inductive Next where
  | ok (bytes : Bytes)
  | err
  | closed
  | again
  deriving DecidableEq, Repr

namespace Stream

/-- WebRTC has its own encryption; `set_key` and `set_raw` do nothing there. -/
def setKey (key : S.Key) (s : Stream S) : Stream S :=
  if s.kind = .webRtc then s else { s with encrypt := some { key := key } }

def setRaw (s : Stream S) : Stream S :=
  match s.kind with
  | .tcp => { s with raw := true, encrypt := none }
  | .webSocket => { s with encrypt := none }
  | .webRtc => s

def isSecured (s : Stream S) : Bool := s.kind = .webRtc || s.encrypt.isSome

/-- `send_raw`: the stream and what the transport gets. -/
def sendRaw (msg : Bytes) (s : Stream S) : Stream S × Bytes :=
  match s.encrypt with
  | some e => ({ s with encrypt := some (e.enc msg).1 }, (e.enc msg).2)
  | none => (s, msg)

def sendBytes (bytes : Bytes) (s : Stream S) : Stream S × Bytes := (s, bytes)

def decrypt (bytes : Bytes) (s : Stream S) : Stream S × Next :=
  match s.encrypt with
  | some e =>
    ({ s with encrypt := some (e.dec bytes).1 },
      match (e.dec bytes).2 with
      | some res => .ok res
      | none => .err)
  | none => (s, .ok bytes)

/-- A text message of a WebSocket does not go through `dec`. -/
def next (f : Frame) (s : Stream S) : Stream S × Next :=
  match f with
  | .data bytes => s.decrypt bytes
  | .text bytes => if s.kind = .webSocket then (s, .ok bytes) else (s, .again)
  | .control => (s, .again)
  | .close => (s, .closed)
  | .error => (s, .err)

end Stream
end CodeDesk.Net
