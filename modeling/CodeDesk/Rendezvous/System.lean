/-
# The rendezvous server with its connections

The handlers of `Handlers`, called one after another: datagrams from any address,
messages of TCP and WebSocket connections (`handle_listener_inner`) and of the port
for the NAT test (`handle_listener2`), connections that come and go, the relay servers
being set, and restarts of the server, which keep the table and nothing else.

`Sys.exec` gives the state after an input and what is sent.
-/
import CodeDesk.Run
import CodeDesk.Rendezvous.Handlers

namespace CodeDesk.Rendezvous

open Function (update)

/-- What a WebSocket request says about the client: the values of `X-Real-IP` and
`X-Forwarded-For`, where a value may not be text. -/
structure Headers where
  xRealIp : Option (Option String) := none
  xForwardedFor : Option (Option String) := none
  deriving DecidableEq, Repr

def Headers.realIp (h : Headers) : Option String :=
  (h.xRealIp.orElse fun _ => h.xForwardedFor).join

/-- The address `handle_listener_inner` takes for a WebSocket connection from `addr`. -/
def wsAddr (addr : SocketAddr) (h : Headers) : SocketAddr :=
  match h.realIp with
  | some ip =>
    if '.' ∈ ip.toList then (parseSocketAddr (ip ++ ":0")).getD addr
    else (parseSocketAddr ("[" ++ ip ++ "]:0")).getD addr
  | none => addr

/-- A connection: its address, its kind, and the sink as long as it has it. -/
structure Conn where
  addr : SocketAddr
  ws : Bool
  sink : Option ℕ
  deriving DecidableEq, Repr

structure Sys where
  st : Server
  conns : ℕ → Option Conn := fun _ => none

inductive Input where
  | udp (e : Env) (addr : SocketAddr) (msg : Message)
  | acceptTcp (c : ℕ) (addr : SocketAddr)
  | acceptWs (c : ℕ) (addr : SocketAddr) (h : Headers)
  | tcp (e : Env) (c : ℕ) (msg : Message)
  /-- The end of a connection, or 30 seconds without a message. -/
  | close (c : ℕ)
  | nat (e : Env) (c : ℕ) (addr : SocketAddr) (msg : Message)
  | relayServers (rs : List String)
  | restart

namespace Sys

variable (S : Setup)

def start (db : Database) : Sys := ⟨.start S db, fun _ => none⟩

def accept (s : Sys) (c : ℕ) (addr : SocketAddr) (ws : Bool) : Sys :=
  if s.conns c = none then { s with conns := update s.conns c (some ⟨addr, ws, some c⟩) } else s

/-- The end of `handle_listener_inner`: whatever is parked for the address is removed
if the connection has given its sink away. -/
def close (s : Sys) (c : ℕ) (k : Conn) : Sys where
  st :=
    if k.sink = none then
      { s.st with tcpPunch := update s.st.tcpPunch (tryIntoV4 k.addr) none }
    else s.st
  conns := update s.conns c none

def tcp (s : Sys) (e : Env) (c : ℕ) (k : Conn) (msg : Message) : Sys × List Out :=
  let ((st, out), sink, more) := s.st.handleTcp S e k.sink k.addr k.ws msg
  let k := { k with sink := sink }
  let s : Sys := ⟨st, update s.conns c (some k)⟩
  (if more then s else s.close c k, out)

def exec (s : Sys) : Input → Sys × List Out
  | .udp e addr msg =>
    let (st, out) := s.st.handleUdp S e addr msg
    ({ s with st := st }, out)
  | .acceptTcp c addr => (s.accept c addr false, [])
  | .acceptWs c addr h => (s.accept c (wsAddr addr h) true, [])
  | .tcp e c msg =>
    match s.conns c with
    | some k => s.tcp S e c k msg
    | none => (s, [])
  | .close c =>
    match s.conns c with
    | some k => (s.close c k, [])
    | none => (s, [])
  | .nat e c addr msg => (s, s.st.handleListener2 e addr c msg)
  | .relayServers rs => ({ s with st := { s.st with relayServers := rs } }, [])
  | .restart => (start S s.st.pm.db, [])

def step (s : Sys) (inp : Input) : Sys := (s.exec S inp).1

def out (s : Sys) (inp : Input) : List Out := (s.exec S inp).2

end Sys
end CodeDesk.Rendezvous
