/-
# The handlers of the rendezvous server

`handle_udp`, `handle_tcp` and what they call, of `server/src/rendezvous_server.rs`,
on the messages of `rendezvous.proto`; each call is taken as one step that gives the
state after it and what it sends. A message is sent by the UDP socket (`udp`), put
into the queue of the main loop, which sends it by the UDP socket (`queued`), or
written to the sink of a TCP or WebSocket connection (`tcp`). A sink is known by the
number of its connection.

`Setup` is what does not change while the server runs: its arguments and its keys.
`Env` is what a call is given from outside: the clock, the database, the resolver.
-/
import CodeDesk.Rendezvous.PeerMap

namespace CodeDesk.Rendezvous

open Function (update)
open CodeDesk.Conn (IpAddr)

/-! ### Messages -/

structure RegisterPk where
  id : String
  uuid : Bytes
  pk : Bytes
  deriving DecidableEq, Repr

structure PunchHoleRequest where
  id : String
  natType : ℤ := 0
  licenceKey : String := ""
  deriving DecidableEq, Repr

structure PunchHoleSent where
  socketAddr : Bytes
  id : String
  relayServer : String := ""
  natType : ℤ := 0
  version : String := ""
  deriving DecidableEq, Repr

structure LocalAddr where
  socketAddr : Bytes
  localAddr : Bytes
  relayServer : String := ""
  id : String := ""
  version : String := ""
  deriving DecidableEq, Repr

/-- `rest` are the fields the server does not look at, as they came. -/
structure RequestRelay where
  id : String
  uuid : String := ""
  socketAddr : Bytes := []
  relayServer : String := ""
  secure : Bool := false
  licenceKey : String := ""
  rest : Bytes := []
  deriving DecidableEq, Repr

inductive IdOrPk where
  | none
  | id (id : String)
  | pk (pk : Bytes)
  deriving DecidableEq, Repr

structure RelayResponse where
  socketAddr : Bytes
  uuid : String := ""
  relayServer : String := ""
  union : IdOrPk := .none
  version : String := ""
  rest : Bytes := []
  deriving DecidableEq, Repr

inductive Failure where
  | idNotExist
  | offline
  | licenseMismatch
  deriving DecidableEq, Repr

inductive NatOrLocal where
  | none
  | natType (t : ℤ)
  | isLocal (b : Bool)
  deriving DecidableEq, Repr

/-- `ID_NOT_EXIST` is the default of `failure`. -/
structure PunchHoleResponse where
  socketAddr : Bytes := []
  pk : Bytes := []
  failure : Failure := .idNotExist
  relayServer : String := ""
  union : NatOrLocal := .none
  deriving DecidableEq, Repr

structure ConfigUpdate where
  serial : ℤ
  rendezvousServers : List String
  deriving DecidableEq, Repr

/-- The union of a `RendezvousMessage`; `other` is one of the others or none. -/
inductive Message where
  | registerPeer (id : String) (serial : ℤ)
  | registerPk (rk : RegisterPk)
  | punchHoleRequest (ph : PunchHoleRequest)
  | punchHoleSent (phs : PunchHoleSent)
  | localAddr (la : LocalAddr)
  | configureUpdate (cu : ConfigUpdate)
  | softwareUpdate (url : String)
  | requestRelay (rf : RequestRelay)
  | relayResponse (rr : RelayResponse)
  | testNatRequest (serial : ℤ)
  | onlineRequest (peers : List String)
  | registerPeerResponse (requestPk : Bool)
  | registerPkResponse (result : RegisterPkResult)
  | punchHole (socketAddr : Bytes) (natType : ℤ) (relayServer : String)
  | fetchLocalAddr (socketAddr : Bytes) (relayServer : String)
  | punchHoleResponse (p : PunchHoleResponse)
  | testNatResponse (port : ℕ) (cu : Option ConfigUpdate)
  | onlineResponse (states : Bytes)
  | other
  deriving DecidableEq, Repr

inductive Out where
  | udp (msg : Message) (addr : SocketAddr)
  | queued (msg : Message) (addr : SocketAddr)
  | tcp (conn : ℕ) (msg : Message)
  deriving DecidableEq, Repr

/-! ### State -/

structure Ipv4Network where
  addr : BitVec 32
  len : ℕ

def Ipv4Network.contains (n : Ipv4Network) (ip : BitVec 32) : Bool :=
  let mask := ~~~(BitVec.allOnes 32 >>> n.len)
  ip &&& mask = n.addr &&& mask

structure Setup where
  codec : InfoCodec
  key : String := ""
  serial : ℤ := 0
  rendezvousServers : List String := []
  relayServers : List String := []
  version : String := ""
  softwareUrl : String := ""
  mask : Option Ipv4Network := none
  localIp : String := ""
  sign : Option (String → Bytes → Bytes) := none

structure Env where
  now : ℕ := 0
  /-- The low 32 bits of the clock in microseconds. -/
  tm : BitVec 32 := 0
  io : DbIo := {}
  validServer : String → Bool := fun _ => true
  /-- `ALWAYS_USE_RELAY`, which the command `aur` can set at any time. -/
  alwaysUseRelay : Bool := false

structure IpBlock where
  count : ℕ
  countTime : ℕ
  ids : List String
  idsTime : ℕ
  deriving DecidableEq, Repr

structure PunchReqEntry where
  tm : ℕ
  fromIp : String
  toIp : String
  toId : String
  deriving DecidableEq, Repr

structure Server where
  pm : PeerMap := {}
  tcpPunch : SocketAddr → Option ℕ := fun _ => none
  relayServers : List String := []
  rotation : ℕ := 0
  serial : ℤ := 0
  rendezvousServers : List String := []
  ipBlocker : String → Option IpBlock := fun _ => none
  ipChanges : String → Option (ℕ × (String → Option ℤ)) := fun _ => none
  punchReqs : List PunchReqEntry := []

def Server.start (S : Setup) (db : Database) : Server where
  pm := { db := db }
  relayServers := S.relayServers
  serial := S.serial
  rendezvousServers := S.rendezvousServers

namespace Server

variable (S : Setup) (e : Env)

/-! ### Sinks -/

/-- `sink.take()` and `tcp_punch.insert`. -/
def park (st : Server) (addr : SocketAddr) (sink : Option ℕ) : Server :=
  match sink with
  | some c => { st with tcpPunch := update st.tcpPunch (tryIntoV4 addr) (some c) }
  | none => st

def sendToSink (sink : Option ℕ) (msg : Message) : List Out := (sink.map (Out.tcp · msg)).toList

/-- `send_to_tcp` and `send_to_tcp_sync`: the sink leaves the map and is written to. -/
def sendToTcp (st : Server) (msg : Message) (addr : SocketAddr) : Server × List Out :=
  ({ st with tcpPunch := update st.tcpPunch (tryIntoV4 addr) none },
    sendToSink (st.tcpPunch (tryIntoV4 addr)) msg)

/-! ### Registration -/

def ipBlockDur : ℕ := 60

def daySeconds : ℕ := 3600 * 24

def ipChangeDur : ℕ := 180

/-- `check_ip_blocker`: whether the caller may go on, and the entry of its ip then. -/
def checkIpBlocker (now : ℕ) (old : Option IpBlock) (id : String) : Bool × IpBlock :=
  match old with
  | none => (true, ⟨0, now, [], now⟩)
  | some b =>
    let expired := ipBlockDur < elapsedSecs now b.countTime
    if ¬expired ∧ 30 < b.count then (false, b)
    else
      let b := { b with count := (if expired then 0 else b.count) + 1, countTime := now }
      let isNew := id ∉ b.ids
      let stale := daySeconds < elapsedSecs now b.idsTime
      if ¬stale ∧ 300 < b.ids.length then (decide ¬isNew, b)
      else
        let ids := if stale then [] else b.ids
        (true, { b with ids := if isNew then id :: ids else ids, idsTime := now })

/-- The check of a `RegisterPk` against the peer: `none` is `UUID_MISMATCH`, else
`changed` and `ip_changed`. -/
def checkPk (peer : Peer) (rk : RegisterPk) (ip : String) : Option (Bool × Bool) :=
  if peer.uuid = [] then some (true, false)
  else if peer.uuid = rk.uuid then
    if peer.info.ip ≠ ip ∧ peer.pk ≠ rk.pk then none
    else
      some (decide (peer.uuid ≠ rk.uuid) || decide (peer.pk ≠ rk.pk) || decide (peer.info.ip ≠ ip),
        decide (peer.info.ip ≠ ip))
  else none

/-- The count of `reg_pk` with one more; `none` is `TOO_FREQUENT`. -/
def countRegPk (now : ℕ) (regPk : ℕ × ℕ) : Option (ℕ × ℕ) :=
  if 6 < elapsedSecs now regPk.2 then some (1, now)
  else if 2 < regPk.1 then none
  else some (regPk.1 + 1, now)

/-- The entry of `IP_CHANGES` for an id after its ip has changed to `ip`. -/
def countIpChange (now : ℕ) (ip : String) :
    Option (ℕ × (String → Option ℤ)) → ℕ × (String → Option ℤ)
  | some (tm, ips) =>
    if ipChangeDur < elapsedSecs now tm then (now, update (fun _ => none) ip (some 1))
    else (tm, update ips ip (some ((ips ip).elim 1 (· + 1))))
  | none => (now, update (fun _ => none) ip (some 1))

def sendRkRes (addr : SocketAddr) (res : RegisterPkResult) : List Out :=
  [.udp (.registerPkResponse res) addr]

/-- What follows the checks: the change of ip is counted, the registration written. -/
def acceptPk (st : Server) (addr : SocketAddr) (rk : RegisterPk) (peer : Peer)
    (changed ipChanged : Bool) : Server :=
  let ip := ipText addr.ip
  let st := { st with pm := st.pm.put rk.id peer }
  let st :=
    if ipChanged then
      { st with
        ipChanges := update st.ipChanges rk.id (some (countIpChange e.now ip (st.ipChanges rk.id))) }
    else st
  if changed then
    -- the result of `update_pk` is not looked at
    { st with pm := (st.pm.updatePk S.codec e.now e.io rk.id peer addr rk.uuid rk.pk ip).1 }
  else st

def registerPk (st : Server) (addr : SocketAddr) (rk : RegisterPk) : Server × List Out :=
  let ip := ipText addr.ip
  if rk.uuid = [] ∨ rk.pk = [] then (st, [])
  else if rk.id.utf8ByteSize < 6 then (st, sendRkRes addr .uuidMismatch)
  else
    let (pass, block) := checkIpBlocker e.now (st.ipBlocker ip) rk.id
    let st := { st with ipBlocker := update st.ipBlocker ip (some block) }
    if pass = false then (st, sendRkRes addr .tooFrequent)
    else
      let (pm, peer) := st.pm.getOr S.codec e.now e.io rk.id
      let st := { st with pm := pm }
      match checkPk peer rk ip with
      | none => (st, sendRkRes addr .uuidMismatch)
      | some (changed, ipChanged) =>
        match countRegPk e.now peer.regPk with
        | none => (st, sendRkRes addr .tooFrequent)
        | some regPk =>
          (st.acceptPk S e addr rk { peer with regPk := regPk } changed ipChanged,
            sendRkRes addr .ok)

def updateAddr (st : Server) (id : String) (addr : SocketAddr) : Server × List Out :=
  match st.pm.map id with
  | some old =>
    ({ st with pm := st.pm.put id (old.updateAddr e.now addr) },
      [.udp (.registerPeerResponse (old.requestPk addr)) addr])
  | none => (st, [.udp (.registerPeerResponse true) addr])

def registerPeer (st : Server) (addr : SocketAddr) (id : String) (serial : ℤ) :
    Server × List Out :=
  if id = "" then (st, [])
  else
    let (st, out) := st.updateAddr e id addr
    (st, out ++
      if serial < st.serial then
        [.udp (.configureUpdate ⟨st.serial, st.rendezvousServers⟩) addr]
      else [])

/-! ### Answers of a peer -/

def getPk (st : Server) (version id : String) : Server × Bytes :=
  match S.sign with
  | none => (st, [])
  | some sign =>
    if version = "" then (st, [])
    else
      let (pm, peer) := st.pm.get S.codec e.now e.io id
      ({ st with pm := pm }, peer.elim [] fun p => sign id p.pk)

/-- Sent by the socket if the message came by UDP, else written to the sink parked
for the address. -/
def answer (st : Server) (udp : Bool) (msg : Message) (addr : SocketAddr) : Server × List Out :=
  if udp then (st, [.udp msg addr]) else st.sendToTcp msg addr

def handleHoleSent (st : Server) (phs : PunchHoleSent) (addr : SocketAddr) (udp : Bool) :
    Server × List Out :=
  let (st, pk) := st.getPk S e phs.version phs.id
  st.answer udp
    (.punchHoleResponse
      { socketAddr := AddrMangle.encode e.tm addr
        pk := pk
        relayServer := phs.relayServer
        union := if 0 ≤ phs.natType ∧ phs.natType ≤ 2 then .natType phs.natType else .none })
    (AddrMangle.decode phs.socketAddr)

def handleLocalAddr (st : Server) (la : LocalAddr) (udp : Bool) : Server × List Out :=
  let (st, pk) := st.getPk S e la.version la.id
  st.answer udp
    (.punchHoleResponse
      { socketAddr := la.localAddr
        pk := pk
        relayServer := la.relayServer
        union := .isLocal true })
    (AddrMangle.decode la.socketAddr)

def isLan (addr : SocketAddr) : Bool :=
  match S.mask, addr with
  | some network, .v4 ip _ => network.contains ip
  | some network, .v6 ip _ _ _ => (toIpv4 ip).elim false network.contains
  | none, _ => false

def getRelayServer (st : Server) : Server × String :=
  match st.relayServers with
  | [] => (st, "")
  | [r] => (st, r)
  | rs => ({ st with rotation := st.rotation + 1 }, rs.getD (st.rotation % rs.length) "")

def handleRelayResponse (st : Server) (rr : RelayResponse) : Server × List Out :=
  let addrB := AddrMangle.decode rr.socketAddr
  let id := match rr.union with
    | .id id => id
    | _ => ""
  let (st, union) :=
    if id = "" then (st, rr.union)
    else
      let (st, pk) := st.getPk S e rr.version id
      (st, .pk pk)
  let (st, relayServer) :=
    if rr.relayServer = "" then (st, rr.relayServer)
    else if isLan S addrB then (st, S.localIp)
    else if rr.relayServer = S.localIp then st.getRelayServer
    else (st, rr.relayServer)
  st.sendToTcp
    (.relayResponse { rr with socketAddr := [], union := union, relayServer := relayServer }) addrB

/-! ### Requests of a client -/

def regTimeout : ℕ := 30000

def punchReqDedupeSec : ℕ := 60

/-- The request is recorded, unless the last one like it among the last 30 is new. -/
def recordPunchReq (st : Server) (addr peerAddr : SocketAddr) (id : String) : Server :=
  let fromIp := ipText (tryIntoV4 addr).ip
  let last := (st.punchReqs.reverse.take 30).find? fun r => r.fromIp = fromIp ∧ r.toId = id
  if last.any fun r => elapsedSecs e.now r.tm < punchReqDedupeSec then st
  else
    { st with
      punchReqs := st.punchReqs ++ [⟨e.now, fromIp, ipText (tryIntoV4 peerAddr).ip, id⟩] }

def sameIp : SocketAddr → SocketAddr → Bool
  | .v4 a _, .v4 b _ => a = b
  | .v6 a _ _ _, .v6 b _ _ _ => a = b
  | _, _ => false

def symmetric : ℤ := 2

/-- `handle_punch_hole_request`: the message, and the address it goes to if it is for
the peer. -/
def handlePunchHoleRequest (st : Server) (addr : SocketAddr) (ph : PunchHoleRequest) (ws : Bool) :
    Server × Message × Option SocketAddr :=
  if S.key ≠ "" ∧ ph.licenceKey ≠ S.key then
    (st, .punchHoleResponse { failure := .licenseMismatch }, none)
  else
    let (pm, peer) := st.pm.get S.codec e.now e.io ph.id
    let st := { st with pm := pm }
    match peer with
    | none => (st, .punchHoleResponse { failure := .idNotExist }, none)
    | some peer =>
      if regTimeout ≤ e.now - peer.lastRegTime then
        (st, .punchHoleResponse { failure := .offline }, none)
      else
        let peerAddr := peer.socketAddr
        let st := st.recordPunchReq e addr peerAddr ph.id
        let peerIsLan := isLan S peerAddr
        let lan := isLan S addr
        let (st, relayServer) := st.getRelayServer
        let forced := e.alwaysUseRelay || (peerIsLan ^^ lan)
        let relayServer := if forced && peerIsLan then S.localIp else relayServer
        let natType := if forced then symmetric else ph.natType
        let sameIntranet := !ws && (peerIsLan && lan || sameIp peerAddr addr)
        let socketAddr := AddrMangle.encode e.tm addr
        (st,
          if sameIntranet then .fetchLocalAddr socketAddr relayServer
          else .punchHole socketAddr natType relayServer,
          some peerAddr)

def handleTcpPunchHoleRequest (st : Server) (addr : SocketAddr) (ph : PunchHoleRequest)
    (ws : Bool) : Server × List Out :=
  match st.handlePunchHoleRequest S e addr ph ws with
  | (st, msg, some peerAddr) => (st, [.queued msg peerAddr])
  | (st, msg, none) => st.sendToTcp msg addr

/-- The branch of `handle_tcp` for a `RequestRelay`. -/
def handleRequestRelay (st : Server) (addr : SocketAddr) (rf : RequestRelay) : List Out :=
  match st.pm.map rf.id with
  | some peer =>
    [.queued (.requestRelay { rf with socketAddr := AddrMangle.encode e.tm addr }) peer.socketAddr]
  | none => []

/-! ### The handlers -/

def handleUdp (st : Server) (addr : SocketAddr) : Message → Server × List Out
  | .registerPeer id serial => st.registerPeer e addr id serial
  | .registerPk rk => st.registerPk S e addr rk
  -- `PunchHoleRequest` is not supported by UDP
  | .punchHoleRequest _ => (st, [])
  | .punchHoleSent phs => st.handleHoleSent S e phs addr true
  | .localAddr la => st.handleLocalAddr S e la true
  | .configureUpdate cu =>
    if isLoopback (tryIntoV4 addr).ip ∧ st.serial < cu.serial then
      ({ st with
          serial := cu.serial
          rendezvousServers :=
            cu.rendezvousServers.filter fun x => x ≠ "" && e.validServer x }, [])
    else (st, [])
  | .softwareUpdate url =>
    (st, if S.version ≠ "" ∧ url ≠ S.version then [.udp (.softwareUpdate S.softwareUrl) addr]
      else [])
  | _ => (st, [])

/-- `handle_tcp` on a message of connection `c`: with the state and what is sent, the
sink the connection has left, and whether it is read from again. -/
def handleTcp (st : Server) (sink : Option ℕ) (addr : SocketAddr) (ws : Bool) :
    Message → (Server × List Out) × Option ℕ × Bool
  | .punchHoleRequest ph =>
    ((st.park addr sink).handleTcpPunchHoleRequest S e addr ph ws, none, true)
  | .requestRelay rf =>
    let st := st.park addr sink
    ((st, st.handleRequestRelay e addr rf), none, true)
  | .relayResponse rr => (st.handleRelayResponse S e rr, sink, false)
  | .punchHoleSent phs => (st.handleHoleSent S e phs addr false, sink, false)
  | .localAddr la => (st.handleLocalAddr S e la false, sink, false)
  | .testNatRequest serial =>
    let cu := if serial < st.serial then some ⟨st.serial, st.rendezvousServers⟩ else none
    ((st, sendToSink sink (.testNatResponse addr.port.toNat cu)), sink, false)
  | .registerPk _ => ((st, sendToSink sink (.registerPkResponse .notSupport)), sink, false)
  | _ => ((st, []), sink, false)

/-- Sets bit `i` of the states, counted from the left. -/
def setOnline (states : Bytes) (i : ℕ) : Bytes :=
  states.modify (i / 8) (· ||| UInt8.ofNat (2 ^ (7 - i % 8)))

/-- `handle_online_request`: a bit for each id whose peer in memory has registered
within the last 30 seconds. -/
def handleOnlineRequest (st : Server) (peers : List String) : Message :=
  let online (id : String) := (st.pm.map id).any fun p => e.now - p.lastRegTime < regTimeout
  .onlineResponse (peers.zipIdx.foldl
    (fun states (id, i) => if online id then setOnline states i else states)
    (List.replicate ((peers.length + 7) / 8) 0))

/-- `handle_listener2` on the first message of a connection from another host. -/
def handleListener2 (st : Server) (addr : SocketAddr) (c : ℕ) : Message → List Out
  | .testNatRequest _ => [.tcp c (.testNatResponse addr.port.toNat none)]
  | .onlineRequest peers => [.tcp c (st.handleOnlineRequest e peers)]
  | _ => []

end Server
end CodeDesk.Rendezvous
