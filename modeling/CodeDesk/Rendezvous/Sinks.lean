/-
# Parked sinks

A TCP or WebSocket connection that sends a `PunchHoleRequest` or a `RequestRelay` gives
its sink to `tcp_punch`, under its address in IPv4 form. The request goes on with the
mangled address; an answer comes with it, and is written to the sink found under it.
When the connection is over, whatever is found under its address is removed. Requests,
answers and ends of connections come in any order, each with the lock of `tcp_punch`.

The address of a WebSocket connection behind a proxy is the one in the header, with
port 0: two clients with one ip have one place in `tcp_punch` (`sink_of_another`). If no
two connections have an address in common, each answer goes to the connection it is for
or is dropped, and the end of a connection removes no other's sink (`sinks_own`).

`addrs`, `requests` and `log` are history.
-/
import CodeDesk.Rendezvous.System

namespace CodeDesk.Rendezvous

open Function (update update_apply update_of_ne update_self)

/-- The place of an address in `tcp_punch` is found from the mangled address. -/
theorem bare_tryIntoV4_bare (addr : SocketAddr) :
    (tryIntoV4 (tryIntoV4 addr).bare).bare = (tryIntoV4 addr).bare := by
  have hbare : ∀ a : SocketAddr, (tryIntoV4 a.bare).bare = (tryIntoV4 a).bare := by
    intro a
    cases a with
    | v4 => rfl
    | v6 ip =>
      by_cases hl : isLoopback (.v6 ip) = true
      · simp [SocketAddr.bare, tryIntoV4, hl]
      · cases hv : toIpv4 ip with
        | some | none =>
          simp [SocketAddr.bare, tryIntoV4, hl, hv]
  rw [hbare, tryIntoV4_idem]

namespace Sinks

inductive Event where
  /-- A message for `dest` was written to the sink of `conn`; `requester` is the
  connection whose request it answers, if it answers one. -/
  | written (requester : Option ℕ) (dest : SocketAddr) (conn : ℕ)
  /-- The end of connection `c` removed the sink of `conn`. -/
  | removed (c conn : ℕ)
  deriving DecidableEq, Repr

structure Parked where
  sys : Sys
  addrs : ℕ → Option SocketAddr := fun _ => none
  requests : List (ℕ × Bytes) := []
  log : List Event := []

inductive Input where
  | acceptTcp (c : ℕ) (addr : SocketAddr)
  | acceptWs (c : ℕ) (addr : SocketAddr) (h : Headers)
  /-- A `PunchHoleRequest` or a `RequestRelay` of connection `c`. -/
  | request (tm : BitVec 32) (c : ℕ)
  /-- A peer answers request number `r`. -/
  | answer (r : ℕ) (msg : Message)
  /-- The server itself answers request number `r`. -/
  | refuse (r : ℕ) (msg : Message)
  /-- A message with an address that was made up. -/
  | forged (dest : SocketAddr) (msg : Message)
  | close (c : ℕ)

namespace Parked

def accept (s : Parked) (c : ℕ) (addr : SocketAddr) (ws : Bool) : Parked :=
  if s.addrs c = none then
    { s with sys := s.sys.accept c addr ws, addrs := update s.addrs c (some addr) }
  else s

/-- `handle_tcp` parks the sink and passes the request on. -/
def request (s : Parked) (tm : BitVec 32) (c : ℕ) (k : Conn) : Parked :=
  { s with
    sys := ⟨s.sys.st.park k.addr k.sink, update s.sys.conns c (some { k with sink := none })⟩
    requests := s.requests ++ [(c, AddrMangle.encode tm k.addr)] }

def send (s : Parked) (requester : Option ℕ) (msg : Message) (dest : SocketAddr) : Parked :=
  { s with
    sys := { s.sys with st := (s.sys.st.sendToTcp msg dest).1 }
    log := s.log ++
      ((s.sys.st.tcpPunch (tryIntoV4 dest)).map (Event.written requester dest)).toList }

def close (s : Parked) (c : ℕ) (k : Conn) : Parked :=
  { s with
    sys := s.sys.close c k
    log := s.log ++
      if k.sink = none then
        ((s.sys.st.tcpPunch (tryIntoV4 k.addr)).map (Event.removed c)).toList
      else [] }

end Parked

def step (s : Parked) : Input → Parked
  | .acceptTcp c addr => s.accept c addr false
  | .acceptWs c addr h => s.accept c (wsAddr addr h) true
  | .request tm c =>
    match s.sys.conns c with
    | some k => s.request tm c k
    | none => s
  | .answer r msg =>
    match s.requests[r]? with
    | some (c, bytes) => s.send (some c) msg (AddrMangle.decode bytes)
    | none => s
  | .refuse r msg =>
    match s.requests[r]?.bind fun q => (s.addrs q.1).map fun a => (q.1, a) with
    | some (c, addr) => s.send (some c) msg addr
    | none => s
  | .forged dest msg => s.send none msg dest
  | .close c =>
    match s.sys.conns c with
    | some k => s.close c k
    | none => s

/-- The message is for the address: the two have one place in `tcp_punch`. -/
def For (dest addr : SocketAddr) : Prop := (tryIntoV4 dest).bare = (tryIntoV4 addr).bare

instance (dest addr : SocketAddr) : Decidable (For dest addr) := inferInstanceAs (Decidable (_ = _))

def Distinct (s : Parked) : Input → Prop
  | .acceptTcp _ addr => ∀ c a, s.addrs c = some a → ¬For addr a
  | .acceptWs _ addr h => ∀ c a, s.addrs c = some a → ¬For (wsAddr addr h) a
  | _ => True

/-- A message was written to the connection that had asked, if it was an answer, and to
one that has the address; a sink was removed by its own connection. -/
def Own (addrs : ℕ → Option SocketAddr) : Event → Prop
  | .written requester dest conn =>
    (∀ c, requester = some c → conn = c) ∧ ∃ a, addrs conn = some a ∧ tryIntoV4 a = tryIntoV4 dest
  | .removed c conn => conn = c

structure Inv (s : Parked) : Prop where
  conns : ∀ c k, s.sys.conns c = some k →
    s.addrs c = some k.addr ∧ (k.sink = none ∨ k.sink = some c)
  parked : ∀ key c, s.sys.st.tcpPunch key = some c → ∃ a, s.addrs c = some a ∧ tryIntoV4 a = key
  distinct : ∀ c a c' a', s.addrs c = some a → s.addrs c' = some a' → For a a' → c = c'
  requests : ∀ q ∈ s.requests, ∃ a, s.addrs q.1 = some a ∧
    AddrMangle.decode q.2 = (tryIntoV4 a).bare
  log : ∀ ev ∈ s.log, Own s.addrs ev

variable {s : Parked} {c : ℕ} {k : Conn} {addr dest : SocketAddr} {msg : Message}

theorem Own.mono {addrs addrs' : ℕ → Option SocketAddr}
    (hle : ∀ c a, addrs c = some a → addrs' c = some a) {ev : Event} (h : Own addrs ev) :
    Own addrs' ev := by
  cases ev with
  | written requester dest conn =>
    obtain ⟨hreq, a, ha, hkey⟩ := h
    exact ⟨hreq, a, hle conn a ha, hkey⟩
  | removed => exact h

namespace Inv

variable (h : Inv s)

include h

theorem accept (hnew : ∀ c a, s.addrs c = some a → ¬For addr a) (c : ℕ) (ws : Bool) :
    Inv (s.accept c addr ws) := by
  unfold Parked.accept
  split_ifs with hc
  · have hle : ∀ c' a, s.addrs c' = some a → update s.addrs c (some addr) c' = some a := by
      intro c' a ha
      rw [update_of_ne]
      · exact ha
      · rintro rfl
        cases hc.symm.trans ha
    have hcases : ∀ c' a, update s.addrs c (some addr) c' = some a →
        s.addrs c' = some a ∨ c' = c ∧ a = addr := by
      intro c' a ha
      rw [update_apply, ite_eq_iff] at ha
      exact ha.symm.imp And.right fun he => ⟨he.1, (Option.some.inj he.2).symm⟩
    have hconn : s.sys.conns c = none :=
      Option.eq_none_iff_forall_ne_some.2 fun k hk => nomatch hc.symm.trans (h.conns c k hk).1
    refine ⟨fun c' k hk => ?_, fun key c' hp => ?_, fun c₁ a₁ c₂ a₂ h₁ h₂ hfor => ?_,
      fun q hq => ?_, fun ev hev => (h.log ev hev).mono hle⟩
    · simp only [Sys.accept, hconn, if_true, update_apply, ite_eq_iff] at hk
      rcases hk with ⟨rfl, ⟨⟩⟩ | ⟨-, hk⟩
      · exact ⟨update_self .., .inr rfl⟩
      · exact ⟨hle c' _ (h.conns c' k hk).1, (h.conns c' k hk).2⟩
    · simp only [Sys.accept, hconn, if_true] at hp
      obtain ⟨a, ha, hkey⟩ := h.parked key c' hp
      exact ⟨a, hle c' a ha, hkey⟩
    · rcases hcases c₁ a₁ h₁ with h₁' | ⟨rfl, rfl⟩
      · rcases hcases c₂ a₂ h₂ with h₂' | ⟨rfl, rfl⟩
        · exact h.distinct c₁ a₁ c₂ a₂ h₁' h₂' hfor
        · exact absurd hfor.symm (hnew c₁ a₁ h₁')
      · rcases hcases c₂ a₂ h₂ with h₂' | ⟨rfl, -⟩
        · exact absurd hfor (hnew c₂ a₂ h₂')
        · rfl
    · obtain ⟨a, ha, hdec⟩ := h.requests q hq
      exact ⟨a, hle _ a ha, hdec⟩
  · exact h

theorem request (hk : s.sys.conns c = some k) (tm : BitVec 32) : Inv (s.request tm c k) := by
  obtain ⟨haddr, hsink⟩ := h.conns c k hk
  refine { h with conns := fun c' k' hk' => ?_, parked := fun key c' hp => ?_,
                  requests := List.forall_mem_append.2 ⟨h.requests, List.forall_mem_singleton.2
                    ⟨k.addr, haddr, AddrMangle.decode_encode tm k.addr⟩⟩ }
  · simp only [Parked.request, update_apply, ite_eq_iff] at hk'
    rcases hk' with ⟨rfl, ⟨⟩⟩ | ⟨-, hk'⟩
    · exact ⟨haddr, .inl rfl⟩
    · exact h.conns c' k' hk'
  · rcases hsink with hnone | hsome
    · simp only [Parked.request, Server.park, hnone] at hp
      exact h.parked key c' hp
    · simp only [Parked.request, Server.park, hsome, update_apply, ite_eq_iff] at hp
      rcases hp with ⟨rfl, ⟨⟩⟩ | ⟨-, hp⟩
      · exact ⟨k.addr, haddr, rfl⟩
      · exact h.parked key c' hp

theorem unpark (key : SocketAddr) : ∀ key' c, update s.sys.st.tcpPunch key none key' = some c →
      ∃ a, s.addrs c = some a ∧ tryIntoV4 a = key' := by
  intro key' c hp
  rw [update_apply, ite_eq_iff] at hp
  exact h.parked key' c (hp.resolve_left fun he => nomatch he.2).2

theorem send {requester : Option ℕ}
    (hreq : ∀ c, requester = some c → ∃ a, s.addrs c = some a ∧ For dest a) :
    Inv (s.send requester msg dest) := by
  refine { h with parked := h.unpark _, log := fun ev hev => ?_ }
  rcases List.mem_append.1 hev with hev' | hev'
  · exact h.log ev hev'
  cases hp : s.sys.st.tcpPunch (tryIntoV4 dest) with
  | none =>
    simp [hp] at hev'
  | some conn =>
    rw [hp] at hev'
    obtain rfl : ev = .written requester dest conn := by simpa using hev'
    obtain ⟨a', ha', hkey⟩ := h.parked _ conn hp
    refine ⟨fun c hc => ?_, a', ha', hkey⟩
    obtain ⟨a, ha, hfor⟩ := hreq c hc
    exact h.distinct conn a' c a ha' ha ((congrArg SocketAddr.bare hkey).trans hfor)

theorem close (hk : s.sys.conns c = some k) : Inv (s.close c k) := by
  obtain ⟨haddr, -⟩ := h.conns c k hk
  refine { h with conns := fun c' k' hk' => ?_, parked := fun key c' hp => ?_,
                  log := fun ev hev => ?_ }
  · simp only [Parked.close, Sys.close, update_apply, ite_eq_iff] at hk'
    exact h.conns c' k' (hk'.resolve_left fun he => nomatch he.2).2
  · simp only [Parked.close, Sys.close] at hp
    by_cases hsink : k.sink = none
    · rw [if_pos hsink] at hp
      exact h.unpark _ key c' hp
    · rw [if_neg hsink] at hp
      exact h.parked key c' hp
  · rcases List.mem_append.1 hev with hev' | hev'
    · exact h.log ev hev'
    by_cases hsink : k.sink = none
    · rw [if_pos hsink] at hev'
      cases hp : s.sys.st.tcpPunch (tryIntoV4 k.addr) with
      | none =>
        simp [hp] at hev'
      | some conn =>
        rw [hp] at hev'
        obtain rfl : ev = .removed c conn := by simpa using hev'
        obtain ⟨a', ha', hkey⟩ := h.parked _ conn hp
        exact h.distinct conn a' c k.addr ha' haddr (congrArg SocketAddr.bare hkey)
    · simp [if_neg hsink] at hev'

theorem step (inp : Input) (hd : Distinct s inp) : Inv (step s inp) := by
  cases inp with
  | acceptTcp c => exact h.accept hd c false
  | acceptWs c => exact h.accept hd c true
  | request tm c =>
    rw [Sinks.step]
    cases hk : s.sys.conns c with
    | none => exact h
    | some => exact h.request hk tm
  | answer r =>
    rw [Sinks.step]
    cases hq : s.requests[r]? with
    | none => exact h
    | some q =>
      obtain ⟨a, ha, hdec⟩ := h.requests q (List.mem_of_getElem? hq)
      refine h.send fun c hc => ?_
      cases hc
      refine ⟨a, ha, ?_⟩
      rw [For, hdec]
      exact bare_tryIntoV4_bare a
  | refuse r =>
    rw [Sinks.step]
    cases hq : s.requests[r]?.bind fun q => (s.addrs q.1).map fun a => (q.1, a) with
    | none => exact h
    | some =>
      obtain ⟨q', -, hq'⟩ := Option.bind_eq_some_iff.1 hq
      obtain ⟨a, ha, rfl⟩ := Option.map_eq_some_iff.1 hq'
      refine h.send fun c hc => ?_
      cases hc
      exact ⟨a, ha, rfl⟩
  | forged => exact h.send nofun
  | close c =>
    rw [Sinks.step]
    cases hk : s.sys.conns c with
    | none => exact h
    | some => exact h.close hk

end Inv

def start (S : Setup) (db : Database) : Parked := { sys := .start S db }

theorem inv_start (S : Setup) (db : Database) : Inv (start S db) where
  conns := nofun
  parked := nofun
  distinct := nofun
  requests := nofun
  log := nofun

/-- If no two connections have an address in common, in every order of
requests, answers and ends of connections: what answers a request is written
to the sink of the connection that sent it or is dropped, so is every message
with the address of a connection, and the end of a connection removes no sink
but its own. -/
theorem sinks_own (S : Setup) (db : Database) (is : List Input)
    (h : Run.Meets step Distinct (start S db) is) :
    let s := Run.run step (start S db) is
    (∀ requester dest conn, .written requester dest conn ∈ s.log →
      (∀ c, requester = some c → conn = c) ∧ ∀ c a, s.addrs c = some a → For dest a → conn = c) ∧
    ∀ c conn, .removed c conn ∈ s.log → conn = c := by
  have hinv : Inv (Run.run step (start S db) is) :=
    Run.inv_run_of_meets (fun s i _ hs hd => hs.step i hd) (inv_start S db) h
  refine ⟨fun requester dest conn hev => ?_, fun c conn hev => hinv.log _ hev⟩
  obtain ⟨hreq, a', ha', hkey⟩ := hinv.log _ hev
  refine ⟨hreq, fun c a ha hfor => ?_⟩
  exact hinv.distinct conn a' c a ha' ha ((congrArg SocketAddr.bare hkey).trans hfor)

/-- A TCP connection and a WebSocket connection through a proxy, each of which gets the
answer to its request. -/
theorem sinks_own_two : let S : Setup := { codec := .plain }
    let is : List Input := [.acceptTcp 0 (.v4 0x01020304#32 5000),
        .acceptWs 1 (.v4 0x0A000001#32 40000) { xRealIp := some (some "5.6.7.8") },
        .request 0 0, .request 0 1, .answer 1 .other, .answer 0 .other, .close 0]
    let s := Run.run step (start S {}) is
    s.log = [.written (some 1) (.v4 0x05060708#32 0) 1, .written (some 0) (.v4 0x01020304#32 5000) 0] ∧
    ∀ c conn, .removed c conn ∈ s.log → conn = c := by
  intro S is s
  have hnew : ∀ c a, update (fun _ => none) 0 (some (.v4 0x01020304#32 5000)) c = some a →
      ¬For (wsAddr (.v4 0x0A000001#32 40000) { xRealIp := some (some "5.6.7.8") }) a := by
    intro c a ha
    by_cases hc : c = 0
    · rw [hc, update_self] at ha
      cases ha
      decide +kernel
    · simp [update_of_ne hc] at ha
  have hm : Run.Meets step Distinct (start S {}) is :=
    ⟨nofun, hnew, trivial, trivial, trivial, trivial, trivial, trivial⟩
  exact ⟨by decide +kernel, (sinks_own S {} is hm).2⟩

/-- Two WebSocket clients with one ip behind a proxy. The second request takes the place
of the first in `tcp_punch`, and the answer to the first is written to the sink of the
second. If the first was answered before, its end removes the sink of the second. -/
theorem sink_of_another : let S : Setup := { codec := .plain }
    let h : Headers := { xRealIp := some (some "1.2.3.4") }
    (Run.run step (start S {})
      [.acceptWs 0 (.v4 0x0A000001#32 40000) h, .acceptWs 1 (.v4 0x0A000001#32 40001) h,
        .request 0 0, .request 0 1, .answer 0 .other]).log =
      [.written (some 0) (.v4 0x01020304#32 0) 1] ∧
    (Run.run step (start S {})
      [.acceptWs 0 (.v4 0x0A000001#32 40000) h, .acceptWs 1 (.v4 0x0A000001#32 40001) h,
        .request 0 0, .answer 0 .other, .request 0 1, .close 0]).log =
      [.written (some 0) (.v4 0x01020304#32 0) 0, .removed 0 1] := by
  decide +kernel

end Sinks
end CodeDesk.Rendezvous
