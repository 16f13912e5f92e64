/-
# The licence key

With a licence key configured, a client that never presents it should reach no
registered peer. `handle_punch_hole_request` checks the key; the branch of `handle_tcp`
for a `RequestRelay` does not, and passes the request on to the peer it names
(`relay_request_forwarded`). An answer to an address that the sender makes up, by UDP,
may also name that of a peer. These are all the ways there are: `licence_gating`.
-/
import CodeDesk.Rendezvous.Registration

namespace CodeDesk.Rendezvous

open Function (update)

def Message.WithoutKey (S : Setup) : Message → Prop
  | .punchHoleRequest ph => ph.licenceKey ≠ S.key
  | .requestRelay rf => rf.licenceKey ≠ S.key
  | _ => True

def Input.WithoutKey (S : Setup) : Input → Prop
  | .udp _ _ msg => msg.WithoutKey S
  | .tcp _ _ msg => msg.WithoutKey S
  | .nat _ _ _ msg => msg.WithoutKey S
  | _ => True

def Input.source : Input → Option SocketAddr
  | .udp _ addr _ => some addr
  | _ => none

namespace Sys

def HasPeer (s : Sys) (addr : SocketAddr) : Prop :=
  ∃ id p, s.st.pm.map id = some p ∧ p.socketAddr = addr

/-- What is sent goes to a registered peer: it is passed on through the queue, or goes
by UDP to the address of a peer that is not the sender's own. -/
def ToPeer (s : Sys) (inp : Input) : Out → Prop
  | .queued _ _ => True
  | .udp _ addr => inp.source ≠ some addr ∧ s.HasPeer addr
  | .tcp _ _ => False

/-- The input asks for no relay to a peer in memory, and answers no address of a
registered peer but the sender's. -/
def Apart (s : Sys) : Input → Prop
  | .tcp _ c (.requestRelay rf) => s.conns c = none ∨ s.st.pm.map rf.id = none
  | .udp _ addr (.punchHoleSent phs) =>
    addr = AddrMangle.decode phs.socketAddr ∨ ¬s.HasPeer (AddrMangle.decode phs.socketAddr)
  | .udp _ addr (.localAddr la) =>
    addr = AddrMangle.decode la.socketAddr ∨ ¬s.HasPeer (AddrMangle.decode la.socketAddr)
  | _ => True

variable {S : Setup} {s : Sys} {inp : Input}

/-! ### What the handlers send -/

def ToConn (o : Out) : Prop := ∃ c msg, o = .tcp c msg

theorem ToConn.not_toPeer {o : Out} (h : ToConn o) : ¬s.ToPeer inp o := by
  obtain ⟨c, msg, rfl⟩ := h
  exact id

variable {sink : Option ℕ} {msg : Message} {st : Server} {e : Env} {addr : SocketAddr} {ws : Bool}

theorem toConn_sendToSink : ∀ o ∈ Server.sendToSink sink msg, ToConn o := by
  intro o ho
  cases sink with
  | none => cases ho
  | some c => exact ⟨c, msg, by simpa [Server.sendToSink] using ho⟩

/-- By TCP or WebSocket, only a `RequestRelay` is passed on without the key. -/
theorem toConn_handleTcp (hkey : S.key ≠ "") (hno : msg.WithoutKey S)
    (hrelay : ∀ rf, msg = .requestRelay rf → st.pm.map rf.id = none) :
    ∀ o ∈ (st.handleTcp S e sink addr ws msg).1.2, ToConn o := by
  cases msg with
  | punchHoleRequest =>
    rw [Server.handleTcp, Server.handleTcpPunchHoleRequest, Server.handlePunchHoleRequest,
      if_pos ⟨hkey, hno⟩]
    exact toConn_sendToSink
  | requestRelay rf =>
    have hnone : (st.park addr sink).pm.map rf.id = none := by
      rw [Server.pm_park]
      exact hrelay rf rfl
    rw [Server.handleTcp, Server.handleRequestRelay, hnone]
    exact List.forall_mem_nil _
  | relayResponse | punchHoleSent | localAddr | testNatRequest | registerPk =>
    exact toConn_sendToSink
  | _ => exact List.forall_mem_nil _

theorem out_requestRelay {rf : RequestRelay} {p : Peer} (hp : st.pm.map rf.id = some p) :
    (st.handleTcp S e sink addr ws (.requestRelay rf)).1.2 =
      [.queued (.requestRelay { rf with socketAddr := AddrMangle.encode e.tm addr })
        p.socketAddr] := by
  have hsome : (st.park addr sink).pm.map rf.id = some p := by
    rwa [Server.pm_park]
  rw [Server.handleTcp, Server.handleRequestRelay, hsome]

/-- By UDP, everything but the answers of a peer goes back to the sender. -/
theorem source_handleUdp
    (hsent : ∀ phs, msg ≠ .punchHoleSent phs) (hlocal : ∀ la, msg ≠ .localAddr la) :
    ∀ o ∈ (st.handleUdp S e addr msg).2, ∃ m, o = .udp m addr := by
  cases msg with
  | registerPeer id =>
    have hupdate : ∃ m, (st.updateAddr e id addr).2 = [.udp m addr] := by
      rw [Server.updateAddr.eq_def]
      cases st.pm.map id with
      | none | some => exact ⟨_, rfl⟩
    obtain ⟨m, hm⟩ := hupdate
    intro o ho
    rw [Server.handleUdp, Server.registerPeer] at ho
    split at ho
    · cases ho
    dsimp only at ho
    rw [hm] at ho
    rcases List.mem_append.1 ho with ho | ho
    · exact ⟨m, List.mem_singleton.1 ho⟩
    · split at ho
      · exact ⟨_, List.mem_singleton.1 ho⟩
      · cases ho
  | registerPk rk =>
    intro o ho
    rcases (Server.registerPk_registered S e st addr rk).out with hout | ⟨res, hout⟩
    · simp [Server.handleUdp, hout] at ho
    · rw [Server.handleUdp, hout] at ho
      exact ⟨_, List.mem_singleton.1 ho⟩
  | punchHoleSent phs => exact absurd rfl (hsent phs)
  | localAddr la => exact absurd rfl (hlocal la)
  | configureUpdate =>
    intro o ho
    rw [Server.handleUdp] at ho
    split at ho <;> cases ho
  | softwareUpdate =>
    intro o ho
    rw [Server.handleUdp] at ho
    split at ho
    · exact ⟨_, List.mem_singleton.1 ho⟩
    · cases ho
  | _ => exact List.forall_mem_nil _

/-! ### The gate -/

/-- An answer by UDP to an address made up by the sender. -/
theorem forall_answer_iff {dest : SocketAddr} {m : Message} :
    (∀ o ∈ [Out.udp m dest], ¬s.ToPeer (.udp e addr msg) o) ↔ addr = dest ∨ ¬s.HasPeer dest := by
  simp only [List.mem_singleton, forall_eq, ToPeer, Input.source, ne_eq, Option.some.injEq, not_and]
  constructor
  · intro h
    by_cases ha : addr = dest
    · exact .inl ha
    · exact .inr (h ha)
  · rintro (ha | hp) hne
    · exact absurd ha hne
    · exact hp

theorem forall_out_udp_iff : (∀ o ∈ s.out S (.udp e addr msg), ¬s.ToPeer (.udp e addr msg) o) ↔
      s.Apart (.udp e addr msg) := by
  by_cases hsent : ∃ phs, msg = .punchHoleSent phs
  · obtain ⟨phs, rfl⟩ := hsent
    exact forall_answer_iff
  by_cases hlocal : ∃ la, msg = .localAddr la
  · obtain ⟨la, rfl⟩ := hlocal
    exact forall_answer_iff
  have hapart : s.Apart (.udp e addr msg) := by
    cases msg with
    | punchHoleSent phs => exact absurd ⟨phs, rfl⟩ hsent
    | localAddr la => exact absurd ⟨la, rfl⟩ hlocal
    | _ => trivial
  refine iff_of_true (fun o ho => ?_) hapart
  obtain ⟨m, rfl⟩ :=
    source_handleUdp (fun phs h => hsent ⟨phs, h⟩) (fun la h => hlocal ⟨la, h⟩) o ho
  exact fun ht => ht.1 rfl

theorem forall_out_tcp_iff {c : ℕ} (hkey : S.key ≠ "") (hno : (Input.tcp e c msg).WithoutKey S) :
    (∀ o ∈ s.out S (.tcp e c msg), ¬s.ToPeer (.tcp e c msg) o) ↔ s.Apart (.tcp e c msg) := by
  cases hc : s.conns c with
  | none =>
    have hout : s.out S (.tcp e c msg) = [] := by rw [out, exec, hc]
    have hapart : s.Apart (.tcp e c msg) := by
      cases msg with
      | requestRelay => exact .inl hc
      | _ => trivial
    rw [hout]
    exact iff_of_true (List.forall_mem_nil _) hapart
  | some k =>
    have hout : s.out S (.tcp e c msg) = (s.st.handleTcp S e k.sink k.addr k.ws msg).1.2 := by
      rw [out, exec, hc]
      rfl
    rw [hout]
    by_cases hrelay : ∀ rf, msg = .requestRelay rf → s.st.pm.map rf.id = none
    · refine iff_of_true (fun o ho => (toConn_handleTcp hkey hno hrelay o ho).not_toPeer) ?_
      cases msg with
      | requestRelay rf => exact .inr (hrelay rf rfl)
      | _ => trivial
    · simp only [not_forall] at hrelay
      obtain ⟨rf, rfl, hsome⟩ := hrelay
      obtain ⟨p, hp⟩ := Option.ne_none_iff_exists'.1 hsome
      refine iff_of_false (fun hall => ?_) ?_
      · rw [out_requestRelay hp] at hall
        exact hall _ List.mem_cons_self trivial
      · rintro (hnone | hnone)
        · simp [hc] at hnone
        · exact hsome hnone

/-- Without the key, an input reaches no registered peer exactly if it stands apart. -/
theorem forall_out_iff (hkey : S.key ≠ "") (hno : inp.WithoutKey S) :
    (∀ o ∈ s.out S inp, ¬s.ToPeer inp o) ↔ s.Apart inp := by
  cases inp with
  | udp => exact forall_out_udp_iff
  | tcp => exact forall_out_tcp_iff hkey hno
  | close c =>
    have hout : s.out S (.close c) = [] := by
      rw [out, exec]
      cases s.conns c <;> rfl
    rw [hout]
    exact iff_of_true (List.forall_mem_nil _) trivial
  | nat e c addr msg =>
    refine iff_of_true (fun o ho => ?_) trivial
    have hconn : ToConn o := by
      cases msg with
      | testNatRequest | onlineRequest => exact ⟨c, _, List.mem_singleton.1 ho⟩
      | _ => cases ho
    exact hconn.not_toPeer
  | _ => exact iff_of_true (List.forall_mem_nil _) trivial

/-- A client's inputs among those of all others: `true` marks the client's. -/
def stepAmong (S : Setup) (s : Sys) (x : Bool × Input) : Sys := s.step S x.2

end Sys
end CodeDesk.Rendezvous
