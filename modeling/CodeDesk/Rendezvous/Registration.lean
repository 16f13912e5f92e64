/-
# Registration

A `RegisterPk` is dropped, refused or accepted (`Server.Registered`), and no other
message changes a uuid or a pk. In a run in which the calls of the database made for a
`RegisterPk` succeed (`DbOk`) memory and table agree (`Agree`), and an id stays bound to
its uuid: `identity_binding`, `registration_persisted`.

If they fail, the server answers `OK` all the same, since it does not look at the
result of `update_pk`, and takes an id whose row it could not read for a new one
(`acknowledged_without_row`).
-/
import CodeDesk.Rendezvous.Known
import CodeDesk.Rendezvous.System

namespace CodeDesk.Rendezvous

open Function (update)

/-! ### A `RegisterPk` -/

namespace Server

variable {S : Setup} {e : Env} {st : Server} {addr : SocketAddr} {rk : RegisterPk}

variable {p : Peer} {r : Server × List Out} {res : RegisterPkResult} {pm' : PeerMap}

theorem countRegPk_default (now : ℕ) : countRegPk now (Peer.default now).regPk ≠ none := by
  rw [countRegPk]
  split
  · nofun
  · rw [if_neg nofun]
    nofun

theorem checkPk_some {ip : String} {c : Bool × Bool} (h : checkPk p rk ip = some c) :
    p.uuid = [] ∧ c.1 = true ∨ p.uuid = rk.uuid ∧ (p.pk = rk.pk ∨ p.info.ip = ip) ∧
        (c.1 = false → p.pk = rk.pk) := by
  unfold checkPk at h
  split_ifs at h with hblank hu hip <;> cases h
  · exact .inl ⟨hblank, rfl⟩
  refine .inr ⟨hu, ?_, fun hc => ?_⟩
  · by_cases hpk : p.pk = rk.pk
    · exact .inl hpk
    · exact .inr (by_contra fun hne => hip ⟨hne, hpk⟩)
  · simp only [Bool.or_eq_false_iff, decide_eq_false_iff_not, not_not] at hc
    exact hc.1.2

/-- What becomes of a `RegisterPk`: it is dropped or refused before the peer is looked
up, refused after, or accepted. -/
inductive Registered (S : Setup) (e : Env) (st : Server) (addr : SocketAddr) (rk : RegisterPk) :
    Server × List Out → Prop where
  | dropped : Registered S e st addr rk (st, [])
  | refused (st' : Server) (res : RegisterPkResult) (hpm : st'.pm = st.pm) (hres : res ≠ .ok) :
    Registered S e st addr rk (st', sendRkRes addr res)
  | rejected (st' : Server) (res : RegisterPkResult) (hres : res ≠ .ok)
      (hpm : st'.pm = (st.pm.getOr S.codec e.now e.io rk.id).1)
      (hcheck : checkPk (st.pm.getOr S.codec e.now e.io rk.id).2 rk (ipText addr.ip) = none ∨
        countRegPk e.now (st.pm.getOr S.codec e.now e.io rk.id).2.regPk = none) :
    Registered S e st addr rk (st', sendRkRes addr res)
  | accepted (st' : Server) (changed ipChanged : Bool) (regPk : ℕ × ℕ) (huuid : rk.uuid ≠ [])
      (hcheck : checkPk (st.pm.getOr S.codec e.now e.io rk.id).2 rk (ipText addr.ip) =
        some (changed, ipChanged))
      (hpm : st'.pm =
        let q := st.pm.getOr S.codec e.now e.io rk.id
        let p := { q.2 with regPk := regPk }
        if changed then
          ((q.1.put rk.id p).updatePk S.codec e.now e.io rk.id p addr rk.uuid rk.pk
            (ipText addr.ip)).1
        else q.1.put rk.id p) :
    Registered S e st addr rk (st', sendRkRes addr .ok)

theorem Registered.out (h : Registered S e st addr rk r) :
    r.2 = [] ∨ ∃ res, r.2 = sendRkRes addr res := by
  cases h with
  | dropped => exact .inl rfl
  | refused _ res | rejected _ res => exact .inr ⟨res, rfl⟩
  | accepted => exact .inr ⟨.ok, rfl⟩

theorem Registered.answer (h : Registered S e st addr rk r)
    (hmem : .udp (.registerPkResponse res) addr ∈ r.2) : r.2 = sendRkRes addr res := by
  rcases h.out with hout | ⟨res', hout⟩
  · simp [hout] at hmem
  · rw [hout] at hmem
    simp only [sendRkRes, List.mem_singleton, Out.udp.injEq, Message.registerPkResponse.injEq,
      and_true] at hmem
    rw [hout, hmem]

theorem sendRkRes_ne (h : res ≠ .ok) : sendRkRes addr res ≠ sendRkRes addr .ok := by
  simpa [sendRkRes] using h

theorem registerPk_registered (S : Setup) (e : Env) (st : Server) (addr : SocketAddr)
    (rk : RegisterPk) : Registered S e st addr rk (st.registerPk S e addr rk) := by
  unfold registerPk
  by_cases hempty : rk.uuid = [] ∨ rk.pk = []
  · rw [if_pos hempty]
    exact .dropped
  rw [if_neg hempty]
  split_ifs with hlen
  · exact .refused _ _ rfl nofun
  dsimp only
  cases hb : checkIpBlocker e.now (st.ipBlocker (ipText addr.ip)) rk.id with
  | mk pass =>
    split_ifs with hpass
    · exact .refused _ _ rfl nofun
    cases hc : checkPk (st.pm.getOr S.codec e.now e.io rk.id).2 rk (ipText addr.ip) with
    | none => exact .rejected _ _ nofun rfl (.inl hc)
    | some c =>
      cases hr : countRegPk e.now (st.pm.getOr S.codec e.now e.io rk.id).2.regPk with
      | none => exact .rejected _ _ nofun rfl (.inr hr)
      | some regPk =>
        exact .accepted _ c.1 c.2 regPk (fun h => hempty (.inl h)) hc
          (by cases c.1 <;> cases c.2 <;> rfl)

/-- How the database has to behave for a `RegisterPk`: the row can be read if the peer
is not in memory, and the row that is inserted or updated is written. -/
structure DbServes (e : Env) (pm : PeerMap) (id : String) : Prop where
  reads : pm.map id = none → e.io.reads = true
  writes : e.io.writes = true
  guid : e.io.guid ≠ []
  fresh : e.io.guid ∉ pm.db.rows.map Row.guid

open PeerMap (Agree)

/-- The pk of a bound id changes only under the condition `allowed`. -/
def Binds (J : InfoCodec) (pm pm' : PeerMap) (allowed : String → Known → Prop) : Prop :=
  ∀ id k, pm.known J id = some k → k.uuid ≠ [] →
    ∃ k', pm'.known J id = some k' ∧ k'.uuid = k.uuid ∧ (k'.pk ≠ k.pk → allowed id k)

theorem Binds.of_known {J : InfoCodec} {pm : PeerMap} {allowed : String → Known → Prop}
    (h : pm'.known J = pm.known J) : Binds J pm pm' allowed := fun id k hk _ =>
  ⟨k, (congrFun h id).trans hk, rfl, fun hne => absurd rfl hne⟩

theorem known_of_check
    (hcheck : checkPk (st.pm.getOr S.codec e.now e.io rk.id).2 rk (ipText addr.ip) = none ∨
      countRegPk e.now (st.pm.getOr S.codec e.now e.io rk.id).2.regPk = none) :
    (st.pm.getOr S.codec e.now e.io rk.id).1 = (st.pm.get S.codec e.now e.io rk.id).1 := by
  obtain ⟨-, -, ⟨hq, -⟩ | ⟨-, -, hq⟩⟩ := PeerMap.getOr_spec S.codec e.now e.io st.pm rk.id
  · exact hq
  · -- a new peer would have passed
    rw [hq] at hcheck
    exact absurd (hcheck.resolve_left nofun) (countRegPk_default e.now)

/-- An accepted request: the peer that passed the check is the one known, and it has
the uuid and the pk of the request afterwards. -/
theorem accepted_spec {changed ipChanged : Bool} {regPk : ℕ × ℕ}
    (hA : Agree S.codec st.pm) (hdb : DbServes e st.pm rk.id) (huuid : rk.uuid ≠ [])
    (hcheck : checkPk (st.pm.getOr S.codec e.now e.io rk.id).2 rk (ipText addr.ip) =
      some (changed, ipChanged))
    (hpm : pm' = let q := st.pm.getOr S.codec e.now e.io rk.id
      let p := { q.2 with regPk := regPk }
      if changed then ((q.1.put rk.id p).updatePk S.codec e.now e.io rk.id p addr rk.uuid rk.pk
          (ipText addr.ip)).1
      else q.1.put rk.id p) :
    Agree S.codec pm' ∧
    Binds S.codec st.pm pm' (fun id k => rk.id = id ∧ rk.uuid = k.uuid ∧
      ipText addr.ip = k.info.ip) ∧
    ∃ k, pm'.known S.codec rk.id = some k ∧ k.uuid = rk.uuid ∧ k.pk = rk.pk := by
  let q := st.pm.getOr S.codec e.now e.io rk.id
  let p := { q.2 with regPk := regPk }
  let pm₁ := q.1.put rk.id p
  obtain ⟨hqdb, hqmap, -⟩ := PeerMap.getOr_spec S.codec e.now e.io st.pm rk.id
  have hA₁ : Agree S.codec pm₁ := (hA.getOr _ _ hdb.reads).put_same hqmap rfl rfl rfl rfl
  have hmine : pm₁.map rk.id = some p := Function.update_self ..
  have hkeep : ∀ id k, st.pm.known S.codec id = some k → pm₁.known S.codec id = some k := by
    intro id k hk
    have hq : q.1.known S.codec rk.id = some p.known := PeerMap.known_mem (p := q.2) hqmap
    have hsame : pm₁.known S.codec = q.1.known S.codec := PeerMap.known_put_same hq
    rw [hsame]
    exact PeerMap.getOr_known hdb.reads hk
  -- what is known of the id before is the peer that was checked
  have hchecked : ∀ k, st.pm.known S.codec rk.id = some k → k = p.known := by
    intro k hk
    exact Option.some.inj ((hkeep _ k hk).symm.trans (PeerMap.known_mem hmine))
  cases changed with
  | false =>
    obtain ⟨-, hc⟩ | ⟨hu, -, hpk⟩ := checkPk_some hcheck
    · cases hc
    · have hpm₁ : pm' = pm₁ := hpm
      rw [hpm₁]
      refine ⟨hA₁, fun id k hk _ => ⟨k, hkeep id k hk, rfl, fun hne => absurd rfl hne⟩,
        p.known, PeerMap.known_mem hmine, hu, hpk rfl⟩
  | true =>
    have hu : p.uuid = [] ∨ p.uuid = rk.uuid :=
      (checkPk_some hcheck).imp (fun h => h.1) fun h => h.1
    have hfresh : e.io.guid ∉ pm₁.db.rows.map Row.guid := by
      show e.io.guid ∉ q.1.db.rows.map Row.guid
      rw [hqdb]
      exact hdb.fresh
    obtain ⟨hA', ⟨g, hknown⟩, hother⟩ := hA₁.updatePk hmine hu huuid hdb.writes hdb.guid hfresh
      e.now addr rk.pk (ipText addr.ip)
    have hpm₁ : pm' = (pm₁.updatePk S.codec e.now e.io rk.id p addr rk.uuid rk.pk
      (ipText addr.ip)).1 := hpm
    rw [hpm₁]
    refine ⟨hA', fun id k hk hne => ?_, _, hknown, rfl, rfl⟩
    by_cases hid : id = rk.id
    · subst hid
      obtain rfl := hchecked k hk
      have huk : p.uuid = rk.uuid := hu.resolve_left hne
      refine ⟨_, hknown, huk.symm, fun hpk => ⟨rfl, huk.symm, ?_⟩⟩
      obtain ⟨hblank, -⟩ | ⟨-, hpk' | hip, -⟩ := checkPk_some hcheck
      · exact absurd hblank hne
      · exact absurd hpk'.symm hpk
      · exact hip.symm
    · exact ⟨k, (hother id hid).trans (hkeep id k hk), rfl, fun h => absurd rfl h⟩

theorem Registered.spec (h : Registered S e st addr rk r)
    (hA : Agree S.codec st.pm) (hdb : DbServes e st.pm rk.id) :
    Agree S.codec r.1.pm ∧
    Binds S.codec st.pm r.1.pm (fun id k => rk.id = id ∧ rk.uuid = k.uuid ∧
      ipText addr.ip = k.info.ip) ∧
    (r.2 = sendRkRes addr .ok → ∃ k, r.1.pm.known S.codec rk.id = some k ∧ k.uuid = rk.uuid ∧
      k.pk = rk.pk ∧ rk.uuid ≠ []) ∧
    (r.2 ≠ sendRkRes addr .ok → r.1.pm.known S.codec = st.pm.known S.codec ∧
      r.1.pm.db = st.pm.db) := by
  cases h with
  | dropped => exact ⟨hA, .of_known rfl, nofun, fun _ => ⟨rfl, rfl⟩⟩
  | refused st' res hpm hres =>
    rw [hpm]
    exact ⟨hA, .of_known rfl, fun hok => absurd hok (sendRkRes_ne hres), fun _ => ⟨rfl, rfl⟩⟩
  | rejected st' res hres hpm hcheck =>
    obtain ⟨hknown, hdb', -⟩ := PeerMap.get_spec S.codec e.now e.io st.pm rk.id
    rw [hpm, known_of_check hcheck]
    exact ⟨hA.get _ _ _, .of_known hknown, fun hok => absurd hok (sendRkRes_ne hres),
      fun _ => ⟨hknown, hdb'⟩⟩
  | accepted st' changed ipChanged regPk huuid hcheck hpm =>
    obtain ⟨hA', hbinds, k, hk, hku, hkpk⟩ := accepted_spec hA hdb huuid hcheck hpm
    exact ⟨hA', hbinds, fun _ => ⟨k, hk, hku, hkpk, huuid⟩, fun hne => absurd rfl hne⟩

/-! ### The other messages -/

def Looked (S : Setup) (e : Env) (pm pm' : PeerMap) : Prop :=
  pm' = pm ∨ ∃ id, pm' = (pm.get S.codec e.now e.io id).1

variable (st)

theorem pm_park (addr : SocketAddr) (sink : Option ℕ) : (st.park addr sink).pm = st.pm := by
  cases sink <;> rfl

theorem pm_answer (udp : Bool) (msg : Message) (addr : SocketAddr) :
    (st.answer udp msg addr).1.pm = st.pm := by
  cases udp <;> rfl

theorem pm_getRelayServer : st.getRelayServer.1.pm = st.pm := by
  unfold getRelayServer
  split <;> rfl

theorem pm_recordPunchReq (addr peerAddr : SocketAddr) (id : String) :
    (st.recordPunchReq e addr peerAddr id).pm = st.pm := by
  unfold recordPunchReq
  dsimp only
  split <;> rfl

theorem looked_getPk (version id : String) : Looked S e st.pm (st.getPk S e version id).1.pm := by
  unfold getPk
  split
  · exact .inl rfl
  split
  · exact .inl rfl
  · exact .inr ⟨id, rfl⟩

theorem looked_handleHoleSent (phs : PunchHoleSent) (addr : SocketAddr) (udp : Bool) :
    Looked S e st.pm (st.handleHoleSent S e phs addr udp).1.pm := by
  rw [handleHoleSent, pm_answer]
  exact looked_getPk st phs.version phs.id

theorem looked_handleLocalAddr (la : LocalAddr) (udp : Bool) :
    Looked S e st.pm (st.handleLocalAddr S e la udp).1.pm := by
  rw [handleLocalAddr, pm_answer]
  exact looked_getPk st la.version la.id

theorem looked_handleRelayResponse (rr : RelayResponse) :
    Looked S e st.pm (st.handleRelayResponse S e rr).1.pm := by
  have hlook : ∀ id : String, Looked S e st.pm (if id = "" then (st, rr.union) else
        ((st.getPk S e rr.version id).1, IdOrPk.pk (st.getPk S e rr.version id).2)).1.pm := by
    intro id
    split
    · exact .inl rfl
    · exact looked_getPk st rr.version id
  have hrelay : ∀ u : Server, (if rr.relayServer = "" then (u, rr.relayServer)
        else if isLan S (AddrMangle.decode rr.socketAddr) then (u, S.localIp)
        else if rr.relayServer = S.localIp then u.getRelayServer
        else (u, rr.relayServer)).1.pm = u.pm := by
    intro u
    split_ifs <;> first | rfl | exact pm_getRelayServer u
  unfold handleRelayResponse
  dsimp only [sendToTcp]
  rw [hrelay]
  exact hlook _

theorem looked_handlePunchHoleRequest (addr : SocketAddr) (ph : PunchHoleRequest)
    (ws : Bool) : Looked S e st.pm (st.handlePunchHoleRequest S e addr ph ws).1.pm := by
  unfold handlePunchHoleRequest
  split_ifs with hkey
  · exact .inl rfl
  dsimp only
  cases hq : (st.pm.get S.codec e.now e.io ph.id).2 with
  | none => exact .inr ⟨ph.id, rfl⟩
  | some =>
    dsimp only
    split
    · exact .inr ⟨ph.id, rfl⟩
    · refine .inr ⟨ph.id, ?_⟩
      rw [pm_getRelayServer, pm_recordPunchReq]

theorem looked_handleTcpPunchHoleRequest (addr : SocketAddr) (ph : PunchHoleRequest)
    (ws : Bool) : Looked S e st.pm (st.handleTcpPunchHoleRequest S e addr ph ws).1.pm := by
  have h := looked_handlePunchHoleRequest (S := S) (e := e) st addr ph ws
  unfold handleTcpPunchHoleRequest
  cases hq : st.handlePunchHoleRequest S e addr ph ws with
  | mk st' r =>
    rw [hq] at h
    obtain ⟨msg, dest⟩ := r
    cases dest with
    | none | some => exact h

theorem looked_handleTcp (sink : Option ℕ) (addr : SocketAddr) (ws : Bool)
    (msg : Message) : Looked S e st.pm (st.handleTcp S e sink addr ws msg).1.1.pm := by
  cases msg with
  | punchHoleRequest ph =>
    have h := looked_handleTcpPunchHoleRequest (S := S) (e := e) (st.park addr sink) addr ph ws
    rwa [pm_park] at h
  | requestRelay => exact .inl (pm_park st addr sink)
  | relayResponse rr => exact looked_handleRelayResponse st rr
  | punchHoleSent phs => exact looked_handleHoleSent st phs addr false
  | localAddr la => exact looked_handleLocalAddr st la false
  | _ => exact .inl rfl

end Server

/-! ### Runs -/

namespace Sys

open PeerMap (Agree)
open Server (DbServes Binds)

variable {S : Setup} {s : Sys} {inp : Input}

def DbOk (s : Sys) : Input → Prop
  | .udp e _ (.registerPk rk) => DbServes e s.st.pm rk.id
  | _ => True

def Owner (inp : Input) (id : String) (k : Known) : Prop :=
  ∃ e addr rk, inp = .udp e addr (.registerPk rk) ∧ rk.id = id ∧ rk.uuid = k.uuid ∧
    ipText addr.ip = k.info.ip

structure Keeps (J : InfoCodec) (pm pm' : PeerMap) (allowed : String → Known → Prop) : Prop where
  agree : Agree J pm'
  binds : Binds J pm pm' allowed

variable {e : Env} {pm pm' : PeerMap} {allowed : String → Known → Prop} {id : String}
  {addr : SocketAddr}

theorem Keeps.of_eq (hA : Agree S.codec pm) (h : pm' = pm) : Keeps S.codec pm pm' allowed := by
  subst h
  exact ⟨hA, .of_known rfl⟩

theorem keeps_looked (h : Server.Looked S e pm pm') (hA : Agree S.codec pm) :
    Keeps S.codec pm pm' allowed := by
  rcases h with h | ⟨id, rfl⟩
  · exact .of_eq hA h
  · exact ⟨hA.get _ _ _, .of_known (PeerMap.get_spec S.codec e.now e.io pm id).1⟩

theorem keeps_updateAddr {p : Peer} (hp : pm.map id = some p) (hA : Agree S.codec pm) :
    Keeps S.codec pm (pm.put id (p.updateAddr e.now addr)) allowed := by
  have hsame : (p.updateAddr e.now addr).guid = p.guid ∧ (p.updateAddr e.now addr).uuid = p.uuid ∧
      (p.updateAddr e.now addr).pk = p.pk ∧ (p.updateAddr e.now addr).info = p.info := by
    rw [Peer.updateAddr]
    split <;> exact ⟨rfl, rfl, rfl, rfl⟩
  obtain ⟨hguid, huuid, hpk, hinfo⟩ := hsame
  refine ⟨hA.put_same hp hguid huuid hpk hinfo, fun id' k hk _ => ?_⟩
  rw [PeerMap.known_put]
  by_cases hid : id' = id
  · subst hid
    cases (PeerMap.known_mem hp).symm.trans hk
    rw [if_pos rfl]
    exact ⟨_, rfl, huuid, fun hne => absurd hpk hne⟩
  · rw [if_neg hid]
    exact ⟨k, hk, rfl, fun hne => absurd rfl hne⟩

theorem pm_close (s : Sys) (c : ℕ) (k : Conn) : (s.close c k).st.pm = s.st.pm := by
  unfold close
  split <;> rfl

theorem pm_accept (s : Sys) (c : ℕ) (addr : SocketAddr) (ws : Bool) :
    (s.accept c addr ws).st.pm = s.st.pm := by
  unfold accept
  split <;> rfl

theorem keeps_registerPeer {serial : ℤ} {st : Server} (hA : Agree S.codec st.pm) :
    Keeps S.codec st.pm (st.registerPeer e addr id serial).1.pm allowed := by
  unfold Server.registerPeer
  split
  · exact .of_eq hA rfl
  · rw [Server.updateAddr.eq_def]
    cases hp : st.pm.map id with
    | none => exact .of_eq hA rfl
    | some => exact keeps_updateAddr hp hA

/-- A datagram keeps the map and the database in agreement. Only a `RegisterPk` changes a key. -/
theorem keeps_udp {msg : Message} (hA : Agree S.codec s.st.pm) (hdb : DbOk s (.udp e addr msg)) :
    Keeps S.codec s.st.pm (s.st.handleUdp S e addr msg).1.pm (Owner (.udp e addr msg)) := by
  cases msg with
  | registerPeer => exact keeps_registerPeer hA
  | registerPk rk =>
    obtain ⟨hA', hbinds, -⟩ := (Server.registerPk_registered S e s.st addr rk).spec hA hdb
    refine ⟨hA', fun id k hk hu => ?_⟩
    obtain ⟨k', hk', huuid, hallowed⟩ := hbinds id k hk hu
    exact ⟨k', hk', huuid, fun hne => ⟨e, addr, rk, rfl, hallowed hne⟩⟩
  | punchHoleSent phs => exact keeps_looked (Server.looked_handleHoleSent s.st phs addr true) hA
  | localAddr la => exact keeps_looked (Server.looked_handleLocalAddr s.st la true) hA
  | configureUpdate =>
    rw [Server.handleUdp]
    split <;> exact .of_eq hA rfl
  | _ => exact .of_eq hA rfl

theorem keeps_step (hA : Agree S.codec s.st.pm) (hdb : DbOk s inp) :
    Keeps S.codec s.st.pm (s.step S inp).st.pm (Owner inp) := by
  cases inp with
  | udp => exact keeps_udp hA hdb
  | acceptTcp c addr => exact .of_eq hA (pm_accept s c addr false)
  | acceptWs c addr hd => exact .of_eq hA (pm_accept s c (wsAddr addr hd) true)
  | tcp e c msg =>
    cases hc : s.conns c with
    | none => exact .of_eq hA (by rw [step, exec, hc])
    | some k =>
      have hpm : (s.step S (.tcp e c msg)).st.pm =
          (s.st.handleTcp S e k.sink k.addr k.ws msg).1.1.pm := by
        rw [step, exec, hc]
        dsimp only [tcp]
        split
        · rfl
        · exact pm_close _ _ _
      rw [hpm]
      exact keeps_looked (Server.looked_handleTcp s.st k.sink k.addr k.ws msg) hA
  | close c =>
    refine .of_eq hA ?_
    cases hc : s.conns c with
    | none => rw [step, exec, hc]
    | some k =>
      rw [step, exec, hc]
      exact pm_close s c k
  | nat | relayServers => exact .of_eq hA rfl
  | restart =>
    refine ⟨⟨hA.rows, nofun⟩, fun id k hk hu => ?_⟩
    exact ⟨_, hA.known_restart hk hu, rfl, fun hne => absurd rfl hne⟩

theorem agree_start : Agree S.codec (start S {}).st.pm where
  rows := nofun
  mem := nofun

theorem agree_run {is : List Input} (h : Run.Meets (step S) DbOk (start S {}) is) :
    Agree S.codec (Run.run (step S) (start S {}) is).st.pm :=
  Run.inv_run_of_meets (I := fun s => Agree S.codec s.st.pm)
    (fun _ _ _ hA hdb => (keeps_step hA hdb).agree) agree_start h

theorem uuid_run {js : List Input} (hA : Agree S.codec s.st.pm) (h : Run.Meets (step S) DbOk s js)
    {k : Known} (hk : s.st.pm.known S.codec id = some k) (hu : k.uuid ≠ []) :
    ∃ k', (Run.run (step S) s js).st.pm.known S.codec id = some k' ∧ k'.uuid = k.uuid := by
  induction js generalizing s k with
  | nil => exact ⟨k, hk, rfl⟩
  | cons inp js ih =>
    obtain ⟨hA', hbinds⟩ := keeps_step hA h.1
    obtain ⟨k', hk', huuid, -⟩ := hbinds id k hk hu
    obtain ⟨k'', hk'', huuid'⟩ := ih hA' h.2 hk' (huuid.symm ▸ hu)
    exact ⟨k'', hk'', huuid'.trans huuid⟩

/-- If the calls of the database made for registrations succeed: what is known
of a bound id is also what its row has; its uuid never changes; its pk changes
only by a `RegisterPk` with its uuid from its recorded ip; and a `RegisterPk`
that is answered with anything but `OK` changes nothing that is known of any
peer. -/
theorem identity_binding (S : Setup) (is js : List Input)
    (h : Run.Meets (step S) DbOk (start S {}) (is ++ js)) :
    let s := Run.run (step S) (start S {}) is
    (∀ id k, s.st.pm.known S.codec id = some k → k.uuid ≠ [] →
      (∃ r, s.st.pm.db.getPeer id = some r ∧ r.guid = k.guid ∧ r.uuid = k.uuid ∧ r.pk = k.pk ∧
        S.codec.read r.info = some k.info) ∧
      ∃ k', (Run.run (step S) s js).st.pm.known S.codec id = some k' ∧ k'.uuid = k.uuid) ∧
    ∀ inp, DbOk s inp → (∀ id k, s.st.pm.known S.codec id = some k → k.uuid ≠ [] →
        ∃ k', (s.step S inp).st.pm.known S.codec id = some k' ∧ k'.uuid = k.uuid ∧
          (k'.pk ≠ k.pk → Owner inp id k)) ∧
      ∀ e addr rk res, inp = .udp e addr (.registerPk rk) → res ≠ .ok →
        .udp (.registerPkResponse res) addr ∈ s.out S inp →
        (∀ id, (s.step S inp).st.pm.known S.codec id = s.st.pm.known S.codec id) ∧
          (s.step S inp).st.pm.db = s.st.pm.db := by
  obtain ⟨his, hjs⟩ := (Run.meets_append (step S) _ is js).1 h
  have hA := agree_run his
  intro s
  refine ⟨fun id k hk hu => ⟨hA.known_bound hk hu, uuid_run hA hjs hk hu⟩, fun inp hdb => ?_⟩
  refine ⟨(keeps_step hA hdb).binds, ?_⟩
  rintro e addr rk res rfl hres hout
  have hreg := Server.registerPk_registered S e s.st addr rk
  obtain ⟨-, -, -, hrefused⟩ := hreg.spec hA hdb
  obtain ⟨hknown, hdb'⟩ := hrefused ((hreg.answer hout).symm ▸ Server.sendRkRes_ne hres)
  exact ⟨congrFun hknown, hdb'⟩

/-- A peer registers, comes back from its ip with a new key after a restart of the
server, and somebody else asks for the id with another uuid. -/
theorem identity_binding_restart : let S : Setup := { codec := .plain }
    let e : Env := { now := 5000000, io := { guid := List.replicate 16 1 } }
    let e' : Env := { now := 5010000, io := { guid := List.replicate 16 2 } }
    let s := Run.run (step S) (start S {})
      [.udp e (.v4 0x01020304#32 5000) (.registerPk ⟨"123456789", [7], [8]⟩), .restart]
    (s.st.pm.known S.codec "123456789").map Known.uuid = some [7] ∧
    ((s.step S (.udp e' (.v4 0x01020304#32 5001) (.registerPk ⟨"123456789", [7], [9]⟩))).st.pm.known
      S.codec "123456789").map Known.pk = some [9] ∧
    (s.step S (.udp e' (.v4 0x05060708#32 5000) (.registerPk ⟨"123456789", [6], [9]⟩))).st.pm.db =
      s.st.pm.db := by
  intro S e e' s
  have h : Run.Meets (step S) DbOk (start S {})
      ([.udp e (.v4 0x01020304#32 5000) (.registerPk ⟨"123456789", [7], [8]⟩), .restart] ++ []) :=
    ⟨⟨fun _ => rfl, rfl, by decide, by decide +kernel⟩, trivial, trivial⟩
  refine ⟨by decide +kernel, by decide +kernel, ?_⟩
  have hdb : DbOk s (.udp e' (.v4 0x05060708#32 5000) (.registerPk ⟨"123456789", [6], [9]⟩)) :=
    ⟨fun _ => rfl, rfl, by decide, by decide +kernel⟩
  refine (((identity_binding S _ [] h).2 _ hdb).2 e' _ _ .uuidMismatch rfl nofun ?_).2
  decide +kernel

/-- In such a run a `RegisterPk` is answered `OK` only when the table has a row for the
id with its uuid and pk; and the uuid of a row is the uuid known for its id, also after
any next input. -/
theorem registration_persisted (S : Setup) (is : List Input) (inp : Input)
    (h : Run.Meets (step S) DbOk (start S {}) (is ++ [inp])) :
    let s := Run.run (step S) (start S {}) is
    (∀ e addr rk, inp = .udp e addr (.registerPk rk) →
      .udp (.registerPkResponse .ok) addr ∈ s.out S inp →
      ∃ r, (s.step S inp).st.pm.db.getPeer rk.id = some r ∧ r.uuid = rk.uuid ∧ r.pk = rk.pk) ∧
    ∀ id r, s.st.pm.db.getPeer id = some r →
      ∃ k, (s.step S inp).st.pm.known S.codec id = some k ∧ k.uuid = r.uuid := by
  obtain ⟨his, hinp⟩ := (Run.meets_append (step S) _ is [inp]).1 h
  have hA := agree_run his
  intro s
  obtain ⟨hA', hbinds⟩ := keeps_step hA hinp.1
  refine ⟨?_, fun id r hr => ?_⟩
  · rintro e addr rk rfl hout
    have hreg := Server.registerPk_registered S e s.st addr rk
    obtain ⟨-, -, hok, -⟩ := hreg.spec hA hinp.1
    obtain ⟨k, hk, huuid, hpk, hne⟩ := hok (hreg.answer hout)
    obtain ⟨r, hr, -, hru, hrpk, -⟩ := hA'.known_bound hk (huuid.symm ▸ hne)
    exact ⟨r, hr, hru.trans huuid, hrpk.trans hpk⟩
  · obtain ⟨k, hk, hku⟩ := hA.known_of_row hr
    obtain ⟨k', hk', huuid, -⟩ := hbinds id k hk (hku.symm ▸ (hA.rows id r hr).1)
    exact ⟨k', hk', huuid.trans hku⟩

theorem registration_persisted_first : let S : Setup := { codec := .plain }
    let e : Env := { now := 5000000, io := { guid := List.replicate 16 1 } }
    let addr : SocketAddr := .v4 0x01020304#32 5000
    let s' := (start S {}).step S (.udp e addr (.registerPk ⟨"123456789", [7], [8]⟩))
    ∃ r, s'.st.pm.db.getPeer "123456789" = some r ∧ r.uuid = [7] ∧ r.pk = [8] := by
  intro S e addr s'
  refine (registration_persisted S [] (.udp e addr (.registerPk ⟨"123456789", [7], [8]⟩))
    ⟨⟨fun _ => rfl, rfl, by decide, by decide +kernel⟩, trivial⟩).1 e addr _ rfl ?_
  decide +kernel

/-- A new peer registers and the insertion fails: the answer is `OK`, and
there is no row. After a restart the row of a peer cannot be read when another
asks for its id with a uuid and a key of its own: the answer is `OK`, and
memory has those of the other, while the row has those of the owner. -/
theorem acknowledged_without_row : let S : Setup := { codec := .plain }
    let fails : Env := { now := 5000000, io := { writes := false } }
    let unread : Env := { now := 5010000, io := { reads := false, guid := List.replicate 16 2 } }
    let fine : Env := { now := 5000000, io := { guid := List.replicate 16 1 } }
    let addr : SocketAddr := .v4 0x01020304#32 5000
    let other : SocketAddr := .v4 0x05060708#32 5000
    let rk : RegisterPk := ⟨"123456789", [7], [8]⟩
    let s := Run.run (step S) (start S {}) [.udp fine addr (.registerPk rk), .restart]
    let take := Input.udp unread other (.registerPk ⟨"123456789", [6], [9]⟩)
    ((start S {}).out S (.udp fails addr (.registerPk rk)) = [.udp (.registerPkResponse .ok) addr] ∧
      ((start S {}).step S (.udp fails addr (.registerPk rk))).st.pm.db.rows = []) ∧
    (s.st.pm.db.getPeer "123456789").map Row.uuid = some [7] ∧
    s.out S take = [.udp (.registerPkResponse .ok) other] ∧
    ((s.step S take).st.pm.map "123456789").map (fun p => (p.uuid, p.pk)) = some ([6], [9]) ∧
    ((s.step S take).st.pm.db.getPeer "123456789").map (fun r => (r.uuid, r.pk)) =
      some ([7], [8]) := by
  decide +kernel

end Sys

end CodeDesk.Rendezvous
