/-
# What the server knows of a peer

`PeerMap.known` is what the server has in memory of a peer, else what a lookup would
make of the row of the table. A lookup does not change it (`get_spec`, `getOr_spec`).

`Agree` says that memory and table say the same: it is kept by lookups, by writes to
other fields (`Agree.put_same`) and by an `update_pk` whose database call succeeds
(`Agree.updatePk`).
-/
import CodeDesk.Rendezvous.PeerMap

namespace CodeDesk.Rendezvous

/-! ### What is known of a peer -/

/-- A peer without its times and counters. -/
structure Known where
  socketAddr : SocketAddr
  guid : Bytes
  uuid : Bytes
  pk : Bytes
  info : PeerInfo
  deriving DecidableEq, Repr

def Peer.known (p : Peer) : Known := ⟨p.socketAddr, p.guid, p.uuid, p.pk, p.info⟩

def Row.known (J : InfoCodec) (r : Row) : Known :=
  ⟨.unspecified, r.guid, r.uuid, r.pk, (J.read r.info).getD {}⟩

namespace PeerMap

variable {J : InfoCodec} {now : ℕ} {io : DbIo} {pm : PeerMap} {id : String} {p : Peer}

def known (J : InfoCodec) (pm : PeerMap) (id : String) : Option Known :=
  ((pm.map id).map Peer.known).orElse fun _ => (pm.db.getPeer id).map (Row.known J)

theorem known_mem (h : pm.map id = some p) : pm.known J id = some p.known := by
  simp [known, h]

theorem known_row (h : pm.map id = none) : pm.known J id = (pm.db.getPeer id).map (Row.known J) := by
  simp [known, h]

theorem known_put (pm : PeerMap) (id : String) (p : Peer) (id' : String) :
    (pm.put id p).known J id' = if id' = id then some p.known else pm.known J id' := by
  by_cases h : id' = id
  · subst h
    rw [if_pos rfl, known_mem (p := p) (by simp [put])]
  · rw [if_neg h]
    simp [known, put, Function.update_of_ne h]

theorem known_put_same (h : pm.known J id = some p.known) : (pm.put id p).known J = pm.known J := by
  funext id'
  rw [known_put]
  split
  next hid => rw [hid, h]
  next => rfl

theorem readRow_some {v : Row} {db : Database} (h : readRow io db id = some v) :
    db.getPeer id = some v := by
  unfold readRow at h
  split_ifs at h
  exact h

theorem get_spec (J : InfoCodec) (now : ℕ) (io : DbIo) (pm : PeerMap) (id : String) :
    let q := pm.get J now io id
    q.1.known J = pm.known J ∧ q.1.db = pm.db ∧ (∀ p, q.2 = some p → q.1.map id = some p) ∧
      (q.2 = none → q.1 = pm ∧ pm.map id = none ∧ readRow io pm.db id = none) := by
  cases hm : pm.map id with
  | some =>
    rw [get_hit hm]
    exact ⟨rfl, rfl, fun q hq => hq ▸ hm, nofun⟩
  | none =>
    cases hr : readRow io pm.db id with
    | none =>
      rw [get_miss hm hr]
      exact ⟨rfl, rfl, nofun, fun _ => ⟨rfl, rfl, rfl⟩⟩
    | some =>
      rw [get_load hm hr]
      refine ⟨known_put_same ?_, rfl, fun q hq => ?_, nofun⟩
      · rw [known_row hm, readRow_some hr]
        rfl
      · cases hq
        simp [put]

theorem getOr_spec (J : InfoCodec) (now : ℕ) (io : DbIo) (pm : PeerMap) (id : String) :
    let q := pm.getOr J now io id
    q.1.db = pm.db ∧ q.1.map id = some q.2 ∧
    (q.1 = (pm.get J now io id).1 ∧ q.1.known J = pm.known J ∨
      pm.map id = none ∧ readRow io pm.db id = none ∧
        q = (pm.put id (.default now), .default now)) := by
  obtain ⟨hknown, hdb, hsome, hnone⟩ := get_spec J now io pm id
  unfold getOr
  cases hq : pm.get J now io id with
  | mk pm' peer =>
    rw [hq] at hknown hdb hsome hnone
    cases peer with
    | some p => exact ⟨hdb, hsome p rfl, .inl ⟨rfl, hknown⟩⟩
    | none =>
      obtain ⟨rfl, hm, hr⟩ := hnone rfl
      exact ⟨rfl, by simp [put], .inr ⟨hm, hr, rfl⟩⟩

/-! ### Memory and table -/

structure Saved (J : InfoCodec) (p : Peer) (r : Row) : Prop where
  guid : r.guid = p.guid
  uuid : r.uuid = p.uuid
  pk : r.pk = p.pk
  info : J.read r.info = some p.info

structure Blank (p : Peer) : Prop where
  guid : p.guid = []
  uuid : p.uuid = []
  pk : p.pk = []

/-- Rows are those of registrations; a peer in memory has its row, or it is blank and
there is none. -/
structure Agree (J : InfoCodec) (pm : PeerMap) : Prop where
  rows : ∀ id r, pm.db.getPeer id = some r →
    r.uuid ≠ [] ∧ r.guid ≠ [] ∧ ∃ info, J.read r.info = some info
  mem : ∀ id p, pm.map id = some p →
    (∃ r, pm.db.getPeer id = some r ∧ Saved J p r) ∨ (pm.db.getPeer id = none ∧ Blank p)

namespace Agree

variable (h : Agree J pm)

include h

theorem put (hp : (∃ r, pm.db.getPeer id = some r ∧ Saved J p r) ∨
    (pm.db.getPeer id = none ∧ Blank p)) : Agree J (pm.put id p) := by
  refine ⟨h.rows, fun id' p' hp' => ?_⟩
  simp only [PeerMap.put, Function.update_apply, ite_eq_iff] at hp'
  rcases hp' with ⟨rfl, ⟨⟩⟩ | ⟨-, hp'⟩
  · exact hp
  · exact h.mem id' p' hp'

theorem put_same {q : Peer} (hp : pm.map id = some p) (hguid : q.guid = p.guid)
    (huuid : q.uuid = p.uuid) (hpk : q.pk = p.pk) (hinfo : q.info = p.info) :
    Agree J (pm.put id q) := by
  refine h.put ?_
  rcases h.mem id p hp with ⟨r, hr, hs⟩ | ⟨hr, hb⟩
  · refine .inl ⟨r, hr, hs.guid.trans hguid.symm, hs.uuid.trans huuid.symm,
      hs.pk.trans hpk.symm, ?_⟩
    rw [hinfo]
    exact hs.info
  · exact .inr ⟨hr, hguid.trans hb.guid, huuid.trans hb.uuid, hpk.trans hb.pk⟩

theorem get (now : ℕ) (io : DbIo) (id : String) : Agree J (pm.get J now io id).1 := by
  cases hm : pm.map id with
  | some =>
    rwa [get_hit hm]
  | none =>
    cases hr : readRow io pm.db id with
    | none =>
      rwa [get_miss hm hr]
    | some v =>
      rw [get_load hm hr]
      obtain ⟨-, -, info, hinfo⟩ := h.rows id v (readRow_some hr)
      refine h.put (.inl ⟨v, readRow_some hr, rfl, rfl, rfl, ?_⟩)
      rw [Peer.ofRow, hinfo]
      rfl

theorem getOr (now : ℕ) (id : String)
    (hio : pm.map id = none → io.reads = true) : Agree J (pm.getOr J now io id).1 := by
  obtain ⟨-, -, ⟨hq, -⟩ | ⟨hm, hr, hq⟩⟩ := getOr_spec J now io pm id
  · rw [hq]
    exact h.get now io id
  · rw [hq]
    have hrow : pm.db.getPeer id = none := by
      rwa [readRow, if_pos (hio hm)] at hr
    exact h.put (.inr ⟨hrow, rfl, rfl, rfl⟩)

theorem known_bound {k : Known} (hk : pm.known J id = some k) (hu : k.uuid ≠ []) :
    ∃ r, pm.db.getPeer id = some r ∧ r.guid = k.guid ∧ r.uuid = k.uuid ∧ r.pk = k.pk ∧
      J.read r.info = some k.info := by
  cases hm : pm.map id with
  | some p =>
    rw [known_mem hm] at hk
    cases hk
    rcases h.mem id p hm with ⟨r, hr, hs⟩ | ⟨-, hb⟩
    · exact ⟨r, hr, hs.guid, hs.uuid, hs.pk, hs.info⟩
    · exact absurd hb.uuid hu
  | none =>
    rw [known_row hm] at hk
    obtain ⟨r, hr, rfl⟩ := Option.map_eq_some_iff.1 hk
    obtain ⟨-, -, info, hinfo⟩ := h.rows id r hr
    refine ⟨r, hr, rfl, rfl, rfl, ?_⟩
    rw [Row.known, hinfo]
    rfl

theorem known_of_row {r : Row} (hr : pm.db.getPeer id = some r) :
    ∃ k, pm.known J id = some k ∧ k.uuid = r.uuid := by
  cases hm : pm.map id with
  | some p =>
    refine ⟨p.known, known_mem hm, ?_⟩
    rcases h.mem id p hm with ⟨r', hr', hs⟩ | ⟨hnone, -⟩
    · rw [hr] at hr'
      cases hr'
      exact hs.uuid.symm
    · simp [hr] at hnone
  | none =>
    rw [known_row hm, hr]
    exact ⟨r.known J, rfl, rfl⟩

theorem known_restart {k : Known} (hk : pm.known J id = some k) (hu : k.uuid ≠ []) :
    PeerMap.known J { db := pm.db } id = some { k with socketAddr := .unspecified } := by
  obtain ⟨r, hr, hguid, huuid, hpk, hinfo⟩ := h.known_bound hk hu
  rw [known_row rfl, hr, Option.map_some, Row.known, hguid, huuid, hpk, hinfo]
  rfl

theorem write {w : Peer} {r : Row} (pm' : PeerMap) (hmap : pm'.map id = some w)
    (hrow : pm'.db.getPeer id = some r) (hs : Saved J w r) (hu : r.uuid ≠ []) (hg : r.guid ≠ [])
    (hother : ∀ id', id' ≠ id → pm'.map id' = pm.map id' ∧ pm'.db.getPeer id' = pm.db.getPeer id') :
    Agree J pm' ∧ pm'.known J id = some w.known ∧
      ∀ id', id' ≠ id → pm'.known J id' = pm.known J id' := by
  refine ⟨⟨fun id' q hq => ?_, fun id' q hq => ?_⟩, known_mem hmap, fun id' hid => ?_⟩
  · by_cases hid : id' = id
    · subst hid
      rw [hrow] at hq
      cases hq
      exact ⟨hu, hg, _, hs.info⟩
    · rw [(hother id' hid).2] at hq
      exact h.rows id' q hq
  · by_cases hid : id' = id
    · subst hid
      rw [hmap] at hq
      cases hq
      exact .inl ⟨r, hrow, hs⟩
    · rw [(hother id' hid).1] at hq
      rw [(hother id' hid).2]
      exact h.mem id' q hq
  · rw [known, known, (hother id' hid).1, (hother id' hid).2]

theorem updatePk {uuid : Bytes} (hp : pm.map id = some p)
    (huuid : p.uuid = [] ∨ p.uuid = uuid) (hne : uuid ≠ []) (hw : io.writes = true)
    (hg : io.guid ≠ []) (hnew : io.guid ∉ pm.db.rows.map Row.guid) (now : ℕ) (addr : SocketAddr)
    (pk : Bytes) (ip : String) :
    let pm' := (pm.updatePk J now io id p addr uuid pk ip).1
    Agree J pm' ∧ (∃ g, pm'.known J id = some ⟨addr, g, uuid, pk, ⟨ip⟩⟩) ∧
      ∀ id', id' ≠ id → pm'.known J id' = pm.known J id' := by
  rcases h.mem id p hp with ⟨r, hr, hs⟩ | ⟨hr, hb⟩
  · -- the row is there: it gets the new pk and info
    obtain ⟨hru, hrg, -⟩ := h.rows id r hr
    have hu : p.uuid = uuid := huuid.resolve_left (hs.uuid ▸ hru)
    obtain ⟨db, hdb⟩ := Option.isSome_iff_exists.1 (Database.updatePk_isSome hr pk (J.write ⟨ip⟩))
    have hrow : updateRow io pm.db p.guid id pk (J.write ⟨ip⟩) = some db := by
      rwa [updateRow, if_pos hw, ← hs.guid]
    have hget := Database.getPeer_updatePk hr hdb
    rw [updatePk_update (hs.guid ▸ hrg) hrow]
    obtain ⟨hagree, hknown, hother⟩ := h.write
      { pm.put id (p.register now addr uuid pk ip) with db := db }
      (Function.update_self ..) ((hget id).trans (if_pos rfl))
      ⟨hs.guid, hs.uuid.trans hu, rfl, J.read_write _⟩ hru hrg
      fun id' hid => ⟨Function.update_of_ne hid _ _, (hget id').trans (if_neg hid)⟩
    exact ⟨hagree, ⟨p.guid, hknown⟩, hother⟩
  · have hids : id ∉ pm.db.rows.map Row.id := by
      intro hmem
      obtain ⟨r, hr', hid⟩ := List.mem_map.1 hmem
      exact Database.getPeer_eq_none.1 hr r hr' hid
    obtain ⟨db, hdb⟩ : ∃ db, pm.db.insertPeer io.guid id uuid pk (J.write ⟨ip⟩) = some db := by
      rw [Database.insertPeer, dif_pos ⟨hnew, hids⟩]
      exact ⟨_, rfl⟩
    have hrow : insertRow io pm.db id uuid pk (J.write ⟨ip⟩) = some db := by
      rwa [insertRow, if_pos hw]
    have hget := Database.getPeer_insertPeer hdb
    rw [updatePk_insert hb.guid hrow]
    obtain ⟨hagree, hknown, hother⟩ := h.write
      { pm.put id { p.register now addr uuid pk ip with guid := io.guid } with db := db }
      (Function.update_self ..) ((hget id).trans (if_pos rfl))
      ⟨rfl, rfl, rfl, J.read_write _⟩ hne hg
      fun id' hid => ⟨Function.update_of_ne hid _ _, (hget id').trans (if_neg hid)⟩
    exact ⟨hagree, ⟨io.guid, hknown⟩, hother⟩

end Agree

theorem getOr_known {k : Known} (hio : pm.map id = none → io.reads = true) {id' : String}
    (hk : pm.known J id' = some k) : (pm.getOr J now io id).1.known J id' = some k := by
  obtain ⟨-, -, ⟨-, hknown⟩ | ⟨hm, hr, hq⟩⟩ := getOr_spec J now io pm id
  · rwa [hknown]
  rw [hq, known_put]
  split
  next hid =>
    -- nothing was known of the id
    rw [readRow, if_pos (hio hm)] at hr
    simp [hid, known_row hm, hr] at hk
  next => exact hk

end PeerMap

end CodeDesk.Rendezvous
