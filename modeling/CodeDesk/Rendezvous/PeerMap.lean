/-
# The peers of the rendezvous server

`PeerMap` of `server/src/peer.rs` over the table of `server/src/database.rs`: the
peers in memory, the rows of the table, and `get`, `get_or` and `update_pk`, each
taken as one step. Every call of the database may fail (`DbIo`).

Times are in milliseconds since the earliest instant the clock can give.
-/
import CodeDesk.Rendezvous.Address
import Mathlib.Logic.Function.Basic

namespace CodeDesk.Rendezvous

open Function (update)

structure PeerInfo where
  ip : String := ""
  deriving DecidableEq, Repr

/-- `serde_json` on `PeerInfo`: what is written is read back. -/
structure InfoCodec where
  write : PeerInfo → String
  read : String → Option PeerInfo
  read_write : ∀ info, read (write info) = some info

/-- The JSON of a text in which nothing has to be escaped. -/
def InfoCodec.plain : InfoCodec where
  write info := "\x7b\"ip\":\"" ++ info.ip ++ "\"\x7d"
  read s :=
    let ip := String.ofList ((s.toList.drop 7).dropLast.dropLast)
    if "\x7b\"ip\":\"" ++ ip ++ "\"\x7d" = s then some ⟨ip⟩ else none
  read_write info := by
    have hip : String.ofList
        ((("\x7b\"ip\":\"" ++ info.ip ++ "\"\x7d").toList.drop 7).dropLast.dropLast) = info.ip := by
      have hl : ("\x7b\"ip\":\"" ++ info.ip ++ "\"\x7d").toList.drop 7 =
          info.ip.toList ++ ['"'] ++ ['\x7d'] := by simp
      rw [hl, List.dropLast_concat, List.dropLast_concat, String.ofList_toList]
    simp only [hip, if_true]

/-! ### The table -/

structure Row where
  guid : Bytes
  id : String
  uuid : Bytes
  pk : Bytes
  info : String
  deriving DecidableEq, Repr

/-- The table, with its primary key and the unique index on `id`. -/
structure Database where
  rows : List Row := []
  guids : (rows.map Row.guid).Nodup := by simp
  ids : (rows.map Row.id).Nodup := by simp

namespace Database

def getPeer (db : Database) (id : String) : Option Row := db.rows.find? (·.id = id)

/-- Refused if the guid or the id is taken. -/
def insertPeer (db : Database) (guid : Bytes) (id : String) (uuid pk : Bytes) (info : String) :
    Option Database :=
  if h : guid ∉ db.rows.map Row.guid ∧ id ∉ db.rows.map Row.id then
    some
      { rows := ⟨guid, id, uuid, pk, info⟩ :: db.rows
        guids := List.nodup_cons.2 ⟨h.1, db.guids⟩
        ids := List.nodup_cons.2 ⟨h.2, db.ids⟩ }
  else none

/-- `update peer set id=?, pk=?, info=? where guid=?` on a row. -/
def setPk (guid : Bytes) (id : String) (pk : Bytes) (info : String) (r : Row) : Row :=
  if r.guid = guid then { r with id := id, pk := pk, info := info } else r

theorem guid_setPk (guid : Bytes) (id : String) (pk : Bytes) (info : String) (r : Row) :
    (setPk guid id pk info r).guid = r.guid := by
  rw [setPk]
  split <;> rfl

def updatePk (db : Database) (guid : Bytes) (id : String) (pk : Bytes) (info : String) :
    Option Database :=
  if h : ((db.rows.map (setPk guid id pk info)).map Row.id).Nodup then
    some
      { rows := db.rows.map (setPk guid id pk info)
        guids := by
          have hg : Row.guid ∘ setPk guid id pk info = Row.guid :=
            funext fun r => guid_setPk guid id pk info r
          rw [List.map_map, hg]
          exact db.guids
        ids := h }
  else none

variable {db db' : Database} {guid uuid pk : Bytes} {id info : String} {r : Row}

theorem getPeer_eq_some : db.getPeer id = some r ↔ r ∈ db.rows ∧ r.id = id := by
  constructor
  · intro h
    exact ⟨List.mem_of_find?_eq_some h, by simpa using List.find?_some h⟩
  · rintro ⟨hr, hid⟩
    cases hf : db.getPeer id with
    | none =>
      have hne := List.find?_eq_none.1 hf r hr
      exact absurd hid (by simpa using hne)
    | some q =>
      have hq : q.id = id := by simpa using List.find?_some hf
      rw [List.inj_on_of_nodup_map db.ids (List.mem_of_find?_eq_some hf) hr (hq.trans hid.symm)]

theorem getPeer_eq_none : db.getPeer id = none ↔ ∀ r ∈ db.rows, r.id ≠ id := by
  simp [getPeer]

theorem rows_insertPeer (h : db.insertPeer guid id uuid pk info = some db') :
    db.getPeer id = none ∧ db'.rows = ⟨guid, id, uuid, pk, info⟩ :: db.rows := by
  by_cases hn : guid ∉ db.rows.map Row.guid ∧ id ∉ db.rows.map Row.id
  · rw [insertPeer, dif_pos hn] at h
    cases h
    exact ⟨getPeer_eq_none.2 fun r hr hid => hn.2 (List.mem_map.2 ⟨r, hr, hid⟩), rfl⟩
  · rw [insertPeer, dif_neg hn] at h
    cases h

theorem getPeer_insertPeer (h : db.insertPeer guid id uuid pk info = some db') (id' : String) :
    db'.getPeer id' = if id' = id then some ⟨guid, id, uuid, pk, info⟩ else db.getPeer id' := by
  obtain ⟨-, hrows⟩ := rows_insertPeer h
  by_cases hid : id' = id
  · rw [if_pos hid, getPeer_eq_some, hrows]
    exact ⟨List.mem_cons_self, hid.symm⟩
  · rw [if_neg hid, getPeer, hrows]
    exact List.find?_cons_of_neg (by simpa using Ne.symm hid)

theorem rows_updatePk (h : db.updatePk guid id pk info = some db') :
    db'.rows = db.rows.map (setPk guid id pk info) := by
  by_cases hn : ((db.rows.map (setPk guid id pk info)).map Row.id).Nodup
  · rw [updatePk, dif_pos hn] at h
    cases h
    rfl
  · rw [updatePk, dif_neg hn] at h
    cases h

variable (hr : db.getPeer id = some r)

include hr

theorem id_setPk {q : Row} (hq : q ∈ db.rows) : (setPk r.guid id pk info q).id = q.id := by
  obtain ⟨hmem, hid⟩ := getPeer_eq_some.1 hr
  by_cases hg : q.guid = r.guid
  · have hqr : q = r := List.inj_on_of_nodup_map db.guids hq hmem hg
    rw [setPk, if_pos hg, hqr, hid]
  · rw [setPk, if_neg hg]

theorem updatePk_isSome (pk : Bytes) (info : String) : (db.updatePk r.guid id pk info).isSome := by
  have hids : (db.rows.map (setPk r.guid id pk info)).map Row.id = db.rows.map Row.id := by
    rw [List.map_map]
    exact List.map_congr_left fun q hq => id_setPk hr hq
  rw [updatePk, dif_pos (hids ▸ db.ids)]
  rfl

theorem getPeer_updatePk (h : db.updatePk r.guid id pk info = some db') (id' : String) :
    db'.getPeer id' = if id' = id then some { r with pk := pk, info := info } else db.getPeer id' := by
  obtain ⟨hmem, hid⟩ := getPeer_eq_some.1 hr
  have hrows := rows_updatePk h
  have hmine : setPk r.guid id pk info r = { r with pk := pk, info := info } := by
    rw [setPk, if_pos rfl, hid]
  by_cases hid' : id' = id
  · rw [if_pos hid', getPeer_eq_some, hrows]
    exact ⟨List.mem_map.2 ⟨r, hmem, hmine⟩, hid.trans hid'.symm⟩
  · rw [if_neg hid']
    have hother : ∀ q ∈ db.rows, q.id = id' → setPk r.guid id pk info q = q := by
      intro q hq hqid
      refine if_neg fun hg => hid' ?_
      rw [← hqid, List.inj_on_of_nodup_map db.guids hq hmem hg, hid]
    cases hq : db.getPeer id' with
    | some q =>
      obtain ⟨hqmem, hqid⟩ := getPeer_eq_some.1 hq
      rw [getPeer_eq_some, hrows]
      exact ⟨List.mem_map.2 ⟨q, hqmem, hother q hqmem hqid⟩, hqid⟩
    | none =>
      rw [getPeer_eq_none, hrows]
      intro q hqmem hqid
      obtain ⟨q', hq', rfl⟩ := List.mem_map.1 hqmem
      rw [id_setPk hr hq'] at hqid
      exact getPeer_eq_none.1 hq q' hq' hqid

end Database

/-! ### Peers -/

/-- `get_expired_time`: an hour ago. -/
def getExpiredTime (now : ℕ) : ℕ := if 3600000 ≤ now then now - 3600000 else now

def elapsedSecs (now since : ℕ) : ℕ := (now - since) / 1000

structure Peer where
  socketAddr : SocketAddr
  lastRegTime : ℕ
  guid : Bytes
  uuid : Bytes
  pk : Bytes
  info : PeerInfo
  /-- How often `RegisterPk` came, and when last. -/
  regPk : ℕ × ℕ
  deriving DecidableEq, Repr

namespace Peer

def default (now : ℕ) : Peer where
  socketAddr := .unspecified
  lastRegTime := getExpiredTime now
  guid := []
  uuid := []
  pk := []
  info := {}
  regPk := (0, getExpiredTime now)

def ofRow (J : InfoCodec) (now : ℕ) (v : Row) : Peer :=
  { default now with
    guid := v.guid
    uuid := v.uuid
    pk := v.pk
    info := (J.read v.info).getD {} }

/-- What `update_pk` writes to the peer before it calls the database. -/
def register (w : Peer) (now : ℕ) (addr : SocketAddr) (uuid pk : Bytes) (ip : String) : Peer :=
  { w with
    socketAddr := addr
    uuid := uuid
    pk := pk
    lastRegTime := now
    info := { w.info with ip := ip } }

def ipChange (old : Peer) (addr : SocketAddr) : Bool :=
  (if old.socketAddr.port ≠ 0 then decide (addr.ip ≠ old.socketAddr.ip)
    else decide (ipText addr.ip ≠ old.info.ip)) && !isLoopback addr.ip

def requestPk (old : Peer) (addr : SocketAddr) : Bool := old.pk.isEmpty || old.ipChange addr

def updateAddr (old : Peer) (now : ℕ) (addr : SocketAddr) : Peer :=
  if old.requestPk addr then old else { old with socketAddr := addr, lastRegTime := now }

end Peer

/-! ### The map -/

/-- How the database behaves during a call: whether a read and whether a write
succeeds, and the guid that `insert_peer` draws. -/
structure DbIo where
  reads : Bool := true
  writes : Bool := true
  guid : Bytes := []
  deriving DecidableEq, Repr

inductive RegisterPkResult where
  | ok
  | uuidMismatch
  | tooFrequent
  | notSupport
  | serverError
  deriving DecidableEq, Repr

structure PeerMap where
  map : String → Option Peer := fun _ => none
  db : Database := {}

namespace PeerMap

def put (pm : PeerMap) (id : String) (p : Peer) : PeerMap :=
  { pm with map := update pm.map id (some p) }

/-- `db.get_peer(id)`, with `Err` and `Ok(None)` alike, as `get` takes them. -/
def readRow (io : DbIo) (db : Database) (id : String) : Option Row :=
  if io.reads then db.getPeer id else none

/-- `db.insert_peer(..)`; `none` is `Err`. -/
def insertRow (io : DbIo) (db : Database) (id : String) (uuid pk : Bytes) (info : String) :
    Option Database :=
  if io.writes then db.insertPeer io.guid id uuid pk info else none

/-- `db.update_pk(..)`; `none` is `Err`. -/
def updateRow (io : DbIo) (db : Database) (guid : Bytes) (id : String) (pk : Bytes)
    (info : String) : Option Database :=
  if io.writes then db.updatePk guid id pk info else none

def get (J : InfoCodec) (now : ℕ) (io : DbIo) (pm : PeerMap) (id : String) :
    PeerMap × Option Peer :=
  match pm.map id with
  | some p => (pm, some p)
  | none =>
    match readRow io pm.db id with
    | some v => (pm.put id (.ofRow J now v), some (.ofRow J now v))
    | none => (pm, none)

section get

variable {J : InfoCodec} {now : ℕ} {io : DbIo} {pm : PeerMap} {id : String} {p : Peer} {v : Row}

theorem get_hit (h : pm.map id = some p) : pm.get J now io id = (pm, some p) := by
  rw [get, h]

theorem get_load (h : pm.map id = none) (hv : readRow io pm.db id = some v) :
    pm.get J now io id = (pm.put id (.ofRow J now v), some (.ofRow J now v)) := by
  rw [get, h, hv]

theorem get_miss (h : pm.map id = none) (hv : readRow io pm.db id = none) :
    pm.get J now io id = (pm, none) := by
  rw [get, h, hv]

end get

def getOr (J : InfoCodec) (now : ℕ) (io : DbIo) (pm : PeerMap) (id : String) : PeerMap × Peer :=
  match pm.get J now io id with
  | (pm, some p) => (pm, p)
  | (pm, none) => (pm.put id (.default now), .default now)

/-- `update_pk` on the peer `p` that the map has under `id`. -/
def updatePk (J : InfoCodec) (now : ℕ) (io : DbIo) (pm : PeerMap) (id : String) (p : Peer)
    (addr : SocketAddr) (uuid pk : Bytes) (ip : String) : PeerMap × RegisterPkResult :=
  let w := p.register now addr uuid pk ip
  let info := J.write w.info
  let pm := pm.put id w
  if w.guid = [] then
    match insertRow io pm.db id uuid pk info with
    | none => (pm, .serverError)
    | some db => ({ pm.put id { w with guid := io.guid } with db := db }, .ok)
  else
    match updateRow io pm.db w.guid id pk info with
    | none => (pm, .serverError)
    | some db => ({ pm with db := db }, .ok)

section updatePk

variable {J : InfoCodec} {now : ℕ} {io : DbIo} {pm : PeerMap} {id : String} {p : Peer}
  {addr : SocketAddr} {uuid pk : Bytes} {ip : String} {db : Database}

theorem updatePk_insert (hg : p.guid = [])
    (hdb : insertRow io pm.db id uuid pk (J.write ⟨ip⟩) = some db) :
    pm.updatePk J now io id p addr uuid pk ip =
      ({ pm.put id { p.register now addr uuid pk ip with guid := io.guid } with db := db }, .ok) := by
  rw [updatePk, if_pos (show (p.register now addr uuid pk ip).guid = [] from hg)]
  show (match insertRow io pm.db id uuid pk (J.write ⟨ip⟩) with
    | none => _ | some db => _) = _
  rw [hdb]
  simp [put]

theorem updatePk_update (hg : p.guid ≠ [])
    (hdb : updateRow io pm.db p.guid id pk (J.write ⟨ip⟩) = some db) :
    pm.updatePk J now io id p addr uuid pk ip =
      ({ pm.put id (p.register now addr uuid pk ip) with db := db }, .ok) := by
  rw [updatePk, if_neg (show (p.register now addr uuid pk ip).guid ≠ [] from hg)]
  show (match updateRow io pm.db p.guid id pk (J.write ⟨ip⟩) with
    | none => _ | some db => _) = _
  rw [hdb]

theorem updatePk_fail (hi : p.guid = [] → insertRow io pm.db id uuid pk (J.write ⟨ip⟩) = none)
    (hu : p.guid ≠ [] → updateRow io pm.db p.guid id pk (J.write ⟨ip⟩) = none) :
    pm.updatePk J now io id p addr uuid pk ip =
      (pm.put id (p.register now addr uuid pk ip), .serverError) := by
  by_cases hg : p.guid = []
  · rw [updatePk, if_pos (show (p.register now addr uuid pk ip).guid = [] from hg)]
    show (match insertRow io pm.db id uuid pk (J.write ⟨ip⟩) with
      | none => _ | some db => _) = _
    rw [hi hg]
  · rw [updatePk, if_neg (show (p.register now addr uuid pk ip).guid ≠ [] from hg)]
    show (match updateRow io pm.db p.guid id pk (J.write ⟨ip⟩) with
      | none => _ | some db => _) = _
    rw [hu hg]

end updatePk

end PeerMap

end CodeDesk.Rendezvous
