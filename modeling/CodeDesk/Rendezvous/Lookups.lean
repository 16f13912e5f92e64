/-
# Concurrent lookups and registrations

`get`, `get_or` and `update_pk` of `server/src/peer.rs`, and `update_addr`, between
their await points. A task holds a peer by its `Arc`: the map gives the place of a
peer on a heap, and a task goes on with the place it was given even when the map
has another one by then. Any number of tasks take their steps in any order.

`get` reads the map, asks the database, and then inserts what it read without
looking at the map again. A registration that came in between is lost: the map has
the row as it was before, with no address and an old key (`registration_lost`).
`get_or` does look again before it inserts. In a run in which no lookup inserts
over an entry (`Undisturbed`) the map's peer is never older than a registration
that is over (`registration_kept`). A call that no other task comes between is the
one step of `PeerMap` (`run_get`, `run_getOr`, `run_updatePk`).

`hist` and `completed` are history: what was written to peers, and which of these
writes were those of an `update_pk` that has returned. `replaced` are the entries
an insertion replaced.
-/
import CodeDesk.Run
import CodeDesk.Rendezvous.PeerMap

namespace CodeDesk.Rendezvous.Lookups

open Function (update update_apply update_of_ne update_self)

inductive Caller where
  | get
  | getOr
  | updateAddr (addr : SocketAddr)
  deriving DecidableEq, Repr

inductive Pc where
  | readMap
  | readRow
  /-- `get` inserts the peer it made of the row. -/
  | insertRow (p : Peer)
  /-- `get_or` looks again and inserts the default. -/
  | insertDefault
  | hold (a : ℕ)
  | nothing
  /-- `update_pk` calls the database; `k` is its write in `hist`. -/
  | save (a k : ℕ) (w : Peer)
  | setGuid (a k : ℕ) (guid : Bytes)
  deriving DecidableEq, Repr

structure Task where
  id : String
  caller : Caller
  pc : Pc
  deriving DecidableEq, Repr

/-- A write to a peer: by `update_pk` with its uuid and pk, or by `update_addr`. -/
structure Write where
  id : String
  addr : SocketAddr
  time : ℕ
  key : Option (Bytes × Bytes)
  deriving DecidableEq, Repr

structure Sys where
  now : ℕ
  heap : ℕ → Peer
  next : ℕ
  map : String → Option ℕ
  db : Database
  tasks : ℕ → Option Task
  hist : List Write
  completed : List ℕ
  replaced : List (String × ℕ)

def start (now : ℕ) (db : Database) : Sys :=
  ⟨now, fun _ => .default now, 0, fun _ => none, db, fun _ => none, [], [], []⟩

inductive Input where
  | call (i : ℕ) (id : String) (caller : Caller)
  | run (i : ℕ) (io : DbIo)
  /-- A task that holds a peer calls `update_pk` with it. -/
  | updatePk (i : ℕ) (addr : SocketAddr) (uuid pk : Bytes) (ip : String)
  | elapse (ms : ℕ)
  deriving DecidableEq, Repr

namespace Sys

def setPc (s : Sys) (i : ℕ) (t : Task) (pc : Pc) : Sys :=
  { s with tasks := update s.tasks i (some { t with pc := pc }) }

def setPeer (s : Sys) (a : ℕ) (p : Peer) : Sys := { s with heap := update s.heap a p }

/-- `map.write().await.insert(id, Arc::new(..))`. -/
def insert (s : Sys) (id : String) (p : Peer) : Sys :=
  { s.setPeer s.next p with
    next := s.next + 1
    map := update s.map id (some s.next)
    replaced := s.replaced ++ ((s.map id).map fun a => (id, a)).toList }

def record (s : Sys) (w : Write) : Sys := { s with hist := s.hist ++ [w] }

def complete (s : Sys) (k : ℕ) : Sys := { s with completed := s.completed ++ [k] }

def readMap (s : Sys) (i : ℕ) (t : Task) : Sys :=
  match s.map t.id, t.caller with
  | some a, _ => s.setPc i t (.hold a)
  | none, .updateAddr _ => s.setPc i t .nothing
  | none, _ => s.setPc i t .readRow

/-- `get` gives `None`; `get_or` goes on. -/
def miss (s : Sys) (i : ℕ) (t : Task) : Sys :=
  match t.caller with
  | .getOr => s.setPc i t .insertDefault
  | _ => s.setPc i t .nothing

def insertDefault (s : Sys) (i : ℕ) (t : Task) : Sys :=
  match s.map t.id with
  | some a => s.setPc i t (.hold a)
  | none => (s.insert t.id (.default s.now)).setPc i t (.hold s.next)

def touch (s : Sys) (i : ℕ) (t : Task) (a : ℕ) (addr : SocketAddr) : Sys :=
  let s := s.setPc i t .nothing
  if (s.heap a).requestPk addr then s
  else
    (s.setPeer a ((s.heap a).updateAddr s.now addr)).record ⟨t.id, addr, s.now, none⟩

def register (s : Sys) (i : ℕ) (t : Task) (a : ℕ) (addr : SocketAddr) (uuid pk : Bytes)
    (ip : String) : Sys :=
  let w := (s.heap a).register s.now addr uuid pk ip
  ((s.setPeer a w).record ⟨t.id, addr, s.now, some (uuid, pk)⟩).setPc i t (.save a s.hist.length w)

def save (J : InfoCodec) (s : Sys) (io : DbIo) (i : ℕ) (t : Task) (a k : ℕ) (w : Peer) : Sys :=
  let info := J.write w.info
  if w.guid = [] then
    match PeerMap.insertRow io s.db t.id w.uuid w.pk info with
    | none => (s.complete k).setPc i t (.hold a)
    | some db => { s with db := db }.setPc i t (.setGuid a k io.guid)
  else
    match PeerMap.updateRow io s.db w.guid t.id w.pk info with
    | none => (s.complete k).setPc i t (.hold a)
    | some db => ({ s with db := db }.complete k).setPc i t (.hold a)

def setGuid (s : Sys) (i : ℕ) (t : Task) (a k : ℕ) (guid : Bytes) : Sys :=
  ((s.setPeer a { s.heap a with guid := guid }).complete k).setPc i t (.hold a)

/-- A task goes on to its next await point. -/
def advance (J : InfoCodec) (s : Sys) (io : DbIo) (i : ℕ) (t : Task) : Sys :=
  match t.pc with
  | .readMap => s.readMap i t
  | .readRow =>
    match PeerMap.readRow io s.db t.id with
    | some v => s.setPc i t (.insertRow (.ofRow J s.now v))
    | none => s.miss i t
  | .insertRow p => (s.insert t.id p).setPc i t (.hold s.next)
  | .insertDefault => s.insertDefault i t
  | .hold a =>
    match t.caller with
    | .updateAddr addr => s.touch i t a addr
    | _ => s
  | .nothing => s
  | .save a k w => s.save J io i t a k w
  | .setGuid a k guid => s.setGuid i t a k guid

end Sys

def step (J : InfoCodec) (s : Sys) : Input → Sys
  | .call i id caller =>
    if s.tasks i = none then
      { s with tasks := update s.tasks i (some ⟨id, caller, .readMap⟩) }
    else s
  | .run i io =>
    match s.tasks i with
    | some t => s.advance J io i t
    | none => s
  | .updatePk i addr uuid pk ip =>
    match s.tasks i with
    | some ⟨id, .getOr, .hold a⟩ => s.register i ⟨id, .getOr, .hold a⟩ a addr uuid pk ip
    | _ => s
  | .elapse ms => { s with now := s.now + ms }

def Pc.peer : Pc → Option ℕ
  | hold a => some a
  | save a _ _ => some a
  | setGuid a _ _ => some a
  | _ => none

variable {J : InfoCodec} {s : Sys} {i a k : ℕ} {t : Task} {pc : Pc} {p : Peer} {w : Write}
  {id : String} {hist : List Write}

/-! ### A call on its own -/

def Sys.view (s : Sys) : PeerMap := ⟨fun id => (s.map id).map s.heap, s.db⟩

@[simp] theorem view_setPc : (s.setPc i t pc).view = s.view := rfl

theorem step_run (ht : s.tasks i = some t) (io : DbIo) :
    step J s (.run i io) = s.advance J io i t := by
  rw [step, ht]

theorem tasks_setPc : (s.setPc i t pc).tasks i = some { t with pc := pc } := by
  simp [Sys.setPc]

theorem view_put {s' : Sys} (hdb : s'.db = s.db) (hid : (s'.map id).map s'.heap = some p)
    (hother : ∀ id', id' ≠ id → (s'.map id').map s'.heap = (s.map id').map s.heap) :
    s'.view = s.view.put id p := by
  have hmap : ∀ id', (s'.map id').map s'.heap =
      update (fun id => (s.map id).map s.heap) id (some p) id' := by
    intro id'
    by_cases h : id' = id
    · rw [h, hid, update_self]
    · rw [hother id' h, update_of_ne h]
  rw [Sys.view, hdb, funext hmap]
  rfl

def Sys.held (s : Sys) (i : ℕ) : Option Peer := ((s.tasks i).bind fun t => t.pc.peer).map s.heap

theorem view_held_setPc (hpc : pc.peer = some a) :
    ((s.setPc i t pc).view, (s.setPc i t pc).held i) = (s.view, some (s.heap a)) := by
  rw [view_setPc, Sys.held, tasks_setPc, Option.bind_some, hpc]
  rfl

theorem view_held_setPc_none (hpc : pc.peer = none) :
    ((s.setPc i t pc).view, (s.setPc i t pc).held i) = (s.view, none) := by
  rw [view_setPc, Sys.held, tasks_setPc, Option.bind_some, hpc]
  rfl

@[simp] theorem setPc_setPc {pc' : Pc} :
    (s.setPc i t pc).setPc i { t with pc := pc } pc' = s.setPc i t pc' := by
  simp [Sys.setPc]

theorem miss_setPc : (s.setPc i t pc).miss i { t with pc := pc } = s.miss i t := by
  obtain ⟨id, caller, pc₀⟩ := t
  cases caller with
  | get => exact setPc_setPc (t := ⟨id, .get, pc₀⟩)
  | getOr => exact setPc_setPc (t := ⟨id, .getOr, pc₀⟩)
  | updateAddr addr => exact setPc_setPc (t := ⟨id, .updateAddr addr, pc₀⟩)

variable {caller : Caller}

theorem step_idle (hpc : pc = .nothing ∨ ∃ a, pc = .hold a)
    (hcaller : caller = .get ∨ caller = .getOr) (io : DbIo) :
    step J (s.setPc i ⟨id, caller, .readMap⟩ pc) (.run i io) =
      s.setPc i ⟨id, caller, .readMap⟩ pc := by
  rw [step_run tasks_setPc, Sys.advance.eq_def]
  rcases hpc with rfl | ⟨a, rfl⟩
  · rfl
  · rcases hcaller with rfl | rfl <;> rfl

section

variable (hb : ∀ id a, s.map id = some a → a < s.next)

include hb

theorem view_insert (id : String) (p : Peer) : (s.insert id p).view = s.view.put id p := by
  refine view_put rfl (by simp [Sys.insert, Sys.setPeer]) fun id' hid => ?_
  simp only [Sys.insert, Sys.setPeer, update_of_ne hid]
  refine Option.map_congr fun a hm => update_of_ne ?_ ..
  have := hb id' a hm
  omega

theorem view_insert_hold : (((s.insert id p).setPc i t (.hold s.next)).view,
      ((s.insert id p).setPc i t (.hold s.next)).held i) = (s.view.put id p, some p) := by
  rw [view_held_setPc rfl, view_insert hb]
  simp [Sys.insert, Sys.setPeer]

/-- A lookup that no other task comes between has what `get` finds. If that is nothing the
map is as it was. -/
theorem run_lookup (hcaller : caller = .get ∨ caller = .getOr)
    (ht : s.tasks i = some ⟨id, caller, .readMap⟩) (io : DbIo) :
    let s' := Run.run (step J) s [.run i io, .run i io]
    (∃ p, s.view.get J s.now io id = ((step J s' (.run i io)).view, some p) ∧
      (step J s' (.run i io)).held i = some p) ∨
    s.map id = none ∧ s.view.get J s.now io id = (s.view, none) ∧
      s' = s.miss i ⟨id, caller, .readMap⟩ := by
  have hread : step J s (.run i io) =
      s.setPc i ⟨id, caller, .readMap⟩ ((s.map id).elim .readRow .hold) := by
    rw [step_run ht, Sys.advance, Sys.readMap.eq_def]
    rcases hcaller with rfl | rfl <;> cases s.map id <;> rfl
  dsimp only [Run.run_cons, Run.run_nil]
  rw [hread]
  cases hm : s.map id with
  | some a =>
    dsimp only [Option.elim]
    rw [step_idle (.inr ⟨a, rfl⟩) hcaller, step_idle (.inr ⟨a, rfl⟩) hcaller]
    have hview : s.view.map id = some (s.heap a) := by simp [Sys.view, hm]
    exact .inl ⟨s.heap a, PeerMap.get_hit hview, (Prod.mk.inj (view_held_setPc rfl)).2⟩
  | none =>
    have hview : s.view.map id = none := by simp [Sys.view, hm]
    dsimp only [Option.elim]
    rw [step_run tasks_setPc, Sys.advance]
    cases hr : PeerMap.readRow io (s.setPc i ⟨id, caller, .readMap⟩ .readRow).db id with
    | none =>
      exact .inr ⟨rfl, PeerMap.get_miss hview hr, miss_setPc⟩
    | some v =>
      dsimp only
      rw [setPc_setPc, step_run tasks_setPc, Sys.advance]
      obtain ⟨hput, hpeer⟩ := Prod.mk.inj (view_insert_hold (s := s.setPc i _ _) hb)
      exact .inl ⟨_, hput ▸ PeerMap.get_load hview hr, hpeer⟩

theorem run_get (ht : s.tasks i = some ⟨id, .get, .readMap⟩) (io : DbIo) :
    let s' := Run.run (step J) s [.run i io, .run i io, .run i io]
    (s'.view, s'.held i) = s.view.get J s.now io id := by
  intro s'
  have hs' : s' = step J (Run.run (step J) s [.run i io, .run i io]) (.run i io) := rfl
  rcases run_lookup (J := J) hb (.inl rfl) ht io with ⟨p, hget, hheld⟩ | ⟨-, hget, hmiss⟩
  · rw [hget, hs', hheld]
  · rw [hget, hs', hmiss, Sys.miss, step_idle (.inl rfl) (.inl rfl), view_held_setPc_none rfl]

theorem run_getOr (ht : s.tasks i = some ⟨id, .getOr, .readMap⟩) (io : DbIo) :
    let s' := Run.run (step J) s [.run i io, .run i io, .run i io]
    (s'.view, s'.held i) =
      ((s.view.getOr J s.now io id).1, some (s.view.getOr J s.now io id).2) := by
  intro s'
  have hs' : s' = step J (Run.run (step J) s [.run i io, .run i io]) (.run i io) := rfl
  rw [PeerMap.getOr]
  rcases run_lookup (J := J) hb (.inr rfl) ht io with ⟨p, hget, hheld⟩ | ⟨hm, hget, hmiss⟩
  · rw [hget, hs', hheld]
  · rw [hget, hs', hmiss, Sys.miss, step_run tasks_setPc, Sys.advance, Sys.insertDefault]
    have hm' : (s.setPc i ⟨id, .getOr, .readMap⟩ .insertDefault).map id = none := hm
    rw [hm']
    exact view_insert_hold (s := s.setPc i _ _) hb

end

theorem view_setPeer (hown : ∀ id', s.map id' = some a → id' = id) (ha : s.map id = some a)
    (p : Peer) : (s.setPeer a p).view = s.view.put id p := by
  refine view_put rfl (by simp [Sys.setPeer, ha]) fun id' hid => Option.map_congr fun b hm => ?_
  refine update_of_ne ?_ ..
  rintro rfl
  exact hid (hown id' hm)

theorem run_updatePk (hown : ∀ id', s.map id' = some a → id' = id) (ha : s.map id = some a)
    (ht : s.tasks i = some ⟨id, .getOr, .hold a⟩) (io : DbIo) (addr : SocketAddr) (uuid pk : Bytes)
    (ip : String) :
    (Run.run (step J) s [.updatePk i addr uuid pk ip, .run i io, .run i io]).view =
      (s.view.updatePk J s.now io id (s.heap a) addr uuid pk ip).1 := by
  let w := (s.heap a).register s.now addr uuid pk ip
  let s₀ := (s.setPeer a w).record ⟨id, addr, s.now, some (uuid, pk)⟩
  let t : Task := ⟨id, .getOr, .save a s.hist.length w⟩
  let s₁ := s₀.setPc i t t.pc
  have hview : s₁.view = s.view.put id w := view_setPeer hown ha w
  have h₁ : step J s (.updatePk i addr uuid pk ip) = s₁ := by
    rw [step, ht]
    rfl
  have h₂ : step J s₁ (.run i io) = s₁.save J io i t a s.hist.length w := step_run tasks_setPc io
  have hidle : ∀ u : Sys, (step J (u.setPc i t (.hold a)) (.run i io)).view = u.view := by
    intro u
    rw [step_run tasks_setPc]
    rfl
  have hw : s₁.heap a = w := by simp [s₁, s₀, Sys.setPc, Sys.record, Sys.setPeer]
  rw [Run.run_cons, Run.run_cons, Run.run_cons, Run.run_nil, h₁, h₂, Sys.save]
  split_ifs with hg
  · cases hdb : PeerMap.insertRow io s₁.db t.id w.uuid w.pk (J.write w.info) with
    | none =>
      rw [PeerMap.updatePk_fail (p := s.heap a) (fun _ => hdb) (absurd hg)]
      exact (hidle _).trans hview
    | some db =>
      rw [PeerMap.updatePk_insert (p := s.heap a) hg hdb, step_run tasks_setPc]
      refine (view_setPeer (s := { s₁ with db := db }) hown ha
        { s₁.heap a with guid := io.guid }).trans ?_
      show PeerMap.put { s₁.view with db := db } id _ = _
      rw [hview, hw]
      simp [PeerMap.put, w]
  · cases hdb : PeerMap.updateRow io s₁.db w.guid t.id w.pk (J.write w.info) with
    | none =>
      rw [PeerMap.updatePk_fail (p := s.heap a) (fun he => absurd he hg) (fun _ => hdb)]
      exact (hidle _).trans hview
    | some db =>
      rw [PeerMap.updatePk_update (p := s.heap a) hg hdb]
      exact (hidle _).trans (congrArg (fun pm : PeerMap => { pm with db := db }) hview)

/-! ### What the steps keep -/

def Pc.write : Pc → Option ℕ
  | save _ k _ => some k
  | setGuid _ k _ => some k
  | _ => none

/-- Whether a lookup is about to insert the row it read. -/
def Pc.inserts : Pc → Bool
  | insertRow _ => true
  | _ => false

/-- A lookup inserts the row it read only where the map has nothing. -/
def Undisturbed (s : Sys) : Input → Prop
  | .run i _ => ∀ t ∈ s.tasks i, t.pc.inserts = true → s.map t.id = none
  | _ => True

instance (s : Sys) : DecidablePred (Undisturbed s)
  | .run i _ =>
    inferInstanceAs (Decidable (∀ t ∈ s.tasks i, t.pc.inserts = true → s.map t.id = none))
  | .call .. => inferInstanceAs (Decidable True)
  | .updatePk .. => inferInstanceAs (Decidable True)
  | .elapse _ => inferInstanceAs (Decidable True)

/-- Write `k` of the history is that of an `update_pk` for `id`. -/
def Registered (hist : List Write) (id : String) (k : ℕ) : Prop :=
  ∃ w, hist[k]? = some w ∧ w.id = id ∧ w.key.isSome

/-- What `p` has was written by the registration `k` for `id` or later: its time is
not before that of the registration, the address and the time are those of one
write for `id`, and the uuid and the pk those of one registration for `id`. -/
structure Since (hist : List Write) (id : String) (k : ℕ) (p : Peer) : Prop where
  time : ∀ w, hist[k]? = some w → w.time ≤ p.lastRegTime
  seen : ∃ j w, k ≤ j ∧ hist[j]? = some w ∧ w.id = id ∧ w.addr = p.socketAddr ∧
    w.time = p.lastRegTime
  key : ∃ j w, k ≤ j ∧ hist[j]? = some w ∧ w.id = id ∧ w.key = some (p.uuid, p.pk)

/-- The map has a place of its own for each id, every task that holds a peer holds
the one the map has, and that one has what was written to it last. -/
structure Inv (s : Sys) : Prop where
  bound : ∀ id a, s.map id = some a → a < s.next
  own : ∀ id id' a, s.map id = some a → s.map id' = some a → id' = id
  held : ∀ i t a, s.tasks i = some t → t.pc.peer = some a → s.map t.id = some a
  since : ∀ id k, Registered s.hist id k → ∃ a, s.map id = some a ∧ Since s.hist id k (s.heap a)
  times : ∀ w ∈ s.hist, w.time ≤ s.now
  saving : ∀ i t k, s.tasks i = some t → t.pc.write = some k → Registered s.hist t.id k
  completed : ∀ k ∈ s.completed, ∃ id, Registered s.hist id k
  kept : s.replaced = []

theorem getElem?_snoc {j : ℕ} {v : Write} (h : hist[j]? = some v) : (hist ++ [w])[j]? = some v :=
  (List.getElem?_append_left (List.getElem?_eq_some_iff.1 h).1).trans h

theorem Registered.append (h : Registered hist id k) : Registered (hist ++ [w]) id k := by
  obtain ⟨v, hv, hid, hkey⟩ := h
  exact ⟨v, getElem?_snoc hv, hid, hkey⟩

theorem registered_append (h : Registered (hist ++ [w]) id k) :
    Registered hist id k ∨ k = hist.length ∧ w.id = id ∧ w.key.isSome := by
  obtain ⟨v, hv, hid, hkey⟩ := h
  by_cases hlt : k < hist.length
  · rw [List.getElem?_append_left hlt] at hv
    exact .inl ⟨v, hv, hid, hkey⟩
  · rw [List.getElem?_append_right (by omega)] at hv
    obtain ⟨hk, rfl⟩ := List.getElem?_eq_some_iff.1 hv
    simp only [List.length_singleton] at hk
    refine .inr ⟨by omega, ?_⟩
    simpa using And.intro hid hkey

theorem Since.append (h : Since hist id k p) (hk : k < hist.length) :
    Since (hist ++ [w]) id k p := by
  obtain ⟨j, v, hj, hv, hseen⟩ := h.seen
  obtain ⟨j', v', hj', hv', hkey⟩ := h.key
  refine ⟨fun v hv => ?_, ⟨j, v, hj, getElem?_snoc hv, hseen⟩,
    ⟨j', v', hj', getElem?_snoc hv', hkey⟩⟩
  rw [List.getElem?_append_left hk] at hv
  exact h.time v hv

namespace Inv

variable (h : Inv s)

include h

theorem setPc (hpeer : ∀ a, pc.peer = some a → s.map t.id = some a)
    (hwrite : ∀ k, pc.write = some k → Registered s.hist t.id k) : Inv (s.setPc i t pc) := by
  have htask : ∀ j u, (s.setPc i t pc).tasks j = some u →
      s.tasks j = some u ∨ u = { t with pc := pc } := by
    intro j u hu
    simp only [Sys.setPc, update_apply, ite_eq_iff] at hu
    exact hu.symm.imp And.right fun he => (Option.some.inj he.2).symm
  refine { h with held := fun j u b hu hb => ?_, saving := fun j u l hu hl => ?_ }
  · rcases htask j u hu with hu' | rfl
    · exact h.held j u b hu' hb
    · exact hpeer b hb
  · rcases htask j u hu with hu' | rfl
    · exact h.saving j u l hu' hl
    · exact hwrite l hl

theorem insert (hnone : s.map id = none) : Inv (s.insert id p) := by
  have hold : ∀ id' a, s.map id' = some a → (s.insert id p).map id' = some a := by
    intro id' a ha
    have hne : id' ≠ id := by
      rintro rfl
      cases hnone.symm.trans ha
    simpa [Sys.insert, update_of_ne hne] using ha
  have hnew : ∀ id' a, (s.insert id p).map id' = some a →
      s.map id' = some a ∨ id' = id ∧ a = s.next := by
    intro id' a ha
    simp only [Sys.insert, update_apply, ite_eq_iff] at ha
    exact ha.symm.imp And.right fun he => ⟨he.1, (Option.some.inj he.2).symm⟩
  refine { h with bound := ?_, own := ?_, held := ?_, since := ?_, kept := ?_ }
  · intro id' a ha
    show a < s.next + 1
    rcases hnew id' a ha with ha' | ⟨-, rfl⟩
    · have := h.bound id' a ha'
      omega
    · omega
  · intro id₁ id₂ a h₁ h₂
    rcases hnew id₁ a h₁ with h₁' | ⟨rfl, rfl⟩
    · rcases hnew id₂ a h₂ with h₂' | ⟨rfl, rfl⟩
      · exact h.own id₁ id₂ a h₁' h₂'
      · exact absurd (h.bound id₁ _ h₁') (by omega)
    · rcases hnew id₂ _ h₂ with h₂' | ⟨rfl, -⟩
      · exact absurd (h.bound id₂ _ h₂') (by omega)
      · rfl
  · intro j u b hu hb
    exact hold _ _ (h.held j u b hu hb)
  · intro id' l hl
    obtain ⟨b, hb, hsince⟩ := h.since id' l hl
    refine ⟨b, hold id' b hb, ?_⟩
    have hne : b ≠ s.next := by
      have := h.bound id' b hb
      omega
    simpa [Sys.insert, Sys.setPeer, update_of_ne hne] using hsince
  · simp [Sys.insert, h.kept, hnone]

/-- A write to the peer that the map has for the id: it writes the address and the
time, and either uuid and pk as well or neither. -/
theorem write (ha : s.map w.id = some a) (hnow : w.time = s.now)
    (haddr : p.socketAddr = w.addr) (htime : p.lastRegTime = s.now)
    (hkey : w.key = some (p.uuid, p.pk) ∨
      w.key = none ∧ p.uuid = (s.heap a).uuid ∧ p.pk = (s.heap a).pk) :
    Inv ((s.setPeer a p).record w) := by
  have hlast : (s.hist ++ [w])[s.hist.length]? = some w := by simp
  have hseen : ∀ k ≤ s.hist.length, ∃ j v, k ≤ j ∧ (s.hist ++ [w])[j]? = some v ∧
      v.id = w.id ∧ v.addr = p.socketAddr ∧ v.time = p.lastRegTime := fun k hk =>
    ⟨s.hist.length, w, hk, hlast, rfl, haddr.symm, hnow.trans htime.symm⟩
  have htimes : ∀ v ∈ s.hist ++ [w], v.time ≤ s.now :=
    List.forall_mem_append.2 ⟨h.times, List.forall_mem_singleton.2 hnow.le⟩
  have hsince : ∀ id k, Registered (s.hist ++ [w]) id k →
      ∃ b, s.map id = some b ∧ Since (s.hist ++ [w]) id k (update s.heap a p b) := by
    intro id k hreg
    have hle : ∀ v, (s.hist ++ [w])[k]? = some v → v.time ≤ p.lastRegTime := fun v hv => by
      rw [htime]
      exact htimes v (List.mem_of_getElem? hv)
    rcases registered_append hreg with hold | ⟨rfl, rfl, hsome⟩
    · obtain ⟨b, hb, hs⟩ := h.since id k hold
      have hk : k < s.hist.length := by
        obtain ⟨v, hv, -⟩ := hold
        exact (List.getElem?_eq_some_iff.1 hv).1
      refine ⟨b, hb, ?_⟩
      by_cases hba : b = a
      · subst hba
        obtain rfl := h.own w.id id b ha hb
        rw [update_self]
        refine ⟨hle, hseen k (by omega), ?_⟩
        rcases hkey with hkey | ⟨-, huuid, hpk⟩
        · exact ⟨s.hist.length, w, by omega, hlast, rfl, hkey⟩
        · rw [huuid, hpk]
          exact (hs.append hk).key
      · rw [update_of_ne hba]
        exact hs.append hk
    · refine ⟨a, ha, ?_⟩
      rw [update_self]
      refine ⟨hle, hseen _ (Nat.le_refl _), ?_⟩
      rcases hkey with hkey | ⟨hnone, -⟩
      · exact ⟨s.hist.length, w, Nat.le_refl _, hlast, rfl, hkey⟩
      · simp [hnone] at hsome
  exact { h with
      since := hsince
      times := htimes
      saving := fun j u l hu hl => (h.saving j u l hu hl).append
      completed := fun l hl => (h.completed l hl).imp fun _ hr => hr.append }

theorem setPeer_guid (a : ℕ) (guid : Bytes) : Inv (s.setPeer a { s.heap a with guid := guid }) := by
  refine { h with since := fun id k hreg => ?_ }
  obtain ⟨b, hb, hs⟩ := h.since id k hreg
  refine ⟨b, hb, ?_⟩
  by_cases hba : b = a
  · subst hba
    simp only [Sys.setPeer, update_self]
    exact ⟨hs.time, hs.seen, hs.key⟩
  · simpa [Sys.setPeer, update_of_ne hba] using hs

theorem complete (hk : ∃ id, Registered s.hist id k) : Inv (s.complete k) :=
  { h with completed := List.forall_mem_append.2 ⟨h.completed, List.forall_mem_singleton.2 hk⟩ }

theorem setDb (db : Database) : Inv { s with db := db } := { h with }

theorem setPc_free (hpeer : pc.peer = none) (hwrite : pc.write = none) : Inv (s.setPc i t pc) :=
  h.setPc (by simp [hpeer]) (by simp [hwrite])

theorem setPc_hold (ha : s.map t.id = some a) : Inv (s.setPc i t (.hold a)) :=
  h.setPc (fun | _, rfl => ha) nofun

theorem readMap : Inv (s.readMap i t) := by
  rw [Sys.readMap.eq_def]
  cases hm : s.map t.id with
  | some => exact h.setPc_hold hm
  | none =>
    cases t.caller with
    | get | getOr | updateAddr => exact h.setPc_free rfl rfl

theorem miss : Inv (s.miss i t) := by
  rw [Sys.miss.eq_def]
  cases t.caller with
  | get | getOr | updateAddr => exact h.setPc_free rfl rfl

theorem insert_hold (hnone : s.map t.id = none) :
    Inv ((s.insert t.id p).setPc i t (.hold s.next)) :=
  (h.insert hnone).setPc_hold (by simp [Sys.insert])

theorem insertDefault : Inv (s.insertDefault i t) := by
  rw [Sys.insertDefault.eq_def]
  cases hm : s.map t.id with
  | some => exact h.setPc_hold hm
  | none => exact h.insert_hold hm

section

variable (ha : s.map t.id = some a)

include ha

theorem touch (addr : SocketAddr) : Inv (s.touch i t a addr) := by
  have h' : Inv (s.setPc i t .nothing) := h.setPc_free rfl rfl
  rw [Sys.touch]
  by_cases hr : ((s.setPc i t .nothing).heap a).requestPk addr = true
  · rwa [if_pos hr]
  · rw [if_neg hr, Peer.updateAddr, if_neg hr]
    exact h'.write (w := ⟨t.id, addr, s.now, none⟩) ha rfl rfl rfl (.inr ⟨rfl, rfl, rfl⟩)

theorem register (addr : SocketAddr) (uuid pk : Bytes)
    (ip : String) : Inv (s.register i t a addr uuid pk ip) := by
  have h' := h.write (w := ⟨t.id, addr, s.now, some (uuid, pk)⟩)
    (p := (s.heap a).register s.now addr uuid pk ip) ha rfl rfl rfl (.inl rfl)
  have hlast : (s.hist ++ [⟨t.id, addr, s.now, some (uuid, pk)⟩])[s.hist.length]? = _ :=
    List.getElem?_concat_length
  exact h'.setPc (fun | _, rfl => ha) fun | _, rfl => ⟨_, hlast, rfl, rfl⟩

theorem save (hk : Registered s.hist t.id k) (io : DbIo)
    (q : Peer) : Inv (s.save J io i t a k q) := by
  have hdone : Inv ((s.complete k).setPc i t (.hold a)) := (h.complete ⟨_, hk⟩).setPc_hold ha
  rw [Sys.save]
  split_ifs with hg
  · cases PeerMap.insertRow io s.db t.id q.uuid q.pk (J.write q.info) with
    | none => exact hdone
    | some db => exact (h.setDb db).setPc (fun | _, rfl => ha) fun | _, rfl => hk
  · cases PeerMap.updateRow io s.db q.guid t.id q.pk (J.write q.info) with
    | none => exact hdone
    | some db => exact ((h.setDb db).complete ⟨_, hk⟩).setPc_hold ha

theorem setGuid (hk : Registered s.hist t.id k) (guid : Bytes) : Inv (s.setGuid i t a k guid) :=
  ((h.setPeer_guid a guid).complete ⟨_, hk⟩).setPc_hold ha

end

theorem advance (ht : s.tasks i = some t) (io : DbIo)
    (hrow : t.pc.inserts = true → s.map t.id = none) : Inv (s.advance J io i t) := by
  rcases t with ⟨id, caller, pc⟩
  cases pc with
  | readMap => exact h.readMap
  | readRow =>
    rw [Sys.advance]
    cases PeerMap.readRow io s.db id with
    | some => exact h.setPc_free rfl rfl
    | none => exact h.miss
  | insertRow => exact h.insert_hold (hrow rfl)
  | insertDefault => exact h.insertDefault
  | hold a =>
    cases caller with
    | get | getOr => exact h
    | updateAddr addr => exact h.touch (h.held i _ a ht rfl) addr
  | nothing => exact h
  | save a k q => exact h.save (h.held i _ a ht rfl) (h.saving i _ k ht rfl) io q
  | setGuid a k guid => exact h.setGuid (h.held i _ a ht rfl) (h.saving i _ k ht rfl) guid

theorem step (inp : Input) (hm : Undisturbed s inp) : Inv (step J s inp) := by
  cases inp with
  | call i id caller =>
    rw [Lookups.step]
    split
    · exact h.setPc_free (t := ⟨id, caller, .readMap⟩) rfl rfl
    · exact h
  | run i io =>
    rw [Lookups.step]
    cases ht : s.tasks i with
    | none => exact h
    | some t => exact h.advance ht io (hm t ht)
  | updatePk i addr uuid pk ip =>
    rw [Lookups.step.eq_def]
    dsimp only
    split
    next id a ht => exact h.register (h.held i _ a ht rfl) addr uuid pk ip
    next => exact h
  | elapse ms =>
    refine { h with times := fun w hw => ?_ }
    have := h.times w hw
    show w.time ≤ s.now + ms
    omega

end Inv

theorem inv_start (now : ℕ) (db : Database) : Inv (start now db) :=
  ⟨nofun, nofun, nofun, fun _ _ ⟨_, h, _⟩ => (nomatch h), nofun, nofun, nofun, rfl⟩

/-- In a run in which no lookup inserts its row over an entry of the map: no entry
is ever replaced, and once `update_pk` has returned for an id the map has a peer
for it that has what that registration wrote or what was written later; that peer
is the one every task that looked the id up holds. -/
theorem registration_kept (J : InfoCodec) (now : ℕ) (db : Database) (is : List Input)
    (h : Run.Meets (step J) Undisturbed (start now db) is) :
    let s := Run.run (step J) (start now db) is
    s.replaced = [] ∧
    ∀ k ∈ s.completed, ∃ id a, Registered s.hist id k ∧ s.map id = some a ∧
      Since s.hist id k (s.heap a) ∧
      ∀ i t b, s.tasks i = some t → t.id = id → t.pc.peer = some b → b = a := by
  have hinv : Inv (Run.run (step J) (start now db) is) :=
    Run.inv_run_of_meets (fun s i _ hs hm => hs.step i hm) (inv_start now db) h
  refine ⟨hinv.kept, fun k hk => ?_⟩
  obtain ⟨id, hreg⟩ := hinv.completed k hk
  obtain ⟨a, ha, hsince⟩ := hinv.since id k hreg
  refine ⟨id, a, hreg, ha, hsince, fun i t b ht hid hb => ?_⟩
  have hheld := hinv.held i t b ht hb
  rw [hid, ha, Option.some.injEq] at hheld
  exact hheld.symm

def oneRow : Database where
  rows := [⟨[1], "123456789", [7], [8], InfoCodec.plain.write ⟨"1.2.3.4"⟩⟩]

/-- The peer registers a new key, and is looked up then. -/
theorem registration_kept_lookup :
    let s := Run.run (step .plain) (start 5000000 oneRow)
      [.call 1 "123456789" .getOr, .run 1 {}, .run 1 {}, .run 1 {},
        .updatePk 1 (.v4 0x01020304#32 5000) [7] [9] "1.2.3.4", .run 1 {},
        .call 0 "123456789" .get, .run 0 {}]
    s.completed = [0] ∧ s.replaced = [] ∧
    ∀ k ∈ s.completed, ∃ id a, Registered s.hist id k ∧ s.map id = some a ∧
      Since s.hist id k (s.heap a) ∧
      ∀ i t b, s.tasks i = some t → t.id = id → t.pc.peer = some b → b = a :=
  ⟨by decide +kernel, registration_kept .plain 5000000 oneRow _ (by decide +kernel)⟩

/-- **A call on its own is a step of `PeerMap`.** From every state that such a run reaches: a
`get` or `get_or` that no other task comes between leaves the map and the table, and holds the
peer, that the one step of `PeerMap` gives, and so does the `update_pk` of a task that holds a
peer. -/
theorem alone_eq_peerMap (J : InfoCodec) (now : ℕ) (db : Database) (is : List Input)
    (h : Run.Meets (step J) Undisturbed (start now db) is) :
    let s := Run.run (step J) (start now db) is
    let alone := fun i id caller io =>
      Run.run (step J) s [.call i id caller, .run i io, .run i io, .run i io]
    (∀ i id io, s.tasks i = none →
      ((alone i id .get io).view, (alone i id .get io).held i) = s.view.get J s.now io id ∧
      ((alone i id .getOr io).view, (alone i id .getOr io).held i) =
        ((s.view.getOr J s.now io id).1, some (s.view.getOr J s.now io id).2)) ∧
    ∀ i id a io addr uuid pk ip, s.tasks i = some ⟨id, .getOr, .hold a⟩ →
      (Run.run (step J) s [.updatePk i addr uuid pk ip, .run i io, .run i io]).view =
        (s.view.updatePk J s.now io id (s.heap a) addr uuid pk ip).1 := by
  intro s
  have hinv : Inv s := Run.inv_run_of_meets (fun s i _ hs hm => hs.step i hm) (inv_start now db) h
  clear_value s
  refine ⟨fun i id io hi => ?_, fun i id a io addr uuid pk ip ht => ?_⟩
  · let t := fun caller => { s with tasks := Function.update s.tasks i (some ⟨id, caller, .readMap⟩) }
    have hcall : ∀ caller, step J s (.call i id caller) = t caller := fun caller => if_pos hi
    dsimp only
    rw [Run.run_cons _ _ (Input.call ..), Run.run_cons _ _ (Input.call ..), hcall, hcall]
    exact ⟨run_get (s := t .get) hinv.bound (by simp [t]) io,
      run_getOr (s := t .getOr) hinv.bound (by simp [t]) io⟩
  · have ha := hinv.held i _ a ht rfl
    exact run_updatePk (fun id' h' => hinv.own id id' a ha h') ha ht io addr uuid pk ip

theorem alone_eq_peerMap_lookup :
    let s := Run.run (step .plain) (start 5000000 oneRow)
      [.call 1 "123456789" .getOr, .run 1 {}, .run 1 {}, .run 1 {}]
    (Run.run (step .plain) s
      [.updatePk 1 (.v4 0x01020304#32 5000) [7] [9] "1.2.3.4", .run 1 {}, .run 1 {}]).view =
      (s.view.updatePk .plain 5000000 {} "123456789" (s.heap 0) (.v4 0x01020304#32 5000) [7] [9]
        "1.2.3.4").1 :=
  (alone_eq_peerMap .plain 5000000 oneRow _ (by decide +kernel)).2 1 _ 0 _ _ _ _ _
    (by decide +kernel)

/-- A lookup has read the row of a peer that is not in memory. Before it
inserts it, the peer registers a new key from its own address with its own
uuid, and `update_pk` returns. Then the lookup inserts: the map's peer has the
old key, no address, and the time of an hour ago. -/
theorem registration_lost :
    let s := Run.run (step .plain) (start 5000000 oneRow)
      [.call 0 "123456789" .get, .run 0 {}, .run 0 {},
        .call 1 "123456789" .getOr, .run 1 {}, .run 1 {}, .run 1 {},
        .updatePk 1 (.v4 0x01020304#32 5000) [7] [9] "1.2.3.4", .run 1 {},
        .run 0 {}]
    s.completed = [0] ∧
    s.hist = [⟨"123456789", .v4 0x01020304#32 5000, 5000000, some ([7], [9])⟩] ∧
    (s.map "123456789").map s.heap =
      some ⟨.unspecified, 1400000, [1], [7], [8], ⟨"1.2.3.4"⟩, (0, 1400000)⟩ ∧
    s.replaced = [("123456789", 0)] := by
  decide +kernel

end CodeDesk.Rendezvous.Lookups
