/-
# Pairing at the relay server

`make_pair_` of `server/src/relay_server.rs` between its acquisitions of the lock
of `PEERS`. A task removes the entry of its uuid; if there was one it relays to
that stream, else it acquires the lock again to insert its own stream, sleeps 30
seconds, and acquires it a third time to remove the entry of its uuid. Any number
of tasks take these steps in any order; time passes in between.

Nothing ties the second acquisition to the first: two tasks that both found
nothing both insert, and the first stream is dropped. Nothing ties the third to
the second: it removes whatever waits under the uuid then (`streams_lost`). In a
run in which neither happens (`Undisturbed`) a stream leaves `PEERS` only when it
is paired or its own time is over, and two tasks with a uuid of their own are
paired if they come within 30 seconds (`pairing_sound`).

`log` is history: how each stream left `PEERS`.
-/
import CodeDesk.Server.Relay

namespace CodeDesk.Server.Pairing

open Function (update update_apply update_of_ne update_self)

/-- How a stream left `PEERS`, and the task that took it out. -/
inductive Exit where
  | paired (task : ℕ)
  | overwritten (task : ℕ)
  | expired (task waited : ℕ)
  deriving DecidableEq, Repr

inductive Phase where
  /-- It has found no stream and is to insert its own. -/
  | missed
  | waiting (since : ℕ)
  | relaying (peer : ℕ)
  | expired
  deriving DecidableEq, Repr

/-- A task, from its first acquisition of the lock on. -/
structure Task where
  uuid : String
  time : ℕ
  phase : Phase
  deriving DecidableEq, Repr

/-- `PEERS` holds streams; a stream is known by the task it came with. Times are
in milliseconds. -/
structure Sys where
  now : ℕ
  tasks : ℕ → Option Task
  peers : String → Option ℕ
  log : List (ℕ × Exit)

def start : Sys := ⟨0, fun _ => none, fun _ => none, []⟩

inductive Input where
  /-- A request is read, and the entry of its uuid removed. -/
  | request (i : ℕ) (rf : RequestRelay)
  | insert (i : ℕ)
  | expire (i : ℕ)
  | elapse (ms : ℕ)
  deriving DecidableEq, Repr

/-- The task sleeps so long. -/
def expiry : ℕ := 30000

namespace Sys

def setTask (s : Sys) (i : ℕ) (t : Task) : Sys := { s with tasks := update s.tasks i (some t) }

/-- `PEERS.lock().await.remove(&rf.uuid)` at the start. -/
def request (s : Sys) (i : ℕ) (u : String) : Sys :=
  match s.peers u with
  | some k =>
    { s.setTask i ⟨u, s.now, .relaying k⟩ with
      peers := update s.peers u none
      log := s.log ++ [(k, .paired i)] }
  | none => s.setTask i ⟨u, s.now, .missed⟩

/-- `PEERS.lock().await.insert(..)`; a stream that was there is dropped. -/
def insert (s : Sys) (i : ℕ) (u : String) (time : ℕ) : Sys :=
  { s.setTask i ⟨u, time, .waiting s.now⟩ with
    peers := update s.peers u (some i)
    log := s.log ++ ((s.peers u).map fun k => (k, Exit.overwritten i)).toList }

/-- `PEERS.lock().await.remove(&rf.uuid)` after the sleep. -/
def expire (s : Sys) (i : ℕ) (u : String) (time since : ℕ) : Sys :=
  { s.setTask i ⟨u, time, .expired⟩ with
    peers := update s.peers u none
    log := s.log ++ ((s.peers u).map fun k => (k, Exit.expired i (s.now - since))).toList }

end Sys

def step (key : String) (s : Sys) : Input → Sys
  | .request i rf =>
    match s.tasks i, pairUuid key rf with
    | none, some u => s.request i u
    | _, _ => s
  | .insert i =>
    match s.tasks i with
    | some ⟨u, time, .missed⟩ => s.insert i u time
    | _ => s
  | .expire i =>
    match s.tasks i with
    | some ⟨u, time, .waiting since⟩ => if s.now < since + expiry then s else s.expire i u time since
    | _ => s
  | .elapse ms => { s with now := s.now + ms }

theorem step_cases (key : String) (s : Sys) (inp : Input) : step key s inp = s ∨
    (∃ ms, step key s inp = { s with now := s.now + ms }) ∨
    (∃ i rf u, inp = .request i rf ∧ pairUuid key rf = some u ∧ s.tasks i = none ∧
      step key s inp = s.request i u) ∨
    (∃ i u time, s.tasks i = some ⟨u, time, .missed⟩ ∧ step key s inp = s.insert i u time) ∨
    ∃ i u time since, inp = .expire i ∧ s.tasks i = some ⟨u, time, .waiting since⟩ ∧
      since + expiry ≤ s.now ∧ step key s inp = s.expire i u time since := by
  cases inp with
  | elapse ms => exact .inr (.inl ⟨ms, rfl⟩)
  | request i rf =>
    cases ht : s.tasks i with
    | some => exact .inl (by simp [step, ht])
    | none =>
      cases hu : pairUuid key rf with
      | none => exact .inl (by simp [step, ht, hu])
      | some u => exact .inr (.inr (.inl ⟨i, rf, u, rfl, hu, ht, by simp [step, ht, hu]⟩))
  | insert i =>
    cases ht : s.tasks i with
    | none => exact .inl (by simp [step, ht])
    | some t =>
      obtain ⟨u, time, phase⟩ := t
      cases phase with
      | missed => exact .inr (.inr (.inr (.inl ⟨i, u, time, ht, by simp [step, ht]⟩)))
      | _ => exact .inl (by simp [step, ht])
  | expire i =>
    cases ht : s.tasks i with
    | none => exact .inl (by simp [step, ht])
    | some t =>
      obtain ⟨u, time, phase⟩ := t
      cases phase with
      | waiting since =>
        by_cases hn : s.now < since + expiry
        · exact .inl (by simp [step, ht, hn])
        · exact .inr (.inr (.inr (.inr
            ⟨i, u, time, since, rfl, ht, by omega, by simp [step, ht, hn]⟩)))
      | _ => exact .inl (by simp [step, ht])

/-! ### Undisturbed runs -/

/-- When a task looks its uuid up, no other with that uuid stands between its own
look-up and its insert; and when its sleep is over, nobody else's stream waits
under its uuid. -/
def Undisturbed (key : String) (s : Sys) : Input → Prop
  | .request _ rf => ∀ u, pairUuid key rf = some u →
      ∀ k t, s.tasks k = some t → t.uuid = u → t.phase ≠ .missed
  | .expire i => ∀ t, s.tasks i = some t → s.peers t.uuid = none ∨ s.peers t.uuid = some i
  | _ => True

def Proper : ℕ × Exit → Prop
  | (_, .paired _) => True
  | (_, .overwritten _) => False
  | (k, .expired i waited) => i = k ∧ expiry ≤ waited

def Phase.Inserted : Phase → Prop
  | .waiting _ => True
  | .expired => True
  | _ => False

namespace Sys

def Relays (s : Sys) (j i : ℕ) : Prop :=
  ∃ t, s.tasks j = some t ∧ t.phase = .relaying i

def Alone (s : Sys) (i : ℕ) : Prop := ∀ j, ¬ s.Relays i j ∧ ¬ s.Relays j i

end Sys

structure Inv (s : Sys) : Prop where
  /-- Who is in `PEERS` sleeps, and has not left before. -/
  sleeps : ∀ u k, s.peers u = some k → (∃ time since, s.tasks k = some ⟨u, time, .waiting since⟩) ∧
    ∀ x, (k, x) ∉ s.log
  times : ∀ k t, s.tasks k = some t → t.time ≤ s.now ∧
    (∀ since, t.phase = .waiting since → t.time ≤ since) ∧
    (t.phase = .expired → t.time + expiry ≤ s.now)
  /-- Between its look-up and its insert a task is alone with its uuid. -/
  missed : ∀ k t, s.tasks k = some t → t.phase = .missed → s.peers t.uuid = none ∧
    ∀ k' t', s.tasks k' = some t' → t'.uuid = t.uuid → t'.phase = .missed → k' = k
  /-- Who has inserted its stream is in `PEERS` or has left it, and no one else has left it. -/
  exits : ∀ k t, s.tasks k = some t → t.phase.Inserted →
    s.peers t.uuid = some k ∨ ∃ x, (k, x) ∈ s.log
  inserted : ∀ k x, (k, x) ∈ s.log → ∃ t, s.tasks k = some t ∧ t.phase.Inserted
  proper : ∀ x ∈ s.log, Proper x
  paired : ∀ k m, (k, Exit.paired m) ∈ s.log → s.Relays m k
  relays : ∀ m t k, s.tasks m = some t → t.phase = .relaying k → (k, Exit.paired m) ∈ s.log ∧
    ∃ t', s.tasks k = some t' ∧ t'.uuid = t.uuid
  expired : ∀ k i w, (k, Exit.expired i w) ∈ s.log → ∃ t, s.tasks k = some t ∧ t.phase = .expired
  /-- Two tasks that stay alone with one uuid are 30 seconds apart. -/
  apart : ∀ i j ti tj, i ≠ j → s.tasks i = some ti → s.tasks j = some tj → ti.uuid = tj.uuid →
    s.Alone i → s.Alone j → ti.time + expiry ≤ tj.time ∨ tj.time + expiry ≤ ti.time

variable {s : Sys} {i k : ℕ} {u : String} {t t' : Task} {time since : ℕ}

theorem setTask_some (h : (s.setTask i t).tasks k = some t') :
    (k = i ∧ t' = t) ∨ (k ≠ i ∧ s.tasks k = some t') := by
  simp only [Sys.setTask, update_apply, ite_eq_iff] at h
  exact h.imp_left fun he => ⟨he.1, (Option.some.inj he.2).symm⟩

@[simp] theorem setTask_same (s : Sys) (i : ℕ) (t : Task) : (s.setTask i t).tasks i = some t :=
  update_self ..

theorem setTask_other (s : Sys) (t : Task) (hk : k ≠ i) : (s.setTask i t).tasks k = s.tasks k :=
  update_of_ne hk ..

theorem ne_of_tasks (hi : s.tasks i = none) (hk : s.tasks k = some t) : k ≠ i := by
  rintro rfl
  simp [hi] at hk

/-! ### The steps keep the invariant -/

theorem inv_start : Inv start :=
  ⟨nofun, nofun, nofun, nofun, nofun, nofun, nofun, nofun, nofun, nofun⟩

theorem Inv.elapse (h : Inv s) (ms : ℕ) : Inv { s with now := s.now + ms } := by
  refine { h with times := fun k t hk => ?_ }
  obtain ⟨htime, hsince, hexp⟩ := h.times k t hk
  exact ⟨Nat.le_add_right_of_le htime, hsince, fun he => Nat.le_add_right_of_le (hexp he)⟩

/-- A property that the task of `i` does not lose is not lost by any task. -/
theorem exists_setTask {Q : Task → Prop} (hQ : ∀ t₀, s.tasks i = some t₀ → Q t₀ → Q t)
    (h : ∃ t₀, s.tasks k = some t₀ ∧ Q t₀) : ∃ t₀, (s.setTask i t).tasks k = some t₀ ∧ Q t₀ := by
  obtain ⟨t₀, hk, ht₀⟩ := h
  by_cases hki : k = i
  · subst hki
    exact ⟨t, setTask_same .., hQ t₀ hk ht₀⟩
  · exact ⟨t₀, (setTask_other s t hki).trans hk, ht₀⟩

section

variable (hr : ∀ t₀, s.tasks i = some t₀ → ∀ k, t₀.phase ≠ .relaying k)

include hr

theorem relays_setTask_of {j m : ℕ} (h : s.Relays j m) : (s.setTask i t).Relays j m :=
  exists_setTask (Q := fun t => t.phase = .relaying m) (fun t₀ hi hph => absurd hph (hr t₀ hi m)) h

theorem alone_of_setTask (h : (s.setTask i t).Alone k) : s.Alone k := fun j =>
  ⟨fun hj => (h j).1 (relays_setTask_of hr hj), fun hj => (h j).2 (relays_setTask_of hr hj)⟩

/-- Task `i` comes to `t`, `PEERS` to `peers`, and `out` is added to the log. What is left
to show is about `i` and `out` alone, but for the entries of `PEERS` and for who is alone. -/
theorem Inv.move {peers : String → Option ℕ} {out : List (ℕ × Exit)} (h : Inv s)
    (hexpired : ∀ t₀, s.tasks i = some t₀ → t₀.phase ≠ .expired)
    (hinserted : ∀ t₀, s.tasks i = some t₀ → t₀.phase.Inserted → t.phase.Inserted)
    (huuid : ∀ t₀, s.tasks i = some t₀ → t₀.uuid = t.uuid)
    (htime : t.time ≤ s.now ∧ (∀ since, t.phase = .waiting since → t.time ≤ since) ∧
      (t.phase = .expired → t.time + expiry ≤ s.now))
    (hsleeps : ∀ u k, peers u = some k →
      (∃ time since, (s.setTask i t).tasks k = some ⟨u, time, .waiting since⟩) ∧
        ∀ x, (k, x) ∉ s.log ++ out)
    (hmissed : ∀ k t', (s.setTask i t).tasks k = some t' → t'.phase = .missed →
      peers t'.uuid = none ∧ ∀ k' t'', (s.setTask i t).tasks k' = some t'' → t''.uuid = t'.uuid →
        t''.phase = .missed → k' = k)
    (hexits : t.phase.Inserted → peers t.uuid = some i ∨ ∃ x, (i, x) ∈ s.log ++ out)
    (hleft : ∀ k t', k ≠ i → s.tasks k = some t' → s.peers t'.uuid = some k →
      peers t'.uuid = some k ∨ ∃ x, (k, x) ∈ out)
    (hout : ∀ k x, (k, x) ∈ out → Proper (k, x) ∧
      (∃ t', (s.setTask i t).tasks k = some t' ∧ t'.phase.Inserted) ∧
      (∀ m, x = .paired m → (s.setTask i t).Relays m k) ∧
      ∀ m w, x = .expired m w → ∃ t', (s.setTask i t).tasks k = some t' ∧ t'.phase = .expired)
    (hrelays : ∀ k, t.phase = .relaying k → (k, Exit.paired i) ∈ out ∧
      ∃ t', s.tasks k = some t' ∧ t'.uuid = t.uuid)
    (hapart : ∀ k t', k ≠ i → s.tasks k = some t' → t'.uuid = t.uuid → s.Alone k →
      (s.setTask i t).Alone i → t.time + expiry ≤ t'.time ∨ t'.time + expiry ≤ t.time) :
    Inv { s.setTask i t with peers := peers, log := s.log ++ out } := by
  have hlog : ∀ {k x}, (k, x) ∈ s.log ++ out → (k, x) ∈ s.log ∨ (k, x) ∈ out := List.mem_append.1
  refine ⟨hsleeps, fun k t' hk => ?_, hmissed, fun k t' hk hins => ?_, fun k x hx => ?_,
    List.forall_mem_append.2 ⟨h.proper, fun x hx => (hout x.1 x.2 hx).1⟩, fun k m hx => ?_,
    fun m t' k hm hph => ?_, fun k m w hx => ?_, fun a b ta tb hab ha hb hu hal hbl => ?_⟩
  · rcases setTask_some hk with ⟨-, rfl⟩ | ⟨-, hk⟩
    · exact htime
    · exact h.times k t' hk
  · rcases setTask_some hk with ⟨rfl, rfl⟩ | ⟨hki, hk⟩
    · exact hexits hins
    · rcases h.exits k t' hk hins with hin | ⟨x, hx⟩
      · exact (hleft k t' hki hk hin).imp_right fun ⟨x, hx⟩ => ⟨x, List.mem_append_right _ hx⟩
      · exact .inr ⟨x, List.mem_append_left _ hx⟩
  · rcases hlog hx with hx | hx
    · exact exists_setTask hinserted (h.inserted k x hx)
    · exact (hout k x hx).2.1
  · rcases hlog hx with hx | hx
    · exact relays_setTask_of hr (h.paired k m hx)
    · exact (hout k _ hx).2.2.1 m rfl
  · have hsame : (∃ t₀, s.tasks k = some t₀ ∧ t₀.uuid = t'.uuid) →
        ∃ t₀, (s.setTask i t).tasks k = some t₀ ∧ t₀.uuid = t'.uuid :=
      exists_setTask fun t₀ hi hu => (huuid t₀ hi).symm.trans hu
    rcases setTask_some hm with ⟨rfl, rfl⟩ | ⟨-, hm⟩
    · obtain ⟨hx, ht'⟩ := hrelays k hph
      exact ⟨List.mem_append_right _ hx, hsame ht'⟩
    · obtain ⟨hx, ht'⟩ := h.relays m t' k hm hph
      exact ⟨List.mem_append_left _ hx, hsame ht'⟩
  · rcases hlog hx with hx | hx
    · exact exists_setTask (fun t₀ hi he => absurd he (hexpired t₀ hi)) (h.expired k m w hx)
    · exact (hout k _ hx).2.2.2 m w rfl
  · rcases setTask_some ha with ⟨rfl, rfl⟩ | ⟨hai, ha'⟩
    · rcases setTask_some hb with ⟨rfl, -⟩ | ⟨hbi, hb⟩
      · exact absurd rfl hab
      · exact hapart b tb hbi hb hu.symm (alone_of_setTask hr hbl) hal
    · rcases setTask_some hb with ⟨rfl, rfl⟩ | ⟨-, hb⟩
      · exact (hapart a ta hai ha' hu (alone_of_setTask hr hal) hbl).symm
      · exact h.apart a b ta tb hab ha' hb hu (alone_of_setTask hr hal) (alone_of_setTask hr hbl)

end

/-- A task that is past its insert does not stand in the way of one that is before it. -/
theorem Inv.missed_setTask {peers : String → Option ℕ} (h : Inv s) (ht : t.phase ≠ .missed)
    (hpeers : ∀ k t', k ≠ i → s.tasks k = some t' → t'.phase = .missed → peers t'.uuid = none)
    (k : ℕ) (t' : Task) (hk : (s.setTask i t).tasks k = some t') (hph : t'.phase = .missed) :
    peers t'.uuid = none ∧ ∀ k' t'', (s.setTask i t).tasks k' = some t'' → t''.uuid = t'.uuid →
      t''.phase = .missed → k' = k := by
  rcases setTask_some hk with ⟨-, rfl⟩ | ⟨hki, hk⟩
  · exact absurd hph ht
  · refine ⟨hpeers k t' hki hk hph, fun k' t'' hk' hu hph' => ?_⟩
    rcases setTask_some hk' with ⟨-, rfl⟩ | ⟨-, hk'⟩
    · exact absurd hph' ht
    · exact (h.missed k t' hk hph).2 k' t'' hk' hu hph'

/-- A task that stays alone, whose uuid is not in `PEERS` and which is not about to insert
it, is long gone. -/
theorem Inv.gone (h : Inv s) (hk : s.tasks k = some t) (hp : s.peers t.uuid = none)
    (hm : t.phase ≠ .missed) (ha : s.Alone k) : t.time + expiry ≤ s.now := by
  have hph : t.phase = .expired := by
    cases hph : t.phase with
    | missed => exact absurd hph hm
    | relaying m => exact absurd ⟨t, hk, hph⟩ (ha m).1
    | expired => rfl
    | waiting =>
      rcases h.exits k t hk (by rw [hph]; trivial) with hin | ⟨x, hx⟩
      · simp [hp] at hin
      cases x with
      | paired m => exact absurd (h.paired k m hx) (ha m).2
      | overwritten => exact (h.proper _ hx).elim
      | expired m w =>
        obtain ⟨t', hk', hph'⟩ := h.expired k m w hx
        cases hk.symm.trans hk'
        cases hph.symm.trans hph'
  exact (h.times k t hk).2.2 hph

theorem Inv.miss (h : Inv s) (hi : s.tasks i = none) (hp : s.peers u = none)
    (hm : ∀ k t, s.tasks k = some t → t.uuid = u → t.phase ≠ .missed) :
    Inv (s.setTask i ⟨u, s.now, .missed⟩) := by
  have hnew : ∀ {p : Task → Prop} t₀, s.tasks i = some t₀ → p t₀ := fun t₀ h₀ => by simp [hi] at h₀
  have hs : s.setTask i ⟨u, s.now, .missed⟩ =
      { s.setTask i ⟨u, s.now, .missed⟩ with peers := s.peers, log := s.log ++ [] } := by
    simp [Sys.setTask]
  rw [hs]
  refine h.move hnew hnew hnew hnew ⟨le_refl _, nofun, nofun⟩ (fun u' k hk => ?_)
    (fun k t hk ht => ?_) (fun ht => ht.elim) (fun _ _ _ _ => .inl) nofun nofun
    fun k t _ hk hu ha _ => .inr (h.gone hk (hu ▸ hp) (hm k t hk hu) ha)
  · obtain ⟨⟨time, since, hs⟩, hlog⟩ := h.sleeps u' k hk
    rw [List.append_nil]
    exact ⟨⟨time, since, (setTask_other s _ (ne_of_tasks hi hs)).trans hs⟩, hlog⟩
  · rcases setTask_some hk with ⟨rfl, rfl⟩ | ⟨-, hk⟩
    · refine ⟨hp, fun k' t' hk' hu' ht' => ?_⟩
      rcases setTask_some hk' with ⟨rfl, -⟩ | ⟨-, hk'⟩
      · rfl
      · exact absurd ht' (hm k' t' hk' hu')
    · refine ⟨(h.missed k t hk ht).1, fun k' t' hk' hu' ht' => ?_⟩
      rcases setTask_some hk' with ⟨-, rfl⟩ | ⟨-, hk'⟩
      · exact absurd ht (hm k t hk hu'.symm)
      · exact (h.missed k t hk ht).2 k' t' hk' hu' ht'

/-- Who waits in `PEERS` goes on to do so, unless it is `i`. -/
theorem Inv.sleeps_setTask (h : Inv s) (i : ℕ) (t : Task)
    (hi : ∀ time since, s.tasks i ≠ some ⟨u, time, .waiting since⟩) (hk : s.peers u = some k) :
    k ≠ i ∧ (∃ time since, (s.setTask i t).tasks k = some ⟨u, time, .waiting since⟩) ∧
      ∀ x, (k, x) ∉ s.log := by
  obtain ⟨⟨time, since, hs⟩, hfresh⟩ := h.sleeps u k hk
  have hki : k ≠ i := by
    rintro rfl
    exact hi time since hs
  exact ⟨hki, ⟨time, since, (setTask_other s t hki).trans hs⟩, hfresh⟩

theorem of_update_none {u' : String} (hk : update s.peers u none u' = some k) :
    u' ≠ u ∧ s.peers u' = some k := by
  rw [update_apply, ite_eq_iff] at hk
  exact hk.resolve_left fun he => nomatch he.2

theorem update_none (hp : s.peers t.uuid = none) : update s.peers u none t.uuid = none := by
  by_cases hu : t.uuid = u
  · exact hu ▸ update_self ..
  · exact (update_of_ne hu ..).trans hp

theorem Inv.pair (h : Inv s) (hi : s.tasks i = none) (hp : s.peers u = some k) :
    Inv (s.request i u) := by
  have hs : s.request i u = { s.setTask i ⟨u, s.now, .relaying k⟩ with
      peers := update s.peers u none
      log := s.log ++ [(k, .paired i)] } := by simp [Sys.request, hp]
  rw [hs]
  have hnew : ∀ {p : Task → Prop} t₀, s.tasks i = some t₀ → p t₀ := fun t₀ h₀ => by simp [hi] at h₀
  obtain ⟨⟨time, since, hk⟩, hnotlog⟩ := h.sleeps u k hp
  have hki : k ≠ i := ne_of_tasks hi hk
  refine h.move hnew hnew hnew hnew ⟨le_refl _, nofun, nofun⟩ (fun u' m hm => ?_)
    (h.missed_setTask nofun fun m t _ hm ht => update_none (h.missed m t hm ht).1)
    (fun ht => ht.elim) (fun m t _ _ hin => ?_) (fun m x hx => ?_) (fun m hm => ?_)
    fun m t _ _ _ _ hal => ?_
  · obtain ⟨hu, hm⟩ := of_update_none hm
    obtain ⟨-, hsleeps, hfresh⟩ := h.sleeps_setTask i ⟨u, s.now, .relaying k⟩ (by simp [hi]) hm
    refine ⟨hsleeps, fun x hx => ?_⟩
    rcases List.mem_append.1 hx with hx | hx
    · exact hfresh x hx
    · obtain ⟨rfl, -⟩ := Prod.mk.inj (List.mem_singleton.1 hx)
      obtain ⟨_, _, hm'⟩ := hsleeps
      rw [setTask_other s _ hki, hk, Option.some.injEq, Task.mk.injEq] at hm'
      exact hu hm'.1.symm
  · by_cases hu : t.uuid = u
    · rw [hu, hp, Option.some.injEq] at hin
      exact .inr ⟨.paired i, by simp [hin]⟩
    · exact .inl ((update_of_ne hu ..).trans hin)
  · cases List.mem_singleton.1 hx
    refine ⟨trivial, ⟨_, (setTask_other s _ hki).trans hk, trivial⟩, fun m hm => ?_, nofun⟩
    obtain rfl := Exit.paired.inj hm
    exact ⟨_, setTask_same .., rfl⟩
  · obtain rfl := Phase.relaying.inj hm
    exact ⟨List.mem_singleton_self _, _, hk, rfl⟩
  · exact absurd ⟨_, setTask_same .., rfl⟩ (hal k).1

theorem Inv.insert (h : Inv s) (hi : s.tasks i = some ⟨u, time, .missed⟩) :
    Inv (s.insert i u time) := by
  obtain ⟨hnone, honly⟩ := h.missed i _ hi rfl
  have hnone : s.peers u = none := hnone
  have hs : s.insert i u time = { s.setTask i ⟨u, time, .waiting s.now⟩ with
      peers := update s.peers u (some i), log := s.log ++ [] } := by
    simp [Sys.insert, hnone, Sys.setTask]
  rw [hs]
  have hwas : ∀ {p : Task → Prop}, p ⟨u, time, .missed⟩ → ∀ t₀, s.tasks i = some t₀ → p t₀ :=
    fun hp t₀ h₀ => Option.some.inj (hi.symm.trans h₀) ▸ hp
  have hr := hwas (p := fun t => ∀ k, t.phase ≠ .relaying k) nofun
  have htime := (h.times i _ hi).1
  refine h.move hr (hwas nofun) (hwas fun h => h.elim) (hwas rfl)
    ⟨htime, fun since hs' => ?_, nofun⟩ (fun u' m hm => ?_)
    (h.missed_setTask nofun fun m t hmi hm ht => ?_) (fun _ => .inl (update_self ..))
    (fun m t _ hm hin => .inl ?_) nofun nofun
    fun m t hmi hm hu hal hali =>
      h.apart i m ⟨u, time, .missed⟩ t hmi.symm hi hm hu.symm (alone_of_setTask hr hali) hal
  · rwa [← Phase.waiting.inj hs']
  · rw [List.append_nil]
    by_cases hu : u' = u
    · subst hu
      obtain rfl : i = m := by simpa only [update_self, Option.some.injEq] using hm
      refine ⟨⟨time, s.now, setTask_same ..⟩, fun x hx => ?_⟩
      obtain ⟨t, hm, ht⟩ := h.inserted _ x hx
      cases hi.symm.trans hm
      exact ht
    · rw [update_of_ne hu] at hm
      exact (h.sleeps_setTask i _ (by simp [hi]) hm).2
  · have hu : t.uuid ≠ u := fun hu => hmi (honly m t hm hu ht)
    exact (update_of_ne hu ..).trans (h.missed m t hm ht).1
  · have hu : t.uuid ≠ u := by
      intro hu
      simp [hu, hnone] at hin
    exact (update_of_ne hu ..).trans hin

theorem Inv.expire (h : Inv s) (hi : s.tasks i = some ⟨u, time, .waiting since⟩)
    (hnow : since + expiry ≤ s.now) (hp : s.peers u = none ∨ s.peers u = some i) :
    Inv (s.expire i u time since) := by
  -- either way the log only gets an entry of `i` itself
  obtain ⟨out, hs, hout⟩ : ∃ out : List (ℕ × Exit), s.expire i u time since =
      { s.setTask i ⟨u, time, .expired⟩ with
        peers := update s.peers u none
        log := s.log ++ out } ∧
      ((out = [] ∧ s.peers u = none) ∨ out = [(i, Exit.expired i (s.now - since))]) := by
    rcases hp with hp | hp
    · exact ⟨[], by simp [Sys.expire, hp], .inl ⟨rfl, hp⟩⟩
    · exact ⟨[(i, Exit.expired i (s.now - since))], by simp [Sys.expire, hp], .inr rfl⟩
  rw [hs]
  have hmem : ∀ {m x}, (m, x) ∈ out → m = i ∧ x = .expired i (s.now - since) := by
    intro m x hx
    rcases hout with ⟨rfl, -⟩ | rfl
    · exact absurd hx List.not_mem_nil
    · exact Prod.mk.inj (List.mem_singleton.1 hx)
  have hwas : ∀ {p : Task → Prop}, p ⟨u, time, .waiting since⟩ → ∀ t₀, s.tasks i = some t₀ → p t₀ :=
    fun hp t₀ h₀ => Option.some.inj (hi.symm.trans h₀) ▸ hp
  have hr := hwas (p := fun t => ∀ k, t.phase ≠ .relaying k) nofun
  have htime := h.times i _ hi
  refine h.move hr (hwas nofun) (hwas fun _ => trivial) (hwas rfl)
    ⟨htime.1, nofun, fun _ => ?_⟩ (fun u' m hm => ?_)
    (h.missed_setTask nofun fun m t _ hm ht => update_none (h.missed m t hm ht).1)
    (fun _ => .inr ?_) (fun m t hmi hm hin => .inl ?_) (fun m x hx => ?_) nofun
    fun m t hmi hm hu hal hali =>
      h.apart i m ⟨u, time, .waiting since⟩ t hmi.symm hi hm hu.symm (alone_of_setTask hr hali) hal
  · have hsince : time ≤ since := htime.2.1 since rfl
    show time + expiry ≤ s.now
    omega
  · obtain ⟨hu, hm⟩ := of_update_none hm
    obtain ⟨hmi, hsleeps, hfresh⟩ := h.sleeps_setTask i ⟨u, time, .expired⟩
      (by simp [hi, hu.symm]) hm
    refine ⟨hsleeps, fun x hx => ?_⟩
    rcases List.mem_append.1 hx with hx | hx
    · exact hfresh x hx
    · exact hmi (hmem hx).1
  · rcases hout with ⟨-, hnone⟩ | hout
    · rcases h.exits i _ hi trivial with hin | ⟨x, hx⟩
      · simp [hnone] at hin
      · exact ⟨x, List.mem_append_left _ hx⟩
    · exact ⟨_, List.mem_append_right _ (by rw [hout]; exact List.mem_singleton_self _)⟩
  · have hu : t.uuid ≠ u := by
      rintro rfl
      rcases hp with hp | hp <;> cases hp.symm.trans hin
      exact hmi rfl
    exact (update_of_ne hu ..).trans hin
  · obtain ⟨rfl, rfl⟩ := hmem hx
    exact ⟨⟨rfl, by omega⟩, ⟨_, setTask_same .., trivial⟩, nofun, fun _ _ _ =>
      ⟨_, setTask_same .., rfl⟩⟩

theorem inv_step (key : String) (s : Sys) (inp : Input) (h : Inv s) (hm : Undisturbed key s inp) :
    Inv (step key s inp) := by
  rcases step_cases key s inp with hs | ⟨ms, hs⟩ | ⟨i, rf, u, rfl, hu, hi, hs⟩ |
    ⟨i, u, time, hi, hs⟩ | ⟨i, u, time, since, rfl, hi, hnow, hs⟩ <;> rw [hs]
  · exact h
  · exact h.elapse ms
  · cases hp : s.peers u with
    | none =>
      have hmiss : s.request i u = s.setTask i ⟨u, s.now, .missed⟩ := by simp [Sys.request, hp]
      rw [hmiss]
      exact h.miss hi hp (hm u hu)
    | some => exact h.pair hi hp
  · exact h.insert hi
  · exact h.expire hi hnow (hm _ hi)

/-! ### The runs -/

theorem Inv.relays_ne (h : Inv s) {j : ℕ} (hr : s.Relays j i) :
    i ≠ j ∧ ∃ ti tj, s.tasks i = some ti ∧ s.tasks j = some tj ∧ ti.uuid = tj.uuid := by
  obtain ⟨tj, hj, hph⟩ := hr
  obtain ⟨hlog, ti, hi, hu⟩ := h.relays j tj i hj hph
  refine ⟨?_, ti, tj, hi, hj, hu⟩
  rintro rfl
  obtain ⟨t, ht, hins⟩ := h.inserted i _ hlog
  cases hj.symm.trans ht
  rwa [hph] at hins

theorem Inv.partner (h : Inv s) (hi : s.tasks i = some t) (hn : ¬ s.Alone i) :
    ∃ m tm, m ≠ i ∧ s.tasks m = some tm ∧ tm.uuid = t.uuid ∧ (s.Relays i m ∨ s.Relays m i) := by
  unfold Sys.Alone at hn
  push Not at hn
  obtain ⟨m, hm⟩ := hn
  by_cases hr : s.Relays i m
  · obtain ⟨hne, tm, ti, htm, hti, hu⟩ := h.relays_ne hr
    cases hi.symm.trans hti
    exact ⟨m, tm, hne, htm, hu, .inl hr⟩
  · obtain ⟨hne, ti, tm, hti, htm, hu⟩ := h.relays_ne (hm hr)
    cases hi.symm.trans hti
    exact ⟨m, tm, hne.symm, htm, hu.symm, .inr (hm hr)⟩

theorem Inv.not_waiting (h : Inv s) {j : ℕ} (hr : s.Relays j i) :
    s.peers u ≠ some i ∧ s.peers u ≠ some j := by
  obtain ⟨tj, hj, hph⟩ := hr
  refine ⟨fun hp => ?_, fun hp => ?_⟩
  · exact (h.sleeps u i hp).2 _ (h.relays j tj i hj hph).1
  · obtain ⟨⟨_, _, hj'⟩, -⟩ := h.sleeps u j hp
    cases hj.symm.trans hj'
    cases hph

theorem Inv.paired_of_only {j : ℕ} {ti tj : Task} (h : Inv s) (hij : i ≠ j)
    (hi : s.tasks i = some ti) (hj : s.tasks j = some tj) (hu : ti.uuid = tj.uuid)
    (honly : ∀ k t, s.tasks k = some t → t.uuid = ti.uuid → k = i ∨ k = j)
    (hti : ti.time < tj.time + expiry) (htj : tj.time < ti.time + expiry) :
    (s.Relays i j ∨ s.Relays j i) ∧ s.peers ti.uuid = none := by
  have hpaired : s.Relays i j ∨ s.Relays j i := by
    by_cases hai : s.Alone i
    · have haj : ¬ s.Alone j := fun haj => by
        rcases h.apart i j ti tj hij hi hj hu hai haj with hle | hle <;> omega
      obtain ⟨m, tm, hmj, hm, hmu, hr⟩ := h.partner hj haj
      rcases honly m tm hm (hmu.trans hu.symm) with rfl | rfl
      · exact hr.symm
      · exact absurd rfl hmj
    · obtain ⟨m, tm, hmi, hm, hmu, hr⟩ := h.partner hi hai
      rcases honly m tm hm hmu with rfl | rfl
      · exact absurd rfl hmi
      · exact hr
  refine ⟨hpaired, ?_⟩
  have hnot : s.peers ti.uuid ≠ some i ∧ s.peers ti.uuid ≠ some j := by
    rcases hpaired with hr | hr
    · exact (h.not_waiting hr).symm
    · exact h.not_waiting hr
  cases hp : s.peers ti.uuid with
  | none => rfl
  | some k =>
    obtain ⟨⟨time, since, hk⟩, -⟩ := h.sleeps _ k hp
    rcases honly k _ hk rfl with rfl | rfl
    · exact absurd hp hnot.1
    · exact absurd hp hnot.2

/-- **Pairing.** In a run that nothing disturbs, a stream that was inserted is in
`PEERS` until it is paired or its own 30 seconds are over; and two tasks that are
the only ones with their uuid and come within 30 seconds are relayed to each
other, with nothing left in `PEERS`. -/
theorem pairing_sound (key : String) (is : List Input)
    (h : Run.Meets (step key) (Undisturbed key) start is) :
    (∀ x ∈ (Run.run (step key) start is).log, Proper x) ∧
    (∀ k t, (Run.run (step key) start is).tasks k = some t → t.phase.Inserted →
      (Run.run (step key) start is).peers t.uuid = some k ∨
        ∃ x, (k, x) ∈ (Run.run (step key) start is).log) ∧
    ∀ i j ti tj, i ≠ j → (Run.run (step key) start is).tasks i = some ti →
      (Run.run (step key) start is).tasks j = some tj → ti.uuid = tj.uuid →
      (∀ k t, (Run.run (step key) start is).tasks k = some t → t.uuid = ti.uuid → k = i ∨ k = j) →
      ti.time < tj.time + expiry → tj.time < ti.time + expiry →
      ((Run.run (step key) start is).Relays i j ∨ (Run.run (step key) start is).Relays j i) ∧
        (Run.run (step key) start is).peers ti.uuid = none := by
  have hinv : Inv (Run.run (step key) start is) :=
    Run.inv_run_of_meets (fun s inp _ => inv_step key s inp) inv_start h
  exact ⟨hinv.proper, hinv.exits, fun _ _ _ _ => hinv.paired_of_only⟩

def request : RequestRelay := ⟨"key", "u"⟩

def lateRun : List Input := [.request 0 request, .insert 0, .elapse 29999, .request 1 request]

/-- Two tasks, the second 29.999 seconds after the first. -/
theorem pairing_sound_late :
    ((Run.run (step "key") start lateRun).Relays 0 1 ∨ (Run.run (step "key") start lateRun).Relays 1 0) ∧
      (Run.run (step "key") start lateRun).peers "u" = none := by
  have hfirst : ∀ k t, ((start.setTask 0 ⟨"u", 0, .missed⟩).setTask 0 ⟨"u", 0, .waiting 0⟩).tasks k =
      some t → k = 0 ∧ t.phase = .waiting 0 := by
    intro k t hk
    rcases setTask_some hk with ⟨hk0, rfl⟩ | ⟨hk0, hk⟩
    · exact ⟨hk0, rfl⟩
    · rcases setTask_some hk with ⟨hk0', -⟩ | ⟨-, hk⟩
      · exact absurd hk0' hk0
      · cases hk
  have hmeets : Run.Meets (step "key") (Undisturbed "key") start lateRun := by
    refine ⟨nofun, trivial, trivial, fun u hu k t hk htu => ?_, trivial⟩
    rw [(hfirst k t hk).2]
    nofun
  refine (pairing_sound "key" _ hmeets).2.2 0 1 ⟨"u", 0, .waiting 0⟩ ⟨"u", 29999, .relaying 0⟩
    (by decide) rfl rfl rfl (fun k t hk _ => ?_) (by decide) (by decide)
  rcases setTask_some hk with ⟨hk1, -⟩ | ⟨-, hk⟩
  · exact .inr hk1
  · exact .inl (hfirst k t hk).1

/-- Two tasks look their uuid up before either inserts: the first stream is
dropped, and the second waits alone until the first task's time is over. Or a
stream comes under a uuid that was paired before: it goes with the time of the
first task, after five seconds. -/
theorem streams_lost :
    (Run.run (step "key") start [.request 0 request, .request 1 request, .insert 0, .insert 1,
      .elapse 30000, .expire 0]).log = [(0, .overwritten 1), (1, .expired 0 30000)] ∧
    (Run.run (step "key") start [.request 0 request, .insert 0, .elapse 10000, .request 1 request,
      .elapse 15000, .request 2 request, .insert 2, .elapse 5000, .expire 0]).log =
      [(0, .paired 1), (2, .expired 0 30000)] := by
  decide +kernel

end CodeDesk.Server.Pairing
