/-
# Who owns privacy mode

On macOS `PRIVACY_MODE` always holds the one implementation there is, so it comes
down to an owner and a screen (`Store.held`). Of another connection's requests none
gets past `check_on_conn_id` and `check_off_conn_id` to touch them, but one: after
its turn-on has failed, a connection that finds privacy mode on turns it off in the
name of nobody, whoever the owner is (`Phase.forcing`). So what another connection
does leaves owner and screen alone exactly when it is not at that section
(`Inv.undisturbed_iff`), and a whole turn-on request exactly when it is denied for
want of the permission (`Inv.turnOnRequest`).

That no connection is gone and still the owner holds however the sections
interleave, as long as the system call does not fail (`Inv.alive`).
-/
import CodeDesk.Privacy.Mode
import CodeDesk.Run

namespace CodeDesk.Privacy

variable {env : Env} {m : Mac} {o : ℤ} {id : ConnId} {c : Conn}

/-! ### The system call -/

namespace Env

theorem macSetPrivacyMode_off (env : Env) (m : Mac) :
    (env.macSetPrivacyMode m false).1.active = false := by
  cases h : m.active <;> simp [macSetPrivacyMode, h]

theorem macSetPrivacyMode_on (env : Env) (m : Mac) :
    (env.macSetPrivacyMode m true).1.active = (env.macSetPrivacyMode m true).2 := by
  cases h : m.active <;> simp [macSetPrivacyMode, h]

theorem NeverFails.macSetPrivacyMode (h : env.NeverFails) (m : Mac) (on : Bool) :
    (env.macSetPrivacyMode m on).2 = true := by
  cases on <;> cases hm : m.active <;> simp [Env.macSetPrivacyMode, hm, h m.calls]

theorem eq_of_supported {implKey : String}
    (h : (getSupportedPrivacyModeImpl.any fun i => i.1 == implKey) = true) :
    implKey = privacyModeImpl := by
  obtain ⟨i, hi, hk⟩ := List.any_eq_true.1 h
  rw [List.mem_singleton.1 hi] at hk
  exact (beq_iff_eq.1 hk).symm

theorem fallbackImpl_eq (env : Env) : env.fallbackImpl = privacyModeImpl := by
  unfold fallbackImpl
  split_ifs with h
  · exact eq_of_supported h
  · rfl

theorem getSupportedImpl_eq (env : Env) (implKey : String) :
    env.getSupportedImpl implKey = privacyModeImpl := by
  unfold getSupportedImpl
  split_ifs with h
  · exact eq_of_supported h
  · exact env.fallbackImpl_eq

end Env

/-! ### The static -/

namespace Store

/-- The static with its one implementation: its owner, and the screen. -/
def held (o : ℤ) (m : Mac) : Store where
  privacyMode := some { implKey := privacyModeImpl, connId := o }
  mac := m

theorem init_eq (env : Env) : init env = held invalidPrivacyModeConnId {} := by
  rw [init, env.fallbackImpl_eq]
  rfl

@[simp] theorem held_getPrivacyModeConnId : (held o m).getPrivacyModeConnId = some o := rfl

@[simp] theorem held_isInPrivacyMode :
    (held o m).isInPrivacyMode = decide (o ≠ invalidPrivacyModeConnId) := rfl

@[simp] theorem held_mac : (held o m).mac = m := rfl

variable (implKey : String)

theorem turnOnPrivacy_owner :
    (held o m).turnOnPrivacy env implKey o = (held o m, some (.ok true)) := by
  simp [turnOnPrivacy, held, PrivacyModeImpl.checkOnConnId, env.getSupportedImpl_eq]

variable {i : ℤ}

theorem turnOnPrivacy_occupied (ho : o ≠ invalidPrivacyModeConnId) (hi : o ≠ i) :
    (held o m).turnOnPrivacy env implKey i = (held o m, some (.error .occupied)) := by
  simp [turnOnPrivacy, held, PrivacyModeImpl.checkOnConnId, hi, ho]

theorem turnOnPrivacy_free (hi : i ≠ invalidPrivacyModeConnId) :
    (held invalidPrivacyModeConnId m).turnOnPrivacy env implKey i =
      if (env.macSetPrivacyMode m true).2 then
        (held i (env.macSetPrivacyMode m true).1, some (.ok true))
      else (held invalidPrivacyModeConnId (env.macSetPrivacyMode m true).1,
          some (.error .failedToTurnOn)) := by
  rcases hr : env.macSetPrivacyMode m true with ⟨m', ok⟩
  cases ok <;> simp [turnOnPrivacy, held, PrivacyModeImpl.checkOnConnId, env.getSupportedImpl_eq,
      switchAndTurnOn, turnOnCurrent, PrivacyModeImpl.turnOnPrivacy, hi.symm, hr]

theorem turnOffPrivacy_other (ho : o ≠ invalidPrivacyModeConnId)
    (hi : i ≠ invalidPrivacyModeConnId) (hne : o ≠ i) :
    (held o m).turnOffPrivacy env i = (held o m, some (.error .turnOffOtherId)) := by
  simp [turnOffPrivacy, held, PrivacyModeImpl.turnOffPrivacy, PrivacyModeImpl.checkOffConnId, ho,
    hi, hne]

theorem turnOffPrivacy_let
    (h : o = invalidPrivacyModeConnId ∨ i = invalidPrivacyModeConnId ∨ o = i) :
    (held o m).turnOffPrivacy env i = if (env.macSetPrivacyMode m false).2 then
        (held invalidPrivacyModeConnId (env.macSetPrivacyMode m false).1, some (.ok ()))
      else (held o (env.macSetPrivacyMode m false).1, some (.error .failedToTurnOff)) := by
  have hlet : ¬ (o ≠ invalidPrivacyModeConnId ∧ i ≠ invalidPrivacyModeConnId ∧ o ≠ i) := by
    tauto
  rcases hr : env.macSetPrivacyMode m false with ⟨m', ok⟩
  cases ok <;>
    simp [turnOffPrivacy, held, PrivacyModeImpl.turnOffPrivacy, PrivacyModeImpl.checkOffConnId,
      hlet, hr]

end Store

/-! ### One section of one connection -/

/-- The screen is hidden for an owner and shown for none, as far as the system did what
it was asked for. -/
def Shown (env : Env) (o : ℤ) (m : Mac) : Prop :=
  env.NeverFails → m.active = decide (o ≠ invalidPrivacyModeConnId)

theorem ConnId.ne_invalid (id : ConnId) : id.1 ≠ invalidPrivacyModeConnId := Int.ne_of_gt id.2

/-- What a section of connection `id` can do: `o` and `m` are owner and screen before
it, `o'` and `m'` after it. -/
structure Moved (env : Env) (id : ConnId) (c : Conn) (o : ℤ) (m : Mac) (c' : Conn) (o' : ℤ)
    (m' : Mac) : Prop where
  /-- The owner stays, or there is none any more, or it is this connection in its main loop. -/
  owner : o' = o ∨ o' = invalidPrivacyModeConnId ∨ (o' = id ∧ c'.phase = .serving)
  /-- The connection does not go while it is the owner. -/
  ended : env.NeverFails → (c.phase = .ended → o ≠ id) → c'.phase = .ended → o' ≠ id
  shown : Shown env o m → Shown env o' m'

/-- A section that gives `r`. -/
def Moves (env : Env) (id : ConnId) (c : Conn) (o : ℤ) (m : Mac) (r : Conn × Store × List Out) :
    Prop :=
  ∃ o' m', r.2.1 = .held o' m' ∧ Moved env id c o m r.1 o' m'

theorem Moves.read {r : Conn × Store × List Out} (hst : r.2.1 = .held o m)
    (h : r.1.phase = .ended → c.phase = .ended ∨ o ≠ id) : Moves env id c o m r :=
  ⟨o, m, hst, .inl rfl, fun _ hc hc' => (h hc').elim hc fun h => h, fun h => h⟩

theorem Moves.failed {r : Conn × Store × List Out} {m' : Mac} (hst : r.2.1 = .held o m')
    (h : ¬ env.NeverFails) : Moves env id c o m r :=
  ⟨o, m', hst, .inl rfl, fun hn => absurd hn h, fun _ hn => absurd hn h⟩

theorem moves_turnOff {i : ℤ} {st : Store} {r : Option (Except Error Unit)} {c' : Conn}
    {out : List Out} (hi : i = id ∨ i = invalidPrivacyModeConnId)
    (hr : (Store.held o m).turnOffPrivacy env i = (st, r)) : Moves env id c o m (c', st, out) := by
  by_cases hlet : o = invalidPrivacyModeConnId ∨ i = invalidPrivacyModeConnId ∨ o = i
  · rw [Store.turnOffPrivacy_let hlet] at hr
    have hoff := env.macSetPrivacyMode_off m
    cases hok : (env.macSetPrivacyMode m false).2 with
    | true =>
      rw [if_pos hok] at hr
      cases hr
      refine ⟨_, _, rfl, .inr (.inl rfl), fun _ _ _ => id.ne_invalid.symm, fun _ _ => ?_⟩
      simpa using hoff
    | false =>
      rw [if_neg (by simp [hok])] at hr
      cases hr
      exact .failed rfl fun h => by simp [h.macSetPrivacyMode] at hok
  · have ⟨ho, hi0, hne⟩ : o ≠ invalidPrivacyModeConnId ∧ i ≠ invalidPrivacyModeConnId ∧ o ≠ i := by
      tauto
    rw [Store.turnOffPrivacy_other ho hi0 hne] at hr
    cases hr
    obtain rfl := hi.resolve_right hi0
    exact .read rfl fun _ => .inr hne

namespace Conn

def Permitted (c : Conn) : Prop := c.authedRemote = true ∧ c.privacyMode = true

instance (c : Conn) : Decidable c.Permitted := inferInstanceAs (Decidable (_ ∧ _))

theorem turnOnPrivacy_denied (h : ¬ c.Permitted) (st : Store) (implKey : String) :
    c.turnOnPrivacy env id st implKey =
      (c, st, [makePrivacyModeMsg .prvOnFailedDenied implKey]) := by
  have hdenied : (!c.authedRemote || !c.privacyMode) = true := by
    cases ha : c.authedRemote <;> cases hp : c.privacyMode <;> simp_all [Permitted]
  rw [turnOnPrivacy, if_pos hdenied]

theorem turnOnPrivacy_permitted (h : c.Permitted) (implKey : String) :
    c.turnOnPrivacy env id (.held o m) implKey =
      match (Store.held o m).turnOnPrivacy env implKey id with
      | (st, some (.ok true)) => (c, st, [makePrivacyModeMsg .prvOnSucceeded implKey])
      | (st, some (.ok false)) => (c, st, [makePrivacyModeMsg .prvOnFailedPlugin implKey])
      | (st, some (.error e)) => ({ c with phase := .refused implKey e }, st, [])
      | (st, none) =>
        (c, st, [makePrivacyModeMsgWithDetails .prvOffFailed "Not supported" implKey]) := by
  have hoff : offMsg (.held o m) = [] := by
    simp [offMsg, Store.getCurImplKey, Store.isCurrentPrivacyModeImpl, Store.held]
  have hsupported : isPrivacyModeSupported = true := by decide
  have hcheck : checkPrivacyModeErr.isEmpty = true := by decide
  simp only [turnOnPrivacy, h.1, h.2, hoff, hsupported, hcheck]
  rfl

theorem moves_turnOnPrivacy (hc : c.phase = .serving) (implKey : String) :
    Moves env id c o m (c.turnOnPrivacy env id (.held o m) implKey) := by
  by_cases hp : c.Permitted
  · rw [turnOnPrivacy_permitted hp]
    by_cases ho : o = invalidPrivacyModeConnId
    · subst ho
      rw [Store.turnOnPrivacy_free implKey id.ne_invalid]
      have hon := env.macSetPrivacyMode_on m
      cases hok : (env.macSetPrivacyMode m true).2 with
      | true =>
        refine ⟨_, _, rfl, .inr (.inr ⟨rfl, hc⟩), fun _ _ h => by simp [hc] at h, fun _ _ => ?_⟩
        simpa [hon, hok] using id.ne_invalid
      | false =>
        exact .failed rfl fun h => by simp [h.macSetPrivacyMode] at hok
    · by_cases hid : o = id
      · subst hid
        rw [Store.turnOnPrivacy_owner]
        exact .read rfl .inl
      · rw [Store.turnOnPrivacy_occupied implKey ho hid]
        exact .read rfl (nomatch ·)
  · rw [turnOnPrivacy_denied hp]
    exact .read rfl .inl

theorem moves_grant (b : Bool) : Moves env id c o m (c.grant (.held o m) b) := .read rfl (nomatch ·)

theorem moves_resume : Moves env id c o m (c.resume env id (.held o m)) := by
  unfold resume
  split
  · exact .read rfl .inl
  · exact .read rfl .inl
  · split <;> exact .read rfl (nomatch ·)
  · exact moves_turnOff (.inr rfl) rfl
  · split
    · exact .read rfl (nomatch ·)
    · exact moves_grant false
  · rcases hr : (Store.held o m).turnOffPrivacy env id with ⟨st, _ | _ | _⟩ <;>
      exact moves_turnOff (.inl rfl) hr
  · split_ifs with h
    · exact .read rfl (nomatch ·)
    · exact .read rfl fun _ => .inr fun ho => h (by rw [ho]; rfl)
  · exact moves_turnOff (.inl rfl) rfl

theorem moves_serve (hc : c.phase = .serving) (r : Request) :
    Moves env id c o m (c.serve env id (.held o m) r) := by
  cases r with
  | turnOn implKey => exact moves_turnOnPrivacy hc implKey
  | turnOff => exact moves_turnOff (.inl rfl) rfl
  | switchPermission enabled =>
    simp only [serve, switchPermission]
    split
    · exact .read rfl (nomatch ·)
    · exact moves_grant enabled
  | disconnect => exact .read rfl (nomatch ·)

theorem moves_step (env : Env) (id : ConnId) (c : Conn) (o : ℤ) (m : Mac) (e : Event) :
    Moves env id c o m (c.step env id (.held o m) e) := by
  cases e with
  | request r =>
    simp only [step]
    split_ifs with hc
    · exact moves_serve hc r
    · exact .read rfl .inl
  | resume => exact moves_resume

/-- The connection is about to turn privacy mode off in the name of nobody, because its
own turn-on has failed. -/
def Forcing (c : Conn) : Prop := ∃ implKey e, c.phase = .forcing implKey e

/-- A section of a connection that is not the owner reads and no more, but for the one
that turns privacy mode off in the name of nobody. -/
theorem step_other (env : Env) (m : Mac) (ho : o ≠ invalidPrivacyModeConnId) (hid : o ≠ id)
    {e : Event} (h : ¬ (e = .resume ∧ c.Forcing)) :
    (c.step env id (.held o m) e).2.1 = .held o m := by
  have hoff : (Store.held o m).turnOffPrivacy env id = (.held o m, some (.error .turnOffOtherId)) :=
    Store.turnOffPrivacy_other ho id.ne_invalid hid
  cases e with
  | request r =>
    simp only [step]
    split
    · cases r with
      | turnOn implKey =>
        simp only [serve]
        by_cases hp : c.Permitted
        · rw [turnOnPrivacy_permitted hp, Store.turnOnPrivacy_occupied implKey ho hid]
        · rw [turnOnPrivacy_denied hp]
      | turnOff =>
        simp only [serve, turnOffPrivacy, hoff]
        split <;> rfl
      | switchPermission =>
        simp only [serve, switchPermission]
        split <;> rfl
      | disconnect => rfl
    · rfl
  | resume =>
    simp only [step, resume]
    split
    · rfl
    · rfl
    · split <;> rfl
    · rename_i hphase
      exact absurd ⟨rfl, _, _, hphase⟩ h
    · split <;> rfl
    · rw [hoff]
    · split <;> rfl
    · rw [hoff]

theorem step_forcing (env : Env) (id : ConnId) {implKey : String} {e : Error}
    (hc : c.phase = .forcing implKey e) (st : Store) :
    c.step env id st .resume =
      ({ c with phase := .serving }, (st.turnOffPrivacy env invalidPrivacyModeConnId).1,
        [makePrivacyModeMsgWithDetails .prvOnFailed e.text implKey]) := by
  simp only [step, resume, hc]

end Conn

/-! ### Runs -/

namespace Host

variable {s : Host} {a b : ConnId}

@[simp] theorem put_store (st : Store) (c : Conn) : (s.put id st c).store = st := rfl

@[simp] theorem put_conns_self (st : Store) (c : Conn) : (s.put id st c).conns id = some c :=
  Function.update_self ..

@[simp] theorem put_put (st st' : Store) (c c' : Conn) :
    (s.put id st c).put id st' c' = s.put id st' c' := by
  simp [put]

theorem put_self (hc : s.conns id = some c) : s.put id s.store c = s := by
  simp [put, ← hc]

theorem step_none (hc : s.conns id = none) (e : Event) : s.step env (id, e) = s := by
  simp only [step, stepOut, hc]

theorem step_some (hc : s.conns id = some c) (e : Event) :
    s.step env (id, e) = s.put id (c.step env id s.store e).2.1 (c.step env id s.store e).1 := by
  simp only [step, stepOut, hc]

variable {st st' : Store} {c' : Conn} {e : Event} {sent : List Out}

theorem step_put (h : c.step env id st e = (c', st', sent)) :
    (s.put id st c).step env (id, e) = s.put id st' c' := by
  rw [step_some (put_conns_self st c), put_store, h, put_put]

theorem out_put (h : c.step env id st e = (c', st', sent)) :
    (s.put id st c).out env (id, e) = sent.map fun o => (id, o) := by
  simp only [out, stepOut, put_conns_self, put_store, h]

/-- What holds however the sections of the connections interleave. -/
structure Inv (env : Env) (s : Host) : Prop where
  held : ∃ m, s.store = .held s.owner m
  shown : Shown env s.owner s.store.mac
  /-- The owner is not gone. -/
  alive : env.NeverFails → ∀ a : ConnId, s.owner = a →
    ∃ c, s.conns a = some c ∧ c.phase ≠ .ended

theorem inv_start (env : Env) (peers : ConnId → Option Conn) : Inv env (start env peers) := by
  have howner : (start env peers).owner = invalidPrivacyModeConnId := by
    simp [start, owner, Store.init_eq]
  refine ⟨⟨{}, ?_⟩, fun _ => ?_, fun _ a ha => ?_⟩
  · rw [howner]
    exact Store.init_eq env
  · rw [howner]
    rfl
  · exact absurd (ha.symm.trans howner) a.ne_invalid

theorem Inv.step (h : Inv env s) (i : ConnId × Event) : Inv env (s.step env i) := by
  obtain ⟨id, e⟩ := i
  cases hc : s.conns id with
  | none => rwa [step_none hc]
  | some c =>
    obtain ⟨m, hst⟩ := h.held
    obtain ⟨o', m', hst', hmoved⟩ := Conn.moves_step env id c s.owner m e
    rw [← hst] at hst' hmoved
    have howner : (s.step env (id, e)).owner = o' := by
      rw [step_some hc, owner, put_store, hst']
      rfl
    refine ⟨⟨m', ?_⟩, ?_, fun hok a ha => ?_⟩
    · rw [howner, step_some hc, put_store, hst']
    · rw [howner, step_some hc, put_store, hst']
      refine hmoved.shown ?_
      have hshown := h.shown
      rwa [hst] at hshown
    · rw [howner] at ha
      have hgone : c.phase = .ended → s.owner ≠ id := by
        intro hended hid
        obtain ⟨c', hc', hne⟩ := h.alive hok id hid
        cases hc.symm.trans hc'
        exact hne hended
      rw [step_some hc]
      by_cases hid : a = id
      · subst hid
        exact ⟨_, put_conns_self .., fun hended => hmoved.ended hok hgone hended ha⟩
      · -- the owner is another connection, so this section has not made it the owner
        have hsame : s.owner = a := by
          rcases hmoved.owner with h' | h' | ⟨h', -⟩
          · rw [← h', ha]
          · exact absurd (ha.symm.trans h') a.ne_invalid
          · exact absurd (Subtype.ext (ha.symm.trans h')) hid
        obtain ⟨c', hc', hne⟩ := h.alive hok a hsame
        exact ⟨c', (Function.update_of_ne hid ..).trans hc', hne⟩

theorem inv_run (env : Env) (peers : ConnId → Option Conn) (is : List (ConnId × Event)) :
    Inv env (Run.run (step env) (start env peers) is) :=
  Run.inv_run (fun _ i h => h.step i) (inv_start env peers) is

/-! ### What other connections do to the owner -/

/-- The section leaves owner and screen as they are. -/
def Undisturbed (env : Env) (s : Host) (i : ConnId × Event) : Prop :=
  (s.step env i).owner = s.owner ∧ (s.step env i).hidden = s.hidden

/-- The connection is at the section that turns privacy mode off in the name of nobody. -/
def Forces (s : Host) (i : ConnId × Event) : Prop :=
  i.2 = .resume ∧ ∃ c, s.conns i.1 = some c ∧ c.Forcing

/-- Privacy mode turned off in the name of nobody takes the owner away, or shows the screen. -/
theorem Inv.disturbed (h : Inv env s) (ho : s.owner ≠ invalidPrivacyModeConnId) {t : Host}
    (ht : t.store = (s.store.turnOffPrivacy env invalidPrivacyModeConnId).1) :
    ¬ (t.owner = s.owner ∧ t.hidden = s.hidden) := by
  obtain ⟨m, hst⟩ := h.held
  rw [hst, Store.turnOffPrivacy_let (.inr (.inl rfl))] at ht
  rintro ⟨howner, hhidden⟩
  split_ifs at ht with hfailed
  · rw [owner, ht] at howner
    exact ho howner.symm
  · rw [hidden, hidden, ht, hst] at hhidden
    have hm : m.active = false := hhidden.symm.trans (env.macSetPrivacyMode_off m)
    simp [Env.macSetPrivacyMode, hm] at hfailed

theorem Inv.undisturbed_iff (h : Inv env s) (ha : s.owner = a) (hb : b ≠ a) (e : Event) :
    Undisturbed env s (b, e) ↔ ¬ s.Forces (b, e) := by
  obtain ⟨m, hst⟩ := h.held
  have ho : s.owner ≠ invalidPrivacyModeConnId := ha ▸ a.ne_invalid
  have hne : s.owner ≠ b := fun h => hb (Subtype.ext (h.symm.trans ha))
  cases hc : s.conns b with
  | none =>
    refine iff_of_true ?_ ?_
    · rw [Undisturbed, step_none hc]
      exact ⟨rfl, rfl⟩
    · rintro ⟨-, c, hc', -⟩
      simp [hc] at hc'
  | some c =>
    by_cases hf : e = .resume ∧ c.Forcing
    · obtain ⟨rfl, hf⟩ := hf
      refine iff_of_false ?_ fun h => h ⟨rfl, c, hc, hf⟩
      obtain ⟨implKey, err, hphase⟩ := hf
      refine h.disturbed ho ?_
      rw [step_some hc, Conn.step_forcing env b hphase, put_store]
    · refine iff_of_true ?_ ?_
      · have hsame := Conn.step_other env m ho hne hf
        rw [← hst] at hsame
        rw [Undisturbed, owner, hidden, step_some hc, put_store, hsame]
        exact ⟨rfl, rfl⟩
      · rintro ⟨he, c', hc', hforcing⟩
        cases hc.symm.trans hc'
        exact hf ⟨he, hforcing⟩

/-- The sections of a request of connection `b` to turn privacy mode on, with nobody in
between. -/
def turnOnRequest (b : ConnId) (implKey : String) : List (ConnId × Event) :=
  [(b, .request (.turnOn implKey)), (b, .resume), (b, .resume)]

def refusal (c : Conn) (implKey : String) : Out :=
  if c.Permitted then makePrivacyModeMsgWithDetails .prvOnFailed Error.occupied.text implKey
  else makePrivacyModeMsg .prvOnFailedDenied implKey

theorem turnOnRequest_denied (env : Env) (hp : ¬ c.Permitted) (hc : s.conns b = some c)
    (hserving : c.phase = .serving) (implKey : String) :
    Run.run (step env) s (turnOnRequest b implKey) = s ∧
      Run.trace (step env) (out env) s (turnOnRequest b implKey) = [(b, refusal c implKey)] := by
  have h1 : c.step env b s.store (.request (.turnOn implKey)) =
      (c, s.store, [makePrivacyModeMsg .prvOnFailedDenied implKey]) := by
    simp only [Conn.step, if_pos hserving, Conn.serve]
    exact Conn.turnOnPrivacy_denied hp s.store implKey
  have h2 : c.step env b s.store .resume = (c, s.store, []) := by
    simp only [Conn.step, Conn.resume, hserving]
  rw [← put_self hc, put_store] at *
  simp [turnOnRequest, Run.trace, step_put h1, out_put h1, step_put h2, out_put h2, refusal, hp]

theorem turnOnRequest_permitted (env : Env) (hp : c.Permitted) (hst : s.store = .held o m)
    (ho : o ≠ invalidPrivacyModeConnId) (hne : o ≠ b) (hc : s.conns b = some c)
    (hserving : c.phase = .serving) (implKey : String) :
    (Run.run (step env) s (turnOnRequest b implKey)).store =
        ((Store.held o m).turnOffPrivacy env invalidPrivacyModeConnId).1 ∧
      Run.trace (step env) (out env) s (turnOnRequest b implKey) = [(b, refusal c implKey)] := by
  have h1 : c.step env b (.held o m) (.request (.turnOn implKey)) =
      ({ c with phase := .refused implKey .occupied }, .held o m, []) := by
    simp only [Conn.step, if_pos hserving, Conn.serve]
    rw [Conn.turnOnPrivacy_permitted hp, Store.turnOnPrivacy_occupied implKey ho hne]
  have h2 : ({ c with phase := .refused implKey .occupied } : Conn).step env b (.held o m) .resume =
      ({ c with phase := .forcing implKey .occupied }, .held o m, []) :=
    by simp [Conn.step, Conn.resume, ho]
  have h3 : ({ c with phase := .forcing implKey .occupied } : Conn).step env b (.held o m) .resume =
      ({ c with phase := .serving },
        ((Store.held o m).turnOffPrivacy env invalidPrivacyModeConnId).1,
        [makePrivacyModeMsgWithDetails .prvOnFailed Error.occupied.text implKey]) :=
    Conn.step_forcing env b rfl _
  rw [← put_self hc, hst]
  simp only [turnOnRequest, Run.run_cons, Run.run_nil, Run.trace, step_put h1, out_put h1,
    step_put h2, out_put h2, step_put h3, out_put h3]
  exact ⟨rfl, by simp [refusal, hp]⟩

/-- A connection that is not the owner asks for privacy mode. It is told that this has
failed; owner and screen stay as they are exactly if it may not ask. -/
theorem Inv.turnOnRequest (h : Inv env s) (ha : s.owner = a) (hb : b ≠ a)
    (hc : s.conns b = some c) (hserving : c.phase = .serving) (implKey : String) :
    Run.trace (Host.step env) (out env) s (turnOnRequest b implKey) = [(b, refusal c implKey)] ∧
      ((Run.run (Host.step env) s (turnOnRequest b implKey)).owner = s.owner ∧
          (Run.run (Host.step env) s (turnOnRequest b implKey)).hidden = s.hidden ↔
        ¬ c.Permitted) := by
  by_cases hp : c.Permitted
  · obtain ⟨m, hst⟩ := h.held
    have ho : s.owner ≠ invalidPrivacyModeConnId := ha ▸ a.ne_invalid
    have hne : s.owner ≠ b := fun h => hb (Subtype.ext (h.symm.trans ha))
    obtain ⟨hrun, htrace⟩ := turnOnRequest_permitted env hp hst ho hne hc hserving implKey
    rw [← hst] at hrun
    exact ⟨htrace, iff_of_false (h.disturbed ho hrun) fun h => h hp⟩
  · obtain ⟨hrun, htrace⟩ := turnOnRequest_denied env hp hc hserving implKey
    rw [hrun]
    exact ⟨htrace, iff_of_true ⟨rfl, rfl⟩ hp⟩

/-- While `a` owns privacy mode: a section of another connection leaves owner
and screen alone exactly when it does not turn privacy mode off in the name of
nobody; another connection's turn-on request fails, and leaves them alone
exactly when the connection may not ask; and if no system call fails, `a` is
not gone and the screen is hidden. -/
theorem ownership_iff (env : Env) (peers : ConnId → Option Conn) (is : List (ConnId × Event))
    (a : ConnId) (ha : (Run.run (step env) (start env peers) is).owner = a) :
    let s := Run.run (step env) (start env peers) is
    (∀ b ≠ a, ∀ e, Undisturbed env s (b, e) ↔ ¬ s.Forces (b, e)) ∧
    (∀ b ≠ a, ∀ c implKey, s.conns b = some c → c.phase = .serving →
      Run.trace (step env) (out env) s (turnOnRequest b implKey) = [(b, refusal c implKey)] ∧
        ((Run.run (step env) s (turnOnRequest b implKey)).owner = s.owner ∧
            (Run.run (step env) s (turnOnRequest b implKey)).hidden = s.hidden ↔
          ¬ c.Permitted)) ∧
    (env.NeverFails → s.hidden = true ∧ ∃ c, s.conns a = some c ∧ c.phase ≠ .ended) := by
  have h := inv_run env peers is
  refine ⟨fun b hb e => h.undisturbed_iff ha hb e,
    fun b hb c implKey hc hserving => h.turnOnRequest ha hb hc hserving implKey,
    fun hok => ⟨?_, h.alive hok a ha⟩⟩
  have hshown := h.shown hok
  rw [ha] at hshown
  simpa [hidden, a.ne_invalid] using hshown

def twoPeers (id : ConnId) : Option Conn :=
  if id.1 ∈ [1001, 1002] then some { authedRemote := true, privacyMode := true } else none

theorem ownership_iff_twoPeers : let env : Env := { sys := fun _ => true }
    let s := Run.run (step env) (start env twoPeers)
      [(⟨1001, by decide⟩, .request (.turnOn privacyModeImpl))]
    s.owner = 1001 ∧ s.hidden = true ∧
      Undisturbed env s (⟨1002, by decide⟩, .request (.turnOff privacyModeImpl)) := by
  have h := ownership_iff { sys := fun _ => true } twoPeers
    [(⟨1001, by decide⟩, .request (.turnOn privacyModeImpl))] ⟨1001, by decide⟩ rfl
  exact ⟨rfl, (h.2.2 fun _ => rfl).1, (h.1 ⟨1002, by decide⟩ (by decide) _).2 (nomatch ·.1)⟩

/-- Connection 1001 owns privacy mode and no system call fails. Connection 1002 asks for
it, is told that it is occupied, and thereby shows the screen. -/
theorem occupied_shows_screen : let env : Env := { sys := fun _ => true }
    let s := Run.run (step env) (start env twoPeers)
      [(⟨1001, by decide⟩, .request (.turnOn privacyModeImpl))]
    let t := Run.run (step env) s (turnOnRequest ⟨1002, by decide⟩ privacyModeImpl)
    s.owner = 1001 ∧ s.hidden = true ∧
      Run.trace (step env) (out env) s (turnOnRequest ⟨1002, by decide⟩ privacyModeImpl) =
        [(⟨1002, by decide⟩, makePrivacyModeMsgWithDetails .prvOnFailed
          "Privacy occupied by another one." privacyModeImpl)] ∧
      t.owner = invalidPrivacyModeConnId ∧ t.hidden = false := by
  decide

theorem owner_nonneg_step (h : Inv env s) (ho : 0 ≤ s.owner) (i : ConnId × Event) :
    0 ≤ (s.step env i).owner := by
  obtain ⟨id, e⟩ := i
  cases hc : s.conns id with
  | none => rwa [step_none hc]
  | some c =>
    obtain ⟨m, hst⟩ := h.held
    obtain ⟨o', m', hst', hmoved⟩ := Conn.moves_step env id c s.owner m e
    rw [← hst] at hst'
    rw [step_some hc, owner, put_store, hst']
    rcases hmoved.owner with rfl | rfl | ⟨rfl, -⟩
    · exact ho
    · exact Int.le_refl 0
    · exact Int.le_of_lt id.2

/-- **The screen comes back.** If no system call fails: however the requests of the connections
interleave, the screen is hidden only for a connection that is not over yet. -/
theorem hidden_for_live_owner {env : Env} (hok : env.NeverFails) (peers : ConnId → Option Conn)
    (is : List (ConnId × Event)) :
    let s := Run.run (step env) (start env peers) is
    s.hidden = true → ∃ a : ConnId, s.owner = a ∧ ∃ c, s.conns a = some c ∧ c.phase ≠ .ended := by
  intro s hs
  obtain ⟨h, ho⟩ := Run.inv_run (I := fun s => Inv env s ∧ 0 ≤ s.owner)
    (fun _ i h => ⟨h.1.step i, owner_nonneg_step h.1 h.2 i⟩)
    ⟨inv_start env peers, by simp [start, owner, Store.init_eq, invalidPrivacyModeConnId]⟩ is
  have hne : s.owner ≠ invalidPrivacyModeConnId := of_decide_eq_true ((h.shown hok).symm.trans hs)
  exact ⟨⟨s.owner, Int.lt_iff_le_and_ne.2 ⟨ho, hne.symm⟩⟩, rfl, h.alive hok _ rfl⟩

theorem hidden_for_first :
    let s := Run.run (step { sys := fun _ => true }) (start { sys := fun _ => true } twoPeers)
      [(⟨1001, by decide⟩, .request (.turnOn privacyModeImpl))]
    ∃ a : ConnId, s.owner = a ∧ ∃ c, s.conns a = some c ∧ c.phase ≠ .ended :=
  hidden_for_live_owner (fun _ => rfl) twoPeers _ (by decide)

end Host

end CodeDesk.Privacy
