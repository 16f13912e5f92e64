/-
# The temporary password and its wrong answers

`check_update_temporary_password` of `src/server/connection.rs` counts the
wrong answers to the current temporary password and draws a new one at the
tenth. The count starts again when the temporary password itself is answered
and when it has another value than at the last count; a login with the
permanent password leaves it alone.

An answer is also compared with the temporary password that a live session
was started with, and that comparison is made before the address is asked for
its wrong attempts and is not counted by itself: a refused address can go on
guessing (`Rotation.uncounted_guesses`). Where this does not happen and no
value is drawn twice, at most ten wrong answers are compared with one value
before a right one (`Rotation.at_most_ten_wrong`).
-/
import Mathlib.Data.List.Dedup
import CodeDesk.Conn.Throttle

namespace CodeDesk.Conn

structure TemporaryPasswordFailures where
  password : String := ""
  failures : ℕ := 0

/-- The connections, the temporary password and the count of its wrong
answers. History: the earlier values, and for each value the wrong answers
compared with it and the right ones, newest first. -/
structure Rotation where
  world : World
  temporaryPassword : String
  state : TemporaryPasswordFailures := {}
  past : List String := []
  log : List (Tally.Entry String Unit) := []

namespace Rotation

def updateTemporaryPassword (fresh : String) (r : Rotation) : Rotation :=
  { r with temporaryPassword := fresh, past := r.temporaryPassword :: r.past }

/-- `fresh` is what `get_auto_password` would draw now. -/
def checkUpdateTemporaryPassword (fresh : String) (success : Bool) (r : Rotation) : Rotation :=
  if r.temporaryPassword = "" then r
  else
    let state :=
      if r.state.password ≠ r.temporaryPassword then ⟨r.temporaryPassword, 0⟩ else r.state
    if success then { r with state := { state with failures := 0 } }
    else if state.failures + 1 < 10 then
      { r with state := { state with failures := state.failures + 1 } }
    else
      { r.updateTemporaryPassword fresh with state := ⟨fresh, 0⟩ }

def asked (a : World.Attempt) (r : Rotation) : World.Attempt :=
  { a with env := { a.env with
      temporaryEnabled := true, temporaryPassword := r.temporaryPassword } }

def sessionPassword (a : World.Attempt) (r : Rotation) : String :=
  match (r.world.conns a.conn).tables.sessions ⟨a.lr.myId, a.lr.myName, a.lr.sessionId⟩ with
  | some s => s.randomPassword
  | none => ""

section Step

variable (net : Net) (h : Host) (ip : ℕ → IpAddr)

def checks (a : World.Attempt) (r : Rotation) : List Check :=
  (r.world.conns a.conn).checks h (r.world.answers net ip (r.asked a)) a.lr

/-- The request answers the temporary password, not the permanent one. -/
def presented (a : World.Attempt) (r : Rotation) : Bool :=
  r.temporaryPassword ≠ "" && a.lr.password = h.passwordHash r.temporaryPassword

/-- What an attempt tells of the values it was compared with. An answer that
is right for one of them, or for the permanent password, is not a wrong one;
an empty value is compared with nothing. -/
def verdicts (a : World.Attempt) (r : Rotation) : List (Tally.Entry String Unit) :=
  let checks := r.checks net h ip a
  match checks.getLast? with
  | some (.password false) =>
    let session := if .recentSession false ∈ checks then [r.sessionPassword a] else []
    ((session ++ [r.temporaryPassword]).dedup.filter (· ≠ "")).map (.hit · ())
  | some (.password true) => if r.presented h a then [.reset r.temporaryPassword] else []
  | some (.recentSession true) => [.reset (r.sessionPassword a)]
  -- the address is refused
  | some (.recentSession false) => [.hit (r.sessionPassword a) ()]
  | _ => []

/-- The calls of `check_update_temporary_password`: from `validate_password`
if the temporary password matched, and after it if nothing did. -/
def reported (a : World.Attempt) (r : Rotation) : Option Bool :=
  match (r.checks net h ip a).getLast? with
  | some (.password false) => some false
  | some (.password true) => if r.presented h a then some true else none
  | _ => none

def attempt (a : World.Attempt) (fresh : String) (r : Rotation) : Rotation :=
  let r' : Rotation :=
    { r with
      world := r.world.attempt net h ip (r.asked a)
      log := r.verdicts net h ip a ++ r.log }
  match r.reported net h ip a with
  | some success => r'.checkUpdateTemporaryPassword fresh success
  | none => r'

inductive Event where
  | attempt (a : World.Attempt) (fresh : String)
  /-- From the user interface, or at the end of a connection. -/
  | update (fresh : String)
  /-- Any other input of a connection. -/
  | other (conn : ℕ) (env : Env) (i : Connection.Input)
      (noLogin : ∀ lr, i ≠ .message (.loginRequest lr))

def step (r : Rotation) : Event → Rotation
  | .attempt a fresh => r.attempt net h ip a fresh
  | .update fresh => r.updateTemporaryPassword fresh
  | .other conn env i noLogin =>
    { r with world := r.world.step net h ip (.other conn env i noLogin) }

/-- A wrong answer meets the password of a session only where that is the
present temporary password and the answer is compared with it too. -/
def SessionWatched (r : Rotation) : Event → Prop
  | .attempt a _ =>
    match (r.checks net h ip a).getLast? with
    | some (.password false) =>
      .recentSession false ∈ r.checks net h ip a → r.sessionPassword a = r.temporaryPassword
    | some (.recentSession false) => False
    | _ => True
  | _ => True

instance (r : Rotation) (e : Event) : Decidable (SessionWatched net h ip r e) := by
  unfold SessionWatched
  split
  · split <;> infer_instance
  · infer_instance

def Fresh (r r' : Rotation) : Prop := r'.past = r.past ∨ r'.temporaryPassword ∉ r'.past

instance (r r' : Rotation) : Decidable (Fresh r r') := inferInstanceAs (Decidable (_ ∨ _))

def Watched (r : Rotation) (e : Event) : Prop :=
  SessionWatched net h ip r e ∧ Fresh r (r.step net h ip e)

instance (r : Rotation) (e : Event) : Decidable (Watched net h ip r e) :=
  inferInstanceAs (Decidable (_ ∧ _))

end Step

/-! ### The count -/

/-- The wrong answers compared with `v` since the last right one. -/
def wrongAnswers (v : String) (r : Rotation) : ℕ := (Tally.hits (· = v) r.log).length

/-- The count is at least the number of wrong answers, and below ten. -/
structure Counted (r : Rotation) : Prop where
  failures : r.state.failures < 10
  current : r.wrongAnswers r.temporaryPassword ≤
    if r.state.password = r.temporaryPassword then r.state.failures else 0
  all : ∀ v, r.wrongAnswers v ≤ 10
  unseen : ∀ v, v ≠ r.temporaryPassword → v ∉ r.past → r.wrongAnswers v = 0

variable {net : Net} {h : Host} {ip : ℕ → IpAddr} {r : Rotation}

theorem wrongAnswers_hit (v w : String) :
    ({ r with log := .hit w () :: r.log } : Rotation).wrongAnswers v =
      if w = v then r.wrongAnswers v + 1 else r.wrongAnswers v := by
  simp only [wrongAnswers, Tally.hits]
  split <;> rfl

theorem wrongAnswers_reset (v w : String) :
    ({ r with log := .reset w :: r.log } : Rotation).wrongAnswers v =
      if w = v then 0 else r.wrongAnswers v := by
  simp only [wrongAnswers, Tally.hits]
  split <;> rfl

theorem Counted.reset (hc : Counted r) (w : String) :
    Counted { r with log := .reset w :: r.log } := by
  have hle : ∀ v, ({ r with log := .reset w :: r.log } : Rotation).wrongAnswers v ≤
      r.wrongAnswers v := by
    intro v
    rw [wrongAnswers_reset]
    split
    · exact Nat.zero_le _
    · exact Nat.le_refl _
  refine ⟨hc.failures, (hle _).trans hc.current, fun v => (hle v).trans (hc.all v), ?_⟩
  intro v hv hp
  exact Nat.le_zero.1 ((hle v).trans (hc.unseen v hv hp).le)

variable {fresh : String} {s : TemporaryPasswordFailures}

theorem counted_update (hs : s.failures < 10) (hall : ∀ v, r.wrongAnswers v ≤ 10)
    (hunseen : ∀ v, v ≠ r.temporaryPassword → v ∉ r.past → r.wrongAnswers v = 0)
    (hf : Fresh r (r.updateTemporaryPassword fresh)) :
    Counted { r.updateTemporaryPassword fresh with state := s } := by
  have hnone : ∀ v, v ∉ r.temporaryPassword :: r.past → r.wrongAnswers v = 0 := fun v hv =>
    hunseen v (List.ne_of_not_mem_cons hv) (List.not_mem_of_not_mem_cons hv)
  have hfresh := hnone fresh (hf.resolve_left (List.cons_ne_self _ _))
  exact ⟨hs, hfresh.le.trans (Nat.zero_le _), hall, fun v _ hv => hnone v hv⟩

theorem Counted.right (hc : Counted r) (fresh : String) :
    Counted (checkUpdateTemporaryPassword fresh true
      { r with log := .reset r.temporaryPassword :: r.log }) := by
  have hr := hc.reset r.temporaryPassword
  unfold checkUpdateTemporaryPassword
  split
  · exact hr
  · refine ⟨Nat.zero_lt_succ _, ?_, hr.all, hr.unseen⟩
    have hz : ({ r with log := .reset r.temporaryPassword :: r.log } : Rotation).wrongAnswers
        r.temporaryPassword = 0 := by rw [wrongAnswers_reset, if_pos rfl]
    exact hz.le.trans (Nat.zero_le _)

/-- One more wrong answer to the present value: its number is still at most ten,
and no value that was not there before has one. -/
theorem Counted.hit (hc : Counted r) :
    (∀ v, ({ r with log := .hit r.temporaryPassword () :: r.log } : Rotation).wrongAnswers v ≤ 10) ∧
    ∀ v, v ≠ r.temporaryPassword → v ∉ r.past →
      ({ r with log := .hit r.temporaryPassword () :: r.log } : Rotation).wrongAnswers v = 0 := by
  have hfailures := hc.failures
  have hcurrent := hc.current
  refine ⟨fun v => ?_, fun v hv hp => ?_⟩
  · rw [wrongAnswers_hit]
    split_ifs with he
    · rw [← he]
      split at hcurrent <;> omega
    · exact hc.all v
  · rw [wrongAnswers_hit, if_neg hv.symm]
    exact hc.unseen v hv hp

theorem Counted.compared (hc : Counted r) (hs : (if r.state.password ≠ r.temporaryPassword then
      (⟨r.temporaryPassword, 0⟩ : TemporaryPasswordFailures) else r.state) = s) :
    s.password = r.temporaryPassword ∧ r.wrongAnswers r.temporaryPassword ≤ s.failures := by
  have hcurrent := hc.current
  rw [← hs]
  by_cases hp : r.state.password = r.temporaryPassword
  · rw [if_neg (not_not.2 hp)]
    rw [if_pos hp] at hcurrent
    exact ⟨hp, hcurrent⟩
  · rw [if_pos hp]
    rw [if_neg hp] at hcurrent
    exact ⟨rfl, hcurrent⟩

theorem Counted.wrong (hc : Counted r) (hne : r.temporaryPassword ≠ "")
    (hf : Fresh r (checkUpdateTemporaryPassword fresh false
      { r with log := .hit r.temporaryPassword () :: r.log })) :
    Counted (checkUpdateTemporaryPassword fresh false
      { r with log := .hit r.temporaryPassword () :: r.log }) := by
  obtain ⟨hall, hunseen⟩ := hc.hit
  unfold checkUpdateTemporaryPassword at hf ⊢
  rw [if_neg hne, if_neg Bool.false_ne_true] at hf ⊢
  generalize hs : (if r.state.password ≠ r.temporaryPassword then
    (⟨r.temporaryPassword, 0⟩ : TemporaryPasswordFailures) else r.state) = s at hf ⊢
  obtain ⟨hpassword, hle⟩ := hc.compared hs
  by_cases hten : s.failures + 1 < 10
  · rw [if_pos hten]
    refine ⟨hten, ?_, hall, hunseen⟩
    have hself : ({ r with log := .hit r.temporaryPassword () :: r.log } : Rotation).wrongAnswers
        r.temporaryPassword = r.wrongAnswers r.temporaryPassword + 1 := by
      rw [wrongAnswers_hit, if_pos rfl]
    rw [if_pos hpassword]
    exact hself.le.trans (Nat.succ_le_succ hle)
  · rw [if_neg hten] at hf ⊢
    exact counted_update (Nat.zero_lt_succ _) hall hunseen hf

/-! ### Runs -/

theorem verdicts_wrong {a : World.Attempt}
    (hl : (r.checks net h ip a).getLast? = some (.password false))
    (hw : SessionWatched net h ip r (.attempt a fresh)) :
    r.verdicts net h ip a =
      if r.temporaryPassword = "" then [] else [.hit r.temporaryPassword ()] := by
  have hw : .recentSession false ∈ r.checks net h ip a →
      r.sessionPassword a = r.temporaryPassword := by
    simpa only [SessionWatched, hl] using hw
  have hvalues : ∀ l : List String, l = [] ∨ l = [r.temporaryPassword] →
      (l ++ [r.temporaryPassword]).dedup = [r.temporaryPassword] := by
    rintro l (rfl | rfl)
    · exact (List.nodup_singleton _).dedup
    · rw [List.singleton_append, List.dedup_cons_of_mem (List.mem_singleton_self _)]
      exact (List.nodup_singleton _).dedup
  simp only [verdicts, hl]
  rw [hvalues]
  · by_cases he : r.temporaryPassword = "" <;> simp [he]
  by_cases hs : .recentSession false ∈ r.checks net h ip a
  · rw [if_pos hs, hw hs]
    exact .inr rfl
  · rw [if_neg hs]
    exact .inl rfl

theorem counted_attempt (hc : Counted r) (a : World.Attempt) (fresh : String)
    (hw : Watched net h ip r (.attempt a fresh)) : Counted (r.attempt net h ip a fresh) := by
  obtain ⟨hs, hf⟩ := hw
  change Fresh r (r.attempt net h ip a fresh) at hf
  -- what is counted does not look at the connections
  let r₁ : Rotation := { r with world := r.world.attempt net h ip (r.asked a) }
  have hc₁ : Counted r₁ := { hc with }
  have hquiet : r.verdicts net h ip a = [] → r.reported net h ip a = none →
      Counted (r.attempt net h ip a fresh) := by
    intro hv hr
    simp only [attempt, hv, hr]
    exact hc₁
  rcases hl : (r.checks net h ip a).getLast? with _ | (m | m | _)
  · exact hquiet (by simp only [verdicts, hl]) (by simp only [reported, hl])
  · cases m with
    | false => simp only [SessionWatched, hl] at hs
    | true =>
      have hv : r.verdicts net h ip a = [.reset (r.sessionPassword a)] := by
        simp only [verdicts, hl]
      have hr : r.reported net h ip a = none := by simp only [reported, hl]
      simp only [attempt, hv, hr]
      exact hc₁.reset _
  · cases m with
    | false =>
      have hv := verdicts_wrong hl hs
      have hr : r.reported net h ip a = some false := by simp only [reported, hl]
      simp only [attempt, hv, hr] at hf ⊢
      by_cases he : r.temporaryPassword = ""
      · rw [if_pos he, checkUpdateTemporaryPassword, if_pos he]
        exact hc₁
      · rw [if_neg he] at hf ⊢
        exact hc₁.wrong he hf
    | true =>
      by_cases hp : r.presented h a = true
      · have hv : r.verdicts net h ip a = [.reset r.temporaryPassword] := by
          simp [verdicts, hl, hp]
        have hr : r.reported net h ip a = some true := by simp [reported, hl, hp]
        simp only [attempt, hv, hr]
        exact hc₁.right fresh
      · exact hquiet (by simp only [verdicts, hl, hp]; rfl) (by simp only [reported, hl, hp]; rfl)
  · exact hquiet (by simp only [verdicts, hl]) (by simp only [reported, hl])

theorem counted_step (hc : Counted r) (e : Event) (hw : Watched net h ip r e) :
    Counted (r.step net h ip e) := by
  cases e with
  | attempt a fresh => exact counted_attempt hc a fresh hw
  | update => exact counted_update hc.failures hc.all hc.unseen hw.2
  | other => exact { hc with }

/-- **Ten wrong answers.** Whenever the temporary password is updated from
outside: if no new value is an earlier one, and a wrong answer is compared
with the password of a session only where it is one to the present temporary
password as well, then at most ten wrong answers have been compared with a
value since the last right one. -/
theorem at_most_ten_wrong (net : Net) (h : Host) (ip : ℕ → IpAddr) (conns : ℕ → Connection)
    (clock : ℕ) (temporaryPassword : String) (es : List Event)
    (hw : Run.Meets (step net h ip) (Watched net h ip)
      { world := { conns := conns, clock := clock }, temporaryPassword := temporaryPassword } es)
    (v : String) :
    (Run.run (step net h ip)
      { world := { conns := conns, clock := clock }, temporaryPassword := temporaryPassword }
      es).wrongAnswers v ≤ 10 := by
  have h₀ : Counted { world := { conns := conns, clock := clock },
                      temporaryPassword := temporaryPassword } :=
    ⟨Nat.zero_lt_succ _, Nat.zero_le _, fun _ => Nat.zero_le _, fun _ _ _ => rfl⟩
  have hc := Run.inv_run_of_meets (I := Counted) (fun r e _ hc hw => counted_step hc e hw) h₀ hw
  exact hc.all v

def desk : Rotation where
  world := { conns := fun _ => .start .desktop {} none false [] {}, clock := 6000000 }
  temporaryPassword := "k7m2xq"

/-- An answer of the peer "peer" on connection `conn`, `wait` milliseconds
after the one before. -/
def answer (conn wait : ℕ) (password : String) (fresh : String) : Event :=
  .attempt { conn := conn
             lr := { username := "host", myId := "peer"
                     password := Host.desktop.passwordHash password }
             env := {}, wait := wait, desktop := 0 } fresh

theorem at_most_ten_wrong_guesses : let es := List.replicate 11 (answer 0 20000 "guess" "w9d4ht")
    let r := Run.run (step .decimal .desktop fun _ => .v4 1) desk es
    Run.Meets (step .decimal .desktop fun _ => .v4 1) (Watched .decimal .desktop fun _ => .v4 1)
        desk es ∧
      r.wrongAnswers "k7m2xq" = 10 ∧ r.wrongAnswers "k7m2xq" ≤ 10 ∧ r.wrongAnswers "w9d4ht" = 1 := by
  intro es r
  have hm : Run.Meets (step .decimal .desktop fun _ => .v4 1)
      (Watched .decimal .desktop fun _ => .v4 1) desk es := by decide +kernel
  have hten := at_most_ten_wrong .decimal .desktop (fun _ => .v4 1) desk.world.conns
    desk.world.clock desk.temporaryPassword es hm "k7m2xq"
  have hcount : r.wrongAnswers "k7m2xq" = 10 ∧ r.wrongAnswers "w9d4ht" = 1 := by decide +kernel
  exact ⟨hm, hcount.1, hten, hcount.2⟩

def sessionShared (conn : ℕ) : Event :=
  .other conn {} (.shared { sessions := fun key =>
    if key = ⟨"peer", "", 0⟩ then some ⟨"k7m2xq", false⟩ else none }) (by simp)

/-- **A refused address goes on guessing.** The peer logs in with the
temporary password; its session is then known to connection 1 too. Of eleven
wrong answers for that session within a minute seven are counted, then the
address is refused; but all are compared with the password of the session, the
present temporary password. -/
theorem uncounted_guesses :
    let es := answer 0 1000 "k7m2xq" "w9d4ht" :: sessionShared 1 ::
      List.replicate 11 (answer 1 1000 "guess" "w9d4ht")
    let r := Run.run (step .decimal .desktop fun _ => .v4 1) desk es
    (r.world.conns 0).tables.sessions ⟨"peer", "", 0⟩ = some ⟨"k7m2xq", false⟩ ∧
      r.temporaryPassword = "k7m2xq" ∧ r.state.failures = 7 ∧ r.wrongAnswers "k7m2xq" = 11 := by
  decide +kernel

end Rotation
end CodeDesk.Conn
