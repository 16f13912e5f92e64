/-
# Login attempts are limited

Any number of connections log in, one request after the other, against the one
table of wrong attempts. The table counts what it should
(`World.Kept.tracks`), so an address has at most 31 wrong attempts and at most
7 within a minute before a success clears its entry, and a prefix 61, 81 or
101. A refused address has no password verified. But a password is compared
with that of a live session before the table is asked
(`World.blocked_peer_reconnects`); where no such comparison takes place, a
refused request neither has its password compared nor becomes authorized
(`World.logins_throttled`).
-/
import CodeDesk.Run
import CodeDesk.Tally
import CodeDesk.Conn.Failures
import CodeDesk.Conn.Requests

namespace CodeDesk.Conn

inductive Check where
  | recentSession (matched : Bool)
  | password (matched : Bool)
  /-- The password of the operating system was wrong (headless Linux). -/
  | desktop
  deriving DecidableEq, Repr

def Check.comparesPassword : Check → Bool
  | .recentSession _ => true
  | .password _ => true
  | .desktop => false

/-! ### The checks of one request

They follow `Connection.loginRequest` and its parts. -/

namespace Connection

variable (h : Host) (env : Env)

def comparesSession (c : Connection) : Bool :=
  match c.tables.sessions c.gate.sessionKey with
  | some s => c.gate.lr.password ≠ [] && s.randomPassword ≠ ""
  | none => false

def passwordChecks (c : Connection) : List Check :=
  match env.passwordBlock with
  | some _ => []
  | none => [.password (c.validatePassword h env).2]

def authenticateChecks (lr : LoginRequest) (c : Connection) : List Check :=
  if clickOnly env then []
  else
    let session := if c.comparesSession then [.recentSession (c.isRecentSession h false).2] else []
    if (c.isRecentSession h false).2 || lr.password = [] then session
    else session ++ c.passwordChecks h env

def desktopChecks (lr : LoginRequest) (c : Connection) : List Check :=
  if h.linux && env.isHeadlessAllowed && !blank lr.osUsername && env.desktopUsername = "" &&
      env.headlessBlock.isSome then []
  else
    let errMsg := if h.linux then env.desktopErr else ""
    if errMsg ≠ "" && errMsg ≠ "Desktop session not ready" then
      if env.desktopBlock.isNone && env.isHeadlessAllowed && !blank lr.osUsername &&
          errMsg = "Wrong Password" then [.desktop]
      else []
    else c.authenticateChecks h env lr

def loginChecks (lr : LoginRequest) (c : Connection) : List Check :=
  let c := (c.handleLoginRequestWithoutValidation env lr).resetSessionScopeForLogin
  match c.loginScope h env lr with
  | (_, false) => []
  | (c, true) =>
    if !h.isDirectIpAccess lr.username && lr.username ≠ h.id then []
    else if h.windows && c.gate.terminal && blank lr.osUsername && env.isPrelogin then []
    else c.desktopChecks h env lr

/-- A connection that is running and not authorized looks at login requests. -/
def checks (lr : LoginRequest) (c : Connection) : List Check :=
  if c.phase = .running && !c.gate.authorized then c.loginChecks h env lr else []

theorem loginScope_frame (lr : LoginRequest) (c : Connection) :
    (c.loginScope h env lr).1.gate.lr = c.gate.lr ∧ (c.loginScope h env lr).1.tables = c.tables ∧
      (c.loginScope h env lr).1.gate.authorized = c.gate.authorized := by
  unfold loginScope
  dsimp only
  repeat' split
  all_goals exact ⟨rfl, rfl, rfl⟩

theorem startDesktop_stage (lr : LoginRequest) (b : Connection) :
    ((b.startDesktop h env lr).1.gate.authorized = b.gate.authorized ∧
      (b.desktopChecks h env lr = [] ∨
        (b.desktopChecks h env lr = [.desktop] ∧ env.desktopBlock = none))) ∨
    ∃ errMsg, b.startDesktop h env lr = b.authenticate h env errMsg lr ∧
      b.desktopChecks h env lr = b.authenticateChecks h env lr := by
  unfold startDesktop desktopChecks
  by_cases hh : (h.linux && env.isHeadlessAllowed && !blank lr.osUsername &&
      env.desktopUsername = "" && env.headlessBlock.isSome) = true
  · rw [if_pos hh, if_pos hh]
    exact .inl ⟨rfl, .inl rfl⟩
  rw [if_neg hh, if_neg hh]
  generalize (if h.linux = true then env.desktopErr else "") = errMsg
  by_cases he : (errMsg ≠ "" && errMsg ≠ "Desktop session not ready") = true
  · rw [if_pos he, if_pos he]
    refine .inl ⟨?_, ?_⟩
    · split
      · split <;> rfl
      · rfl
    · split_ifs with hd
      · simp only [Bool.and_eq_true, Option.isNone_iff_eq_none] at hd
        exact .inr ⟨rfl, hd.1.1.1⟩
      · exact .inl rfl
  · rw [if_neg he, if_neg he]
    exact .inr ⟨errMsg, rfl, rfl⟩

/-- A request ends before the password stage, with no check or one of the
desktop, or its checks are those of the password stage. -/
theorem loginRequest_stage (lr : LoginRequest) (c : Connection) :
    ((c.loginRequest h env lr).1.gate.authorized = c.gate.authorized ∧
      (c.loginChecks h env lr = [] ∨
        (c.loginChecks h env lr = [.desktop] ∧ env.desktopBlock = none))) ∨
    ∃ (b : Connection) (errMsg : String), c.loginRequest h env lr = b.authenticate h env errMsg lr ∧
      c.loginChecks h env lr = b.authenticateChecks h env lr ∧ b.gate.lr = lr ∧
      b.tables = c.tables ∧ b.gate.authorized = c.gate.authorized := by
  have hr := handleLogin_received env lr c
  have ht := (handleLogin_frame env lr c).1
  unfold loginRequest loginChecks
  dsimp only
  generalize hq : (c.handleLoginRequestWithoutValidation env lr).resetSessionScopeForLogin = q
  have hf := loginScope_frame h env lr q
  generalize q.loginScope h env lr = r at hf ⊢
  obtain ⟨b, ok⟩ := r
  replace hf : b.gate.lr = lr ∧ b.tables = c.tables ∧ b.gate.authorized = c.gate.authorized := by
    subst hq
    exact ⟨hf.1.trans hr.request, hf.2.1.trans ht, hf.2.2.trans hr.authorized⟩
  cases ok with
  | false => exact .inl ⟨hf.2.2, .inl rfl⟩
  | true =>
    dsimp only
    split
    · exact .inl ⟨hf.2.2, .inl rfl⟩
    split
    · exact .inl ⟨hf.2.2, .inl rfl⟩
    rcases startDesktop_stage h env lr b with ⟨ha, hc⟩ | ⟨errMsg, he, hc⟩
    · exact .inl ⟨ha.trans hf.2.2, hc⟩
    · exact .inr ⟨b, errMsg, he, hc, hf⟩

variable {h env}

theorem passwordChecks_of_block (hb : env.passwordBlock.isSome = true) (c : Connection) :
    c.passwordChecks h env = [] := by
  obtain ⟨_, hp⟩ := Option.isSome_iff_exists.1 hb
  rw [passwordChecks, hp]

theorem isRecentSession_matches (c : Connection) :
    (c.isRecentSession h false).2 = c.sessionMatches h false := by
  unfold isRecentSession
  split
  · rename_i hm
    exact hm.symm
  · rename_i hm
    exact (Bool.eq_false_iff.2 hm).symm

variable {c b : Connection} {errMsg : String} {lr : LoginRequest}

theorem comparesSession_of_recent (hm : (c.isRecentSession h false).2 = true) :
    c.comparesSession = true := by
  rw [isRecentSession_matches] at hm
  unfold sessionMatches at hm
  unfold comparesSession
  cases hs : c.tables.sessions c.gate.sessionKey with
  | none =>
    simp [hs] at hm
  | some s =>
    rw [hs] at hm
    have hp : s.randomPassword ≠ "" := by
      intro he
      simp [validatePasswordPlain, he] at hm
    simp only [Bool.and_eq_true] at hm ⊢
    exact ⟨hm.1, by simpa using hp⟩

theorem askConnectionManager_authorized (lr : LoginRequest) (b : Connection) :
    (b.askConnectionManager h env lr).1.gate.authorized = b.gate.authorized := by
  rcases askConnectionManager_cases h env lr b with ⟨c, hp, hq⟩ | ⟨c, hp, -, -, hq⟩ <;>
    rw [hq] <;> exact hp.authorized

theorem passwordLogin_authorized (hb : b.gate.authorized = false)
    (ha : (b.passwordLogin h env errMsg lr).1.gate.authorized = true) :
    .password true ∈ b.passwordChecks h env := by
  unfold passwordLogin at ha
  unfold passwordChecks
  cases hp : env.passwordBlock with
  | some =>
    rw [hp] at ha
    cases hb.symm.trans ha
  | none =>
    rw [hp] at ha
    rcases validatePassword_cases h env b with hv | ⟨a, t, -, hv⟩
    · rw [hv] at ha
      split_ifs at ha <;> cases hb.symm.trans ha
    · rw [hv]
      exact List.mem_singleton.2 rfl

theorem authenticate_authorized (hb : b.gate.authorized = false)
    (ha : (b.authenticate h env errMsg lr).1.gate.authorized = true) :
    .recentSession true ∈ b.authenticateChecks h env lr ∨
      .password true ∈ b.authenticateChecks h env lr := by
  have hask : (b.askConnectionManager h env lr).1.gate.authorized = false :=
    (askConnectionManager_authorized lr b).trans hb
  unfold authenticate at ha
  unfold authenticateChecks
  by_cases hc : clickOnly env = true
  · rw [if_pos hc] at ha
    generalize b.askConnectionManager h env lr = r at ha hask
    obtain ⟨c, k⟩ := r
    cases k with
    | false => cases hask.symm.trans ha
    | true =>
      dsimp only at ha
      split at ha <;> cases hask.symm.trans ha
  · rw [if_neg hc] at ha ⊢
    rcases isRecentSession_cases h b with hr | ⟨a, t, -, hr⟩
    · rw [hr] at ha ⊢
      dsimp only at ha ⊢
      split_ifs at ha with hp
      · cases hask.symm.trans ha
      · cases hb.symm.trans ha
      · rw [if_neg (by simpa using hp)]
        exact .inr (List.mem_append_right _ (passwordLogin_authorized hb ha))
    · have hs : b.comparesSession = true := comparesSession_of_recent (by rw [hr])
      rw [hr, hs]
      exact .inl (List.mem_singleton.2 rfl)

theorem loginRequest_authorized (hc : c.gate.authorized = false)
    (ha : (c.loginRequest h env lr).1.gate.authorized = true) :
    ∃ x ∈ c.loginChecks h env lr, x.comparesPassword = true := by
  rcases loginRequest_stage h env lr c with ⟨hs, -⟩ | ⟨b, errMsg, he, hk, -, -, hb⟩
  · cases hc.symm.trans (hs.symm.trans ha)
  · rw [he] at ha
    rw [hk]
    rcases authenticate_authorized (hb.trans hc) ha with hm | hm <;> exact ⟨_, hm, rfl⟩

/-- A refused request whose password is not compared with that of a session
has its password compared with nothing. -/
theorem loginChecks_of_block (hp : env.passwordBlock.isSome = true)
    (hs : ∀ s, c.tables.sessions ⟨lr.myId, lr.myName, lr.sessionId⟩ = some s →
      lr.password = [] ∨ s.randomPassword = "") :
    ∀ x ∈ c.loginChecks h env lr, x.comparesPassword = false := by
  rcases loginRequest_stage h env lr c with ⟨-, hk⟩ | ⟨b, errMsg, -, hk, hlr, ht, -⟩
  · rcases hk with hk | ⟨hk, -⟩ <;> rw [hk] <;> simp [Check.comparesPassword]
  have hn : b.comparesSession = false := by
    rw [comparesSession, Gate.sessionKey, ht, hlr]
    cases hs' : c.tables.sessions ⟨lr.myId, lr.myName, lr.sessionId⟩ with
    | none => rfl
    | some s => rcases hs s hs' with he | he <;> simp [he]
  rw [hk]
  unfold authenticateChecks
  simp [hn, passwordChecks_of_block hp]

theorem loginChecks_unblocked {x : Check}
    (hx : (c.loginChecks h env lr).getLast? = some x) (hn : ∀ m, x ≠ .recentSession m)
    (hb : env.desktopBlock = env.passwordBlock) : env.passwordBlock = none := by
  rcases loginRequest_stage h env lr c with ⟨-, hk⟩ | ⟨b, errMsg, -, hk, -, -, -⟩
  · rcases hk with hk | ⟨hk, hd⟩
    · simp [hk] at hx
    · exact hb ▸ hd
  · rw [hk] at hx
    unfold authenticateChecks passwordChecks at hx
    cases hp : env.passwordBlock with
    | none => rfl
    | some =>
      rw [hp] at hx
      simp only [List.append_nil, ite_self] at hx
      split at hx
      · cases hx
      · split at hx
        · exact absurd (Option.some.inj hx).symm (hn _)
        · cases hx

end Connection

/-! ### All connections -/

/-- Any number of connections, the table of wrong attempts, the clock in
milliseconds and, as history, the wrong attempts and the successes that
cleared an entry (newest first). -/
structure World where
  conns : ℕ → Connection
  failures : Failures := {}
  clock : ℕ
  log : List (Tally.Entry IpAddr ℕ) := []
  /-- A refused request had its password compared or became authorized. -/
  breached : Bool := false

namespace World

variable (net : Net) (h : Host) (ip : ℕ → IpAddr)

/-- Time passes before the request comes and while the desktop is started. -/
structure Attempt where
  conn : ℕ
  lr : LoginRequest
  env : Env
  wait : ℕ
  desktop : ℕ

inductive Event where
  | attempt (a : Attempt)
  /-- Any other input of a connection. -/
  | other (conn : ℕ) (env : Env) (i : Connection.Input)
      (noLogin : ∀ lr, i ≠ .message (.loginRequest lr))

def check (conn now : ℕ) (w : World) : Failure × Option Block :=
  w.failures.checkFailure net (net.text (ip conn)) (minuteOf now)

/-- The environment of a request with the answers of `check_failure`. -/
def answers (a : Attempt) (w : World) : Env :=
  { a.env with
    headlessBlock := (w.check net ip a.conn (w.clock + a.wait)).2
    desktopBlock := (w.check net ip a.conn (w.clock + a.wait + a.desktop)).2
    passwordBlock := (w.check net ip a.conn (w.clock + a.wait + a.desktop)).2 }

/-- What the last check of a request leaves in the table. -/
def record (a : IpAddr) (failure : Failure) (now : ℕ) (last : Option Check) (w : World) : World :=
  match last with
  | some (.password true) =>
    { w with
      failures := w.failures.updateFailure net (net.text a) failure (minuteOf now) true
      log := if failure.minute ≠ 0 then .reset a :: w.log else w.log }
  | some (.password false) | some .desktop =>
    { w with
      failures := w.failures.updateFailure net (net.text a) failure (minuteOf now) false
      log := .hit a (now / 60000) :: w.log }
  | _ => w

def setConn (conn : ℕ) (c : Connection) (w : World) : World :=
  { w with conns := fun k => if k = conn then c else w.conns k }

def attempt (a : Attempt) (w : World) : World :=
  let later := w.clock + a.wait + a.desktop
  let env := w.answers net ip a
  let c := w.conns a.conn
  let after := c.step h (env, .message (.loginRequest a.lr))
  let found := w.check net ip a.conn later
  let checks := c.checks h env a.lr
  let breach := found.2.isSome && (checks.any Check.comparesPassword ||
    (!c.gate.authorized && after.gate.authorized))
  ({ w.setConn a.conn after with
      clock := later
      breached := w.breached || breach } : World).record net (ip a.conn) found.1 later
    checks.getLast?

def step (w : World) : Event → World
  | .attempt a => w.attempt net h ip a
  | .other conn env i _ => w.setConn conn ((w.conns conn).step h (env, i))

/-! ### What the table holds -/

/-- The entry `f` counts the hits `ms`, marked with their minutes, newest
first; `now` is the present minute. -/
structure Tracks (f : Failure) (ms : List ℕ) (now : ℕ) : Prop where
  total : f.total = ms.length
  nonneg : 0 ≤ f.inMinute
  sorted : ms.Pairwise (· ≥ ·)
  past : ∀ m ∈ ms, m ≤ now
  last : ∀ m, ms.head? = some m → f.minute = asI32 m ∧ (ms.count m : ℤ) ≤ f.inMinute

theorem tracks_nil (now : ℕ) : Tracks {} [] now :=
  ⟨rfl, Int.le_refl 0, List.Pairwise.nil, nofun, nofun⟩

variable {f : Failure} {ms : List ℕ} {now : ℕ} {a : IpAddr}

theorem Tracks.later {later : ℕ} (ht : Tracks f ms now) (hl : now ≤ later) : Tracks f ms later :=
  { ht with past := fun m hm => (ht.past m hm).trans hl }

theorem Tracks.count_now (ht : Tracks f ms now) :
    ms.count now = 0 ∨ f.minute = asI32 now ∧ (ms.count now : ℤ) ≤ f.inMinute := by
  by_cases hh : ms.head? = some now
  · exact .inr (ht.last now hh)
  left
  cases ms with
  | nil => rfl
  | cons m =>
    have hm : m ≤ now := ht.past m List.mem_cons_self
    have hne : m ≠ now := fun he => hh (by rw [he]; rfl)
    rw [List.count_eq_zero]
    intro hmem
    have hle : now ≤ m := by
      rcases List.mem_cons.1 hmem with he | he
      · omega
      · exact List.rel_of_pairwise_cons ht.sorted he
    omega

theorem Tracks.bump (ht : Tracks f ms now) :
    Tracks (bumpFailureEntry f (asI32 now)) (now :: ms) now := by
  have htotal := ht.total
  have hnonneg := ht.nonneg
  refine ⟨?_, ?_, List.pairwise_cons.2 ⟨ht.past, ht.sorted⟩,
    List.forall_mem_cons.2 ⟨le_refl now, ht.past⟩, ?_⟩
  · unfold bumpFailureEntry
    split <;> simp only [List.length_cons] <;> omega
  · unfold bumpFailureEntry
    split <;> dsimp only <;> omega
  · intro m hm
    obtain rfl : now = m := Option.some.inj hm
    have hc := ht.count_now
    rw [List.count_cons_self]
    unfold bumpFailureEntry
    split_ifs with he
    · refine ⟨he, ?_⟩
      push_cast
      omega
    · dsimp only
      omega

theorem Tracks.count_le (ht : Tracks f ms now)
    (hf : asI32 now = f.minute → f.inMinute ≤ 6) : ms.count now ≤ 6 := by
  rcases ht.count_now with hc | ⟨hm, hc⟩
  · omega
  · have := hf hm.symm
    omega

variable {net h ip} {w : World}

def hitsOf (net : Net) (key : String) (log : List (Tally.Entry IpAddr ℕ)) : List ℕ :=
  Tally.hits (fun a => key ∈ Failures.keys net (net.text a)) log

/-- Every entry counts its hits, and no entry has more than its limit. -/
structure Kept (net : Net) (w : World) : Prop where
  tracks : ∀ key, Tracks (w.failures.get key) (hitsOf net key w.log) (w.clock / 60000)
  address : ∀ a, (hitsOf net (net.text a) w.log).length ≤ 31
  minute : ∀ a m, (hitsOf net (net.text a) w.log).count m ≤ 7
  prefix64 : ∀ a, (hitsOf net (net.prefixText a 64) w.log).length ≤ 61
  prefix56 : ∀ a, (hitsOf net (net.prefixText a 56) w.log).length ≤ 81
  prefix48 : ∀ a, (hitsOf net (net.prefixText a 48) w.log).length ≤ 101

theorem hitsOf_hit (key : String) (a : IpAddr) (m : ℕ) (log : List (Tally.Entry IpAddr ℕ)) :
    hitsOf net key (.hit a m :: log) =
      if key ∈ Failures.keys net (net.text a) then m :: hitsOf net key log
      else hitsOf net key log := rfl

theorem hitsOf_reset (key : String) (a : IpAddr) (log : List (Tally.Entry IpAddr ℕ)) :
    hitsOf net key (.reset a :: log) =
      if key ∈ Failures.keys net (net.text a) then [] else hitsOf net key log := rfl

theorem Kept.later (hk : Kept net w) {w' : World} (hf : w'.failures = w.failures)
    (hl : w'.log = w.log) (hc : w.clock ≤ w'.clock) : Kept net w' where
  tracks := fun key => by
    rw [hf, hl]
    exact (hk.tracks key).later (Nat.div_le_div_right hc)
  address := hl ▸ hk.address
  minute := hl ▸ hk.minute
  prefix64 := hl ▸ hk.prefix64
  prefix56 := hl ▸ hk.prefix56
  prefix48 := hl ▸ hk.prefix48

/-! ### A wrong attempt and a success -/

theorem length_hit (hk : Kept net w) {key : String} {L : ℕ}
    (hl : (hitsOf net key w.log).length ≤ L + 1)
    (hin : key ∈ Failures.keys net (net.text a) → (w.failures.get key).total ≤ L) (m : ℕ) :
    (hitsOf net key (.hit a m :: w.log)).length ≤ L + 1 := by
  rw [hitsOf_hit]
  split_ifs with hkey
  · have ht := (hk.tracks key).total
    have := hin hkey
    rw [List.length_cons]
    omega
  · exact hl

theorem prefix_total_le (hn : net.Lawful) {time : ℤ} {m : Failures}
    (hb : (m.checkFailure net (net.text a) time).2 = none) {b : BitVec 128} {n : ℕ}
    (hl : n = 64 ∨ n = 56 ∨ n = 48) (hmem : net.prefixText b n ∈ Failures.keys net (net.text a)) :
    (n = 64 → (m.get (net.prefixText b n)).total ≤ 60) ∧
    (n = 56 → (m.get (net.prefixText b n)).total ≤ 80) ∧
    (n = 48 → (m.get (net.prefixText b n)).total ≤ 100) := by
  have hp := (Failures.prefixText_mem_keys hn hl).1 hmem
  cases a with
  | v4 => exact hp.elim
  | v6 a =>
    have hm : Net.maskU128 a n = Net.maskU128 b n := hp
    have he : net.prefixText b n = net.prefixText a n := by
      unfold Net.prefixText
      rw [hm]
    obtain ⟨h64, h56, h48⟩ := (Failures.checkFailure_none hb).2 _ _ _ (Net.getIpv6Prefixes_v6 hn a)
    rw [he]
    refine ⟨?_, ?_, ?_⟩ <;> rintro rfl <;> assumption

theorem Kept.wrong (hn : net.Lawful) (hk : Kept net w)
    (hb : (w.failures.checkFailure net (net.text a) (minuteOf w.clock)).2 = none)
    (failure : Failure) :
    Kept net { w with
      failures := w.failures.updateFailure net (net.text a) failure (minuteOf w.clock) false
      log := .hit a (w.clock / 60000) :: w.log } := by
  have hself := Failures.checkAddress_none ((Failures.checkFailure_none hb).1 ▸ hb)
  have hown : ∀ b, net.text b ∈ Failures.keys net (net.text a) → a = b := fun b hm =>
    (Failures.text_mem_keys hn).1 hm
  refine ⟨?_, ?_, ?_, ?_, ?_, ?_⟩
  · intro key
    unfold Failures.updateFailure
    rw [if_neg (by decide), Failures.get_foldl_bump _ _ _ _ (Failures.keys_nodup hn a), hitsOf_hit]
    split
    · exact (hk.tracks key).bump
    · exact hk.tracks key
  · intro b
    refine length_hit (L := 30) hk (hk.address b) (fun hm => ?_) _
    rw [← hown b hm]
    exact hself.1
  · intro b m
    rw [hitsOf_hit]
    split_ifs with hm
    · have hle := hk.minute b m
      have hnow := (hk.tracks (net.text b)).count_le (hown b hm ▸ hself.2)
      rw [List.count_cons]
      split
      · rename_i he
        rw [← eq_of_beq he]
        omega
      · omega
    · exact hk.minute b m
  · intro b
    exact length_hit (L := 60) hk (hk.prefix64 b)
      (fun hm => (prefix_total_le hn hb (.inl rfl) hm).1 rfl) _
  · intro b
    exact length_hit (L := 80) hk (hk.prefix56 b)
      (fun hm => (prefix_total_le hn hb (.inr (.inl rfl)) hm).2.1 rfl) _
  · intro b
    exact length_hit (L := 100) hk (hk.prefix48 b)
      (fun hm => (prefix_total_le hn hb (.inr (.inr rfl)) hm).2.2 rfl) _

theorem Kept.cleared (hk : Kept net w) (a : IpAddr) (failure : Failure) (time : ℤ)
    (hf : failure.minute ≠ 0) :
    Kept net { w with
      failures := w.failures.updateFailure net (net.text a) failure time true
      log := .reset a :: w.log } := by
  have hlen : ∀ {key limit}, (hitsOf net key w.log).length ≤ limit →
      (hitsOf net key (.reset a :: w.log)).length ≤ limit := by
    intro key limit hl
    rw [hitsOf_reset]
    split
    · exact Nat.zero_le _
    · exact hl
  refine ⟨?_, fun b => hlen (hk.address b), ?_, fun b => hlen (hk.prefix64 b),
    fun b => hlen (hk.prefix56 b), fun b => hlen (hk.prefix48 b)⟩
  · intro key
    rw [Failures.updateFailure, if_pos rfl, if_pos hf, Failures.get_foldl_remove, hitsOf_reset]
    split
    · exact tracks_nil _
    · exact hk.tracks key
  · intro b m
    rw [hitsOf_reset]
    split
    · exact Nat.zero_le _
    · exact hk.minute b m

/-! ### Runs -/

theorem Kept.record (hn : net.Lawful) (hk : Kept net w) (a : IpAddr) (failure : Failure)
    {last : Option Check}
    (hb : ∀ x, last = some x → (∀ m, x ≠ .recentSession m) →
      (w.failures.checkFailure net (net.text a) (minuteOf w.clock)).2 = none) :
    Kept net (w.record net a failure w.clock last) := by
  unfold World.record
  split
  · split_ifs with hf
    · exact hk.cleared a failure _ hf
    · refine hk.later ?_ rfl (Nat.le_refl _)
      rw [Failures.updateFailure, if_pos rfl, if_neg hf]
  · exact hk.wrong hn (hb _ rfl nofun) failure
  · exact hk.wrong hn (hb _ rfl nofun) failure
  · exact hk

theorem kept_step (hn : net.Lawful) (hk : Kept net w) (e : Event) : Kept net (w.step net h ip e) := by
  cases e with
  | attempt a =>
    have hlater : ∀ c b, Kept net { w.setConn a.conn c with
        clock := w.clock + a.wait + a.desktop, breached := b } :=
      fun c b => hk.later rfl rfl (by dsimp only; omega)
    refine (hlater _ _).record hn (ip a.conn) _ fun x hx hr => ?_
    unfold Connection.checks at hx
    split at hx
    · exact Connection.loginChecks_unblocked hx hr rfl
    · cases hx
  | other => exact hk.later rfl rfl (Nat.le_refl _)

def sessionPassword (a : Attempt) (w : World) : Bool :=
  match (w.conns a.conn).tables.sessions ⟨a.lr.myId, a.lr.myName, a.lr.sessionId⟩ with
  | some s => a.lr.password ≠ [] && s.randomPassword ≠ ""
  | none => false

/-- A request that is refused does not belong to a live session. -/
def NoSession (net : Net) (ip : ℕ → IpAddr) (w : World) : Event → Prop
  | .attempt a =>
    (w.check net ip a.conn (w.clock + a.wait + a.desktop)).2.isSome = true →
      w.sessionPassword a = false
  | .other _ _ _ _ => True

instance : ∀ (w : World) (e : Event), Decidable (NoSession net ip w e)
  | _, .attempt _ => inferInstanceAs (Decidable (_ → _))
  | _, .other _ _ _ _ => inferInstanceAs (Decidable True)

theorem step_login_authorized {c : Connection} {env : Env} {lr : LoginRequest}
    (hc : c.gate.authorized = false)
    (ha : (c.step h (env, .message (.loginRequest lr))).gate.authorized = true) :
    c.phase = .running ∧ (c.loginRequest h env lr).1.gate.authorized = true := by
  unfold Connection.step at ha
  cases hp : c.phase with
  | closed | forwarding =>
    rw [hp] at ha
    cases hc.symm.trans ha
  | running =>
    rw [hp] at ha
    refine ⟨rfl, ?_⟩
    have hm : c.onMessage h env (.loginRequest lr) = c.loginRequest h env lr := by
      rw [Connection.onMessage, if_neg nofun, if_neg (by simp [hc]), if_neg (by simp [hc])]
      rfl
    dsimp only [Connection.turn] at ha
    rwa [(Connection.goOn_quiet _ _ _).gate, hm] at ha

theorem attempt_breached (a : Attempt) (hs : NoSession net ip w (.attempt a)) :
    (w.attempt net h ip a).breached = w.breached := by
  have hrecord : ∀ (v : World) (b : IpAddr) f n l, (v.record net b f n l).breached = v.breached := by
    intro v b f n l
    unfold record
    split <;> rfl
  rw [attempt, hrecord]
  by_cases hb : (w.check net ip a.conn (w.clock + a.wait + a.desktop)).2.isSome = true
  · have hsession := hs hb
    have hnone : ∀ x ∈ (w.conns a.conn).loginChecks h (w.answers net ip a) a.lr,
        x.comparesPassword = false := by
      apply Connection.loginChecks_of_block hb
      intro s hx
      rw [sessionPassword, hx] at hsession
      simp only [Bool.and_eq_false_iff, decide_eq_false_iff_not, not_not] at hsession
      exact hsession
    have hchecks : ((w.conns a.conn).checks h (w.answers net ip a) a.lr).any
        Check.comparesPassword = false := by
      unfold Connection.checks
      split
      · simpa using hnone
      · rfl
    have hlogin : (!(w.conns a.conn).gate.authorized && ((w.conns a.conn).step h
        (w.answers net ip a, .message (.loginRequest a.lr))).gate.authorized) = false := by
      by_contra hx
      simp only [Bool.not_eq_false, Bool.and_eq_true, Bool.not_eq_true'] at hx
      obtain ⟨-, ha⟩ := step_login_authorized hx.1 hx.2
      obtain ⟨x, hx, hp⟩ := Connection.loginRequest_authorized hx.1 ha
      cases (hnone x hx).symm.trans hp
    rw [hchecks, hlogin]
    simp
  · simp [hb]

theorem step_breached (e : Event) (hs : NoSession net ip w e) :
    (w.step net h ip e).breached = w.breached := by
  cases e with
  | attempt a => exact attempt_breached a hs
  | other => rfl

/-- **Logins are throttled.** The entries of an address and of its three
prefixes count the wrong attempts since the last success that cleared them; an
address has at most 31 of them and at most 7 within a minute, a prefix of
length 64, 56 or 48 at most 61, 81 or 101. If no refused request belongs to a
live session, none has its password compared with anything or becomes
authorized. -/
theorem logins_throttled (net : Net) (h : Host) (ip : ℕ → IpAddr) (hn : net.Lawful)
    (conns : ℕ → Connection) (clock : ℕ) (es : List Event) :
    let w := Run.run (step net h ip) { conns := conns, clock := clock } es
    (∀ a, (w.failures.get (net.text a)).total = (Tally.hits (· = a) w.log).length ∧
      (Tally.hits (· = a) w.log).length ≤ 31 ∧ ∀ m, (Tally.hits (· = a) w.log).count m ≤ 7) ∧
    (∀ a n, n = 64 ∨ n = 56 ∨ n = 48 → (w.failures.get (net.prefixText a n)).total =
        (Tally.hits (IpAddr.InPrefix a n) w.log).length) ∧
    (∀ a, (Tally.hits (IpAddr.InPrefix a 64) w.log).length ≤ 61 ∧
      (Tally.hits (IpAddr.InPrefix a 56) w.log).length ≤ 81 ∧
      (Tally.hits (IpAddr.InPrefix a 48) w.log).length ≤ 101) ∧
    (Run.Meets (step net h ip) (NoSession net ip) { conns := conns, clock := clock } es →
      w.breached = false) := by
  intro w
  have h₀ : Kept net { conns := conns, clock := clock } :=
    ⟨fun _ => tracks_nil _, fun _ => Nat.zero_le _, fun _ _ => Nat.zero_le _,
      fun _ => Nat.zero_le _, fun _ => Nat.zero_le _, fun _ => Nat.zero_le _⟩
  have hk : Kept net w := Run.inv_run (I := Kept net) (fun _ e hk => kept_step hn hk e) h₀ es
  have haddress : ∀ a, hitsOf net (net.text a) w.log = Tally.hits (· = a) w.log := fun a =>
    Tally.hits_congr (fun _ => Failures.text_mem_keys hn) _
  have hprefix : ∀ a n, n = 64 ∨ n = 56 ∨ n = 48 → hitsOf net (net.prefixText a n) w.log =
      Tally.hits (IpAddr.InPrefix a n) w.log := fun a n hl =>
    Tally.hits_congr (fun _ => Failures.prefixText_mem_keys hn hl) _
  refine ⟨fun a => ?_, fun a n hl => ?_, fun a => ?_, fun hm => ?_⟩
  · rw [← haddress a]
    exact ⟨(hk.tracks _).total, hk.address a, hk.minute a⟩
  · rw [← hprefix a n hl]
    exact (hk.tracks _).total
  · rw [← hprefix a 64 (by decide), ← hprefix a 56 (by decide), ← hprefix a 48 (by decide)]
    exact ⟨hk.prefix64 a, hk.prefix56 a, hk.prefix48 a⟩
  · exact Run.inv_run_of_meets (I := fun w => w.breached = false)
      (fun w e _ hb hs => (step_breached e hs).trans hb) rfl hm

/-- Every connection comes from one address; the second one has a live session
with the password "1234". -/
def twoPeers : World where
  conns k := .start .desktop {} none false []
    { sessions := fun key => if k = 1 ∧ key.peerId = "peer" then some ⟨"1234", false⟩ else none }
  clock := 6000000

def wrongGuess : Event :=
  .attempt { conn := 0, lr := { username := "host", password := [1] }, env := {}, wait := 1000,
             desktop := 0 }

/-- The answer to the password "1234" on the second connection. -/
def reconnect : Event :=
  .attempt { conn := 1, lr := { username := "host", myId := "peer", password := [49, 50, 51, 52] },
             env := {}, wait := 0, desktop := 0 }

theorem nineGuesses_throttled :
    let w := Run.run (step .decimal .desktop fun _ => .v4 1) twoPeers (List.replicate 9 wrongGuess)
    (Tally.hits (· = .v4 1) w.log).length = 7 ∧
      (w.failures.get (Net.decimal.text (.v4 1))).total = 7 ∧ w.breached = false := by
  intro w
  have ht := logins_throttled .decimal .desktop (fun _ => .v4 1) Net.decimal_lawful
    twoPeers.conns twoPeers.clock (List.replicate 9 wrongGuess)
  have hl : (Tally.hits (· = .v4 1) w.log).length = 7 := by decide +kernel
  exact ⟨hl, (ht.1 (.v4 1)).1.trans (congrArg Nat.cast hl), ht.2.2.2 (by decide +kernel)⟩

/-- **Past the limit.** After seven wrong passwords within a minute the address
is refused, but a request that belongs to a live session is authorized by the
password of that session. -/
theorem blocked_peer_reconnects :
    let w := Run.run (step .decimal .desktop fun _ => .v4 1) twoPeers (List.replicate 7 wrongGuess)
    (w.check .decimal (fun _ => .v4 1) 1 w.clock).2 = some .oneMinuteLater ∧
      (w.conns 1).gate.authorized = false ∧
      ((w.step .decimal .desktop (fun _ => .v4 1) reconnect).conns 1).gate.authorized = true := by
  decide +kernel

end World
end CodeDesk.Conn
