/-
# Who touches a recent session

All connections of a host share one table of recent sessions
(`Registry.tables`), by a key the peer chooses: its id, its name and a session id,
all taken from its login request. A connection that takes an input other than
a close changes at most the entry of its own key, and only together with a
password, the password of a session or a code it presents
(`Connection.step_presents`).

A close that allows no retry takes the entry of the connection's key out of
the table unless another authorized remote connection has the key; whether
the connection itself presented anything is not asked, and `CloseReason` is
handled before the login. So a peer that was never let in removes the session
of another one (`Registry.stranger_removes_session`). The entries are protected
exactly as long as no such close takes place (`Registry.sessions_protected`).
-/
import CodeDesk.Run
import CodeDesk.Conn.Requests

namespace CodeDesk.Conn

/-- What a peer presents to be let in for its session. -/
def Factor.presented : Factor → Bool
  | .password => true
  | .recentSession => true
  | .totp => true
  | _ => false

namespace Connection

variable (h : Host) (env : Env)

def gained (c c' : Connection) : List Factor := c'.past.factors.drop c.past.factors.length

/-! ### What leaves the sessions alone -/

structure Keeps (c c' : Connection) : Prop where
  sessions : c'.tables.sessions = c.tables.sessions
  factors : c.past.factors <+: c'.past.factors
  lr : c'.gate.lr = c.gate.lr

namespace Keeps

variable {c c' c'' : Connection}

theorem frame (hs : c'.tables.sessions = c.tables.sessions := by rfl)
    (hf : c'.past.factors = c.past.factors := by rfl) (hl : c'.gate.lr = c.gate.lr := by rfl) :
    Keeps c c' :=
  ⟨hs, hf ▸ List.prefix_rfl, hl⟩

theorem refl (c : Connection) : Keeps c c := frame

theorem trans (h₁ : Keeps c c') (h₂ : Keeps c' c'') : Keeps c c'' :=
  ⟨h₂.sessions.trans h₁.sessions, h₁.factors.trans h₂.factors, h₂.lr.trans h₁.lr⟩

theorem leave (closed : Bool) (c : Connection) : Keeps c (c.leave closed) := by
  unfold Connection.leave
  split <;> exact .frame

theorem goOn (closed : Bool) (forwards : Connection → Bool) (r : Connection × Bool) :
    Keeps r.1 (goOn closed forwards r) := by
  unfold Connection.goOn
  split
  · exact .refl r.1
  · exact .leave closed r.1

end Keeps

variable (lr : LoginRequest) (c : Connection)

theorem prepareTerminalLogin_keeps : Keeps c (c.prepareTerminalLogin h env).1 := by
  unfold prepareTerminalLogin
  split
  · exact .refl c
  · split <;> exact .frame

theorem connectPortForward_keeps : Keeps c (c.connectPortForwardIfNeeded env).1 := by
  unfold connectPortForwardIfNeeded
  repeat' split
  all_goals first | exact .refl c | skip
  dsimp only
  split <;> exact .frame

theorem secondFactorMissing_keeps : Keeps c (c.secondFactorMissing h).1 := by
  unfold secondFactorMissing isRecentSession
  split_ifs <;> first | exact .refl c | exact ⟨rfl, List.prefix_append _ _, rfl⟩

theorem welcome_keeps : Keeps c (c.welcome h env) := by
  have hupdate : ∀ c : Connection, Keeps c (c.updateScopedLoginOptions h) := by
    intro c
    unfold updateScopedLoginOptions
    split
    · exact .refl c
    · dsimp only
      split <;> exact .frame
  have hstart : ∀ c : Connection, Keeps c (c.startSession h env) := by
    intro c
    obtain ⟨f, hf⟩ := startSession_frame h env c
    rw [hf]
    exact .frame
  unfold welcome
  split
  · exact .frame
  split
  · exact .frame
  · dsimp only
    generalize hr : reply _ c = r
    have hc : Keeps c r := hr ▸ .frame
    exact (hc.trans (hupdate r)).trans (hstart _)

theorem logon_keeps : Keeps c (c.logon h env).1 := by
  have h₁ := prepareTerminalLogin_keeps h env c
  unfold logon
  generalize c.prepareTerminalLogin h env = r at h₁ ⊢
  obtain ⟨c₁, _ | k⟩ := r
  · have h₂ := h₁.trans (connectPortForward_keeps env c₁)
    dsimp only
    generalize c₁.connectPortForwardIfNeeded env = r at h₂ ⊢
    obtain ⟨c₂, k⟩ := r
    cases k with
    | false => exact h₂
    | true =>
      have h₃ : Keeps c { c₂ with gate := c₂.gate.grant } := { h₂ with }
      exact h₃.trans (welcome_keeps h env _)
  · exact h₁

theorem sendLogon_keeps : Keeps c (c.sendLogonResponseAndKeepAlive h env).1 := by
  have h₁ := secondFactorMissing_keeps h c
  unfold sendLogonResponseAndKeepAlive
  split
  · exact .refl c
  generalize c.secondFactorMissing h = r at h₁ ⊢
  obtain ⟨c₁, m⟩ := r
  cases m with
  | true => exact { h₁ with }
  | false => exact h₁.trans (logon_keeps h env c₁)

theorem logonAndStartCm_keeps (peerId name : String) :
    Keeps c (c.logonAndStartCm h env peerId name).1 := by
  have hs := sendLogon_keeps h env c
  rw [logonAndStartCm_eq]
  split
  · exact { hs with }
  · exact hs

theorem askConnectionManager_keeps : Keeps c (c.askConnectionManager h env lr).1 := by
  have hp := prepareTerminalLogin_keeps h env c
  unfold askConnectionManager
  split_ifs with hs
  · generalize c.prepareTerminalLogin h env = r at hp ⊢
    obtain ⟨c', _ | k⟩ := r
    · exact { hp with }
    · exact hp
  · exact .frame

theorem loginScope_keeps : Keeps c (c.loginScope h env lr).1 := by
  unfold loginScope
  dsimp only
  repeat' split
  all_goals exact .frame

/-! ### What changes an entry -/

/-- At most the entry of the connection's own key has changed, and then
something was presented. -/
structure Presents (c c' : Connection) : Prop where
  factors : c.past.factors <+: c'.past.factors
  sessions : ∀ key, c'.tables.sessions key = c.tables.sessions key ∨
    key = c'.gate.sessionKey ∧ (c.gained c').any Factor.presented = true

variable {c} {c' : Connection} {i : Input}

theorem Keeps.presents (hk : Keeps c c') : Presents c c' :=
  ⟨hk.factors, fun _ => .inl (congrFun hk.sessions _)⟩

theorem Presents.keeps {c'' : Connection} (hp : Presents c c') (hk : Keeps c' c'') :
    Presents c c'' := by
  refine ⟨hp.factors.trans hk.factors, fun key => ?_⟩
  rcases hp.sessions key with hs | ⟨he, hg⟩
  · exact .inl ((congrFun hk.sessions key).trans hs)
  right
  obtain ⟨l, hl⟩ := hk.factors
  have hlr : c''.gate.sessionKey = c'.gate.sessionKey := by
    unfold Gate.sessionKey
    rw [hk.lr]
  have hgained : c.gained c'' = c.gained c' ++ l := by
    unfold gained
    rw [← hl, List.drop_append_of_le_length hp.factors.length_le]
  exact ⟨he.trans hlr.symm, by rw [hgained, List.any_append, hg, Bool.true_or]⟩

theorem Presents.before {b : Connection} (hp : Presents b c')
    (hs : b.tables.sessions = c.tables.sessions) (hf : c.past.factors <+: b.past.factors) :
    Presents c c' := by
  refine ⟨hf.trans hp.factors, fun key => ?_⟩
  rcases hp.sessions key with he | ⟨he, hg⟩
  · exact .inl (he.trans (congrFun hs key))
  right
  have hsuffix : b.gained c' <:+ c.gained c' := by
    rw [gained, ← Nat.add_sub_of_le hf.length_le, ← List.drop_drop]
    exact List.drop_suffix _ _
  rw [List.any_eq_true] at hg ⊢
  obtain ⟨x, hx, hpx⟩ := hg
  exact ⟨he, x, hsuffix.subset hx, hpx⟩

theorem presents_proved {x : Factor} (hx : x.presented = true)
    (hf : c'.past.factors = c.past.factors ++ [x])
    (hs : ∀ key, key ≠ c'.gate.sessionKey → c'.tables.sessions key = c.tables.sessions key) :
    Presents c c' := by
  refine ⟨hf ▸ List.prefix_append _ _, fun key => ?_⟩
  by_cases hk : key = c'.gate.sessionKey
  · refine .inr ⟨hk, ?_⟩
    rw [gained, hf, List.drop_left, List.any_cons, hx, Bool.true_or]
  · exact .inl (hs key hk)

theorem setSession_of_ne {k key : SessionKey} (hne : key ≠ k) (e : Option Session) (t : Tables) :
    (setSession k e t).sessions key = t.sessions key := if_neg hne

variable (c)

theorem isRecentSession_presents : Presents c (c.isRecentSession h false).1 := by
  unfold isRecentSession
  split
  · exact presents_proved (x := .recentSession) rfl rfl fun _ _ => rfl
  · exact (Keeps.refl c).presents

theorem validatePassword_presents : Presents c (c.validatePassword h env).1 := by
  unfold validatePassword
  split
  · exact presents_proved (x := .password) rfl rfl fun _ hk => setSession_of_ne hk _ _
  · split
    · exact presents_proved (x := .password) rfl rfl fun _ _ => rfl
    · exact (Keeps.refl c).presents

theorem passwordLogin_presents (errMsg : String) :
    Presents c (c.passwordLogin h env errMsg lr).1 := by
  have hv := validatePassword_presents h env c
  unfold passwordLogin
  split
  · exact Keeps.presents .frame
  generalize c.validatePassword h env = r at hv ⊢
  obtain ⟨c', m⟩ := r
  cases m with
  | false =>
    dsimp only
    split <;> exact hv.keeps .frame
  | true =>
    dsimp only
    split
    · exact hv.keeps (logonAndStartCm_keeps h env c' _ _)
    · exact hv.keeps .frame

theorem authenticate_presents (errMsg : String) :
    Presents c (c.authenticate h env errMsg lr).1 := by
  unfold authenticate
  split
  · have ha := askConnectionManager_keeps h env lr c
    generalize c.askConnectionManager h env lr = r at ha ⊢
    obtain ⟨c', k⟩ := r
    cases k with
    | false => exact ha.presents
    | true =>
      dsimp only
      split <;> exact ha.presents.keeps .frame
  · have hr := isRecentSession_presents h c
    rcases isRecentSession_cases h c with he | ⟨a, t, -, he⟩
    · rw [he]
      dsimp only
      split
      · split
        · exact (askConnectionManager_keeps h env lr c).presents
        · exact Keeps.presents .frame
      · exact passwordLogin_presents h env lr c errMsg
    · rw [he] at hr ⊢
      dsimp only at hr ⊢
      split
      · exact hr.keeps (logonAndStartCm_keeps h env _ _ _)
      · exact hr.keeps .frame

theorem startDesktop_presents : Presents c (c.startDesktop h env lr).1 := by
  have herror : ∀ text, Presents c (c.sendLoginError env text) := fun _ =>
    Keeps.presents .frame
  unfold startDesktop
  dsimp only
  repeat' split
  all_goals first | exact herror _ | exact authenticate_presents h env lr c _

theorem loginRequest_presents : Presents c (c.loginRequest h env lr).1 := by
  obtain ⟨ht, hf⟩ := handleLogin_frame env lr c
  unfold loginRequest
  dsimp only
  generalize hb : (c.handleLoginRequestWithoutValidation env lr).resetSessionScopeForLogin = b
  have hs : b.tables.sessions = c.tables.sessions := by
    rw [← hb]
    exact congrArg Tables.sessions ht
  have hp : c.past.factors <+: b.past.factors := by
    rwa [← hb]
  have hk := loginScope_keeps h env lr b
  refine Presents.before ?_ hs hp
  generalize b.loginScope h env lr = r at hk ⊢
  obtain ⟨b', k⟩ := r
  cases k with
  | false => exact hk.presents
  | true =>
    dsimp only
    split
    · exact hk.presents.keeps .frame
    split
    · exact hk.presents.keeps .frame
    · exact (startDesktop_presents h env lr b').before hk.sessions hk.factors

theorem auth2fa_presents (code : String) (hwid : Bytes) :
    Presents c (c.auth2fa h env code hwid).1 := by
  have hself := (Keeps.refl c).presents
  have herror : ∀ text, Presents c (c.sendLoginError env text) := fun _ =>
    hself.keeps .frame
  have hcode : Presents c c.codeProved :=
    presents_proved (x := .totp) rfl rfl fun _ hk => setSession_of_ne hk _ _
  have hlogon := hcode.keeps (logonAndStartCm_keeps h env c.codeProved c.gate.lr.myId
    c.gate.lr.myName)
  unfold auth2fa
  split
  · exact herror _
  split
  · split
    · dsimp only
      split
      · rename_i d hd
        have hd : c.codeProved.logonAndStartCm h env c.gate.lr.myId c.gate.lr.myName =
          (d, false) := hd
        rwa [hd] at hlogon
      · rename_i d hd
        have hd : c.codeProved.logonAndStartCm h env c.gate.lr.myId c.gate.lr.myName =
          (d, true) := hd
        rw [hd] at hlogon
        split
        · exact hlogon.keeps .frame
        · exact hlogon
    · exact herror _
    · exact hself
  · exact hself

theorem switchSidesResponse_presents (lr : Option LoginRequest) (uuid : Option ℕ) :
    Presents c (c.switchSidesResponse h env lr uuid).1 := by
  unfold switchSidesResponse
  cases lr with
  | none => exact (Keeps.refl c).presents
  | some lr =>
    obtain ⟨ht, hf⟩ := handleLogin_frame env lr c
    dsimp only
    split
    · refine Presents.before (b := c.handleLoginRequestWithoutValidation env lr) ?_
        (congrArg Tables.sessions ht) hf
      split
      · refine Keeps.presents (Keeps.trans ?_ (logonAndStartCm_keeps h env _ _ _))
        exact ⟨rfl, List.prefix_append _ _, rfl⟩
      · exact Keeps.presents .frame
    · exact (Keeps.refl c).presents

theorem authorize_presents : Presents c (c.authorize h env).1 := by
  refine Keeps.presents (Keeps.trans ?_ (sendLogon_keeps h env _))
  exact ⟨rfl, List.prefix_append _ _, rfl⟩

theorem onMessage_presents (m : Message) (hm : m ≠ .closeReason) :
    Presents c (c.onMessage h env m).1 := by
  have hself := (Keeps.refl c).presents
  rw [onMessage, if_neg hm]
  split
  · exact hself
  split
  · exact hself
  cases m with
  | loginRequest lr => exact loginRequest_presents h env lr c
  | auth2fa code hwid => exact auth2fa_presents h env c code hwid
  | switchSidesResponse lr uuid => exact switchSidesResponse_presents h env c lr uuid
  | testDelay fromClient => cases fromClient <;> exact Keeps.presents .frame
  | _ =>
    unfold handleMessage
    dsimp only
    split
    · obtain ⟨f, hf⟩ := authorizedMessage_feed h env _ c
      rw [hf]
      exact Keeps.presents .frame
    · exact hself

/-- An input that is neither a close by the peer nor a change from outside
touches the entry of the connection's own key at most, and only if something
is presented with it. -/
theorem step_presents (hm : i ≠ .message .closeReason)
    (ht : ∀ t, i ≠ .shared t) : Presents c (c.step h (env, i)) := by
  have hkeeps : ∀ {c'}, Keeps c c' → Presents c c' := Keeps.presents
  unfold step
  split
  · cases i with
    | message m =>
      have hne : m ≠ .closeReason := fun he => hm (he ▸ rfl)
      exact (onMessage_presents h env c m hne).keeps (Keeps.goOn (c.closes h env m) (fun c =>
        c.gate.portForwardSocket.isSome && c.gate.authorized && !c.lastTestDelay) _)
    | authorize =>
      exact (authorize_presents h env c).keeps
        (Keeps.goOn false (fun c => c.gate.portForwardSocket.isSome) _)
    | stop => exact hkeeps (.leave true c)
    | testDelayTimer =>
      unfold turn
      dsimp only
      split <;> exact hkeeps .frame
    | shared t => exact absurd rfl (ht t)
    | _ => exact hkeeps .frame
  · dsimp only
    split
    · exact hkeeps .frame
    · exact absurd rfl (ht _)
    · exact hkeeps .frame
    · exact hkeeps (.refl c)
  · exact hkeeps (.refl c)

/-! ### A close -/

def peerCloses (i : Input) (c : Connection) : Bool :=
  match i with
  | .message m => c.phase == .running && m = .closeReason
  | _ => false

/-- `handle_authorized_scope_violation` closes the connection with no retry. -/
def scopeCloses (i : Input) (c : Connection) : Bool :=
  match i with
  | .message m => c.phase == .running && m ≠ .closeReason && c.gate.authorized &&
      !isLoginRequest m && c.authorizedScopeViolation h m && env.scopeViolationClose
  | _ => false

/-- One input, with the session that a violation of the scope takes along. -/
def taken (i : Input) (c : Connection) : Connection :=
  if c.scopeCloses h env i then (c.step h (env, i)).checkRemoveSession env else c.step h (env, i)

theorem checkRemoveSession_sessions (key : SessionKey) :
    (c.checkRemoveSession env).tables.sessions key = if key = c.gate.sessionKey ∧
          (c.gate.authedConnType = some .remote ∨ env.anotherRemote = false) then none
      else c.tables.sessions key := by
  unfold checkRemoveSession
  by_cases hr : c.gate.authedConnType = some .remote ∨ env.anotherRemote = false
  · simp [hr, setSession]
  · simp [hr]

theorem checkRemoveSession_past : (c.checkRemoveSession env).past = c.past := by
  unfold checkRemoveSession
  split <;> rfl

/-- `c` ends as `c'` with no retry: nothing is proved, and the entry of its key
goes as `check_remove_session` says. -/
structure Removes (c c' : Connection) : Prop where
  sessions : c'.tables.sessions = (c.checkRemoveSession env).tables.sessions
  factors : c'.past.factors = c.past.factors

theorem leave_frame (closed : Bool) :
    (c.leave closed).tables = c.tables ∧ (c.leave closed).past = c.past := by
  unfold leave
  split <;> exact ⟨rfl, rfl⟩

variable {c}

theorem taken_of_peerCloses (hc : c.peerCloses i = true) : c.Removes env (c.taken h env i) := by
  cases i with
  | message =>
    simp only [peerCloses, Bool.and_eq_true, beq_iff_eq, decide_eq_true_eq] at hc
    obtain ⟨hp, rfl⟩ := hc
    have hs : c.scopeCloses h env (.message .closeReason) = false := by simp [scopeCloses]
    have hl := leave_frame (c.checkRemoveSession env) true
    have ht : c.taken h env (.message .closeReason) = (c.checkRemoveSession env).leave true := by
      rw [taken, step, if_neg (by rw [hs]; exact Bool.false_ne_true), hp]
      rfl
    rw [ht]
    exact ⟨by rw [hl.1], by rw [hl.2, checkRemoveSession_past]⟩
  | _ => cases hc

theorem taken_of_scopeCloses (hc : c.scopeCloses h env i = true) :
    c.Removes env (c.taken h env i) := by
  have hs : c.step h (env, i) = c.leave true := by
    cases i with
    | message m =>
      simp only [scopeCloses, Bool.and_eq_true, beq_iff_eq, decide_eq_true_eq, Bool.not_eq_true']
        at hc
      obtain ⟨⟨⟨⟨⟨hp, hm⟩, ha⟩, hl⟩, hv⟩, ho⟩ := hc
      have hr : c.onMessage h env m = (c, false) := by simp [onMessage, hm, ha, hl, hv, ho]
      have hx : c.closes h env m = true := by simp [closes, ha, hl, hv, ho]
      rw [step, hp]
      dsimp only [turn]
      rw [hr, hx]
      rfl
    | _ => cases hc
  have hl := leave_frame c true
  have hg := (leave_quiet true c).gate
  rw [taken, if_pos hc, hs]
  refine ⟨?_, by rw [checkRemoveSession_past, hl.2]⟩
  funext key
  rw [checkRemoveSession_sessions, checkRemoveSession_sessions, hg, hl.1]

theorem taken_presents (hp : c.peerCloses i = false) (hs : c.scopeCloses h env i = false)
    (ht : ∀ t, i ≠ .shared t) : c.Presents (c.taken h env i) := by
  have hstep : c.taken h env i = c.step h (env, i) := by
    rw [taken, if_neg (by rw [hs]; exact Bool.false_ne_true)]
  rw [hstep]
  by_cases hm : i = .message .closeReason
  · -- the main loop is over
    subst hm
    have hn : c.phase ≠ .running := by simpa [peerCloses] using hp
    unfold step
    split
    · exact absurd ‹_› hn
    · exact (Keeps.refl c).presents
    · exact (Keeps.refl c).presents
  · exact step_presents h env c hm ht

end Connection

/-! ### The host -/

structure AuthedConn where
  connId : ℕ
  connType : AuthConnType
  sessionKey : SessionKey
  deriving DecidableEq, Repr

/-- All connections of a host, with `SESSIONS` among their tables, and
`AUTHED_CONNS`. History: which connection presented a password, the password
of a session or a code, and for which key. -/
structure Registry where
  conns : ℕ → Connection
  tables : Tables
  authedConns : List AuthedConn := []
  shown : List (ℕ × SessionKey) := []

namespace Registry

variable (h : Host)

inductive Event where
  | input (conn : ℕ) (env : Env) (i : Connection.Input) (own : ∀ t, i ≠ .shared t)
  /-- `send_close_reason_no_retry`: the connection manager, the web console, the
  end of the service or the timer of inactivity closes the connection. -/
  | closeNoRetry (conn : ℕ)
  /-- The forwarding loop ends with an error. -/
  | forwardError (conn : ℕ)
  /-- The sessions outside `alive` have not been heard of for too long. -/
  | expire (alive : SessionKey → Bool)
  /-- The other tables change. -/
  | outside (switchSidesUuid : String → Option ℕ) (trustedDevices : List TrustedDevice)

def current (conn : ℕ) (s : Registry) : Connection := { s.conns conn with tables := s.tables }

/-- Another authorized remote connection has the key of connection `conn`. -/
def anotherRemote (conn : ℕ) (s : Registry) : Bool :=
  s.authedConns.any fun a =>
    a.connId ≠ conn && a.sessionKey = (s.conns conn).gate.sessionKey && a.connType = .remote

def envOf (conn : ℕ) (env : Env) (s : Registry) : Env :=
  { env with anotherRemote := s.anotherRemote conn }

/-- Connection `conn` has become `c`. It is in `AUTHED_CONNS` from the time it
is authorized, with the key it then has, until it ends. -/
def settle (conn : ℕ) (c : Connection) (s : Registry) : Registry where
  conns k := if k = conn then c else s.conns k
  tables := c.tables
  authedConns :=
    let authedConns := match (s.conns conn).gate.authedConnType, c.gate.authedConnType with
      | none, some t => s.authedConns ++ [⟨conn, t, c.gate.sessionKey⟩]
      | _, _ => s.authedConns
    if c.phase = .closed then authedConns.filter (·.connId ≠ conn) else authedConns
  shown :=
    if ((s.conns conn).gained c).any Factor.presented then (conn, c.gate.sessionKey) :: s.shown
    else s.shown

/-- A connection in the loop `phase` is closed with no retry. -/
def closeIn (phase : Phase) (conn : ℕ) (s : Registry) : Registry :=
  if (s.conns conn).phase = phase then
    s.settle conn ((s.current conn).checkRemoveSession (s.envOf conn {})).close
  else s

def step (s : Registry) : Event → Registry
  | .input conn env i _ =>
    s.settle conn ((s.current conn).taken h (s.envOf conn env) i)
  | .closeNoRetry conn => s.closeIn .running conn
  | .forwardError conn => s.closeIn .forwarding conn
  | .expire alive =>
    { s with tables := { s.tables with
        sessions := fun key => if alive key then s.tables.sessions key else none } }
  | .outside switchSidesUuid trustedDevices =>
    { s with tables := { s.tables with
        switchSidesUuid := switchSidesUuid, trustedDevices := trustedDevices } }

/-! ### Protection -/

def Event.conn : Event → Option ℕ
  | .input conn _ _ _ => some conn
  | .closeNoRetry conn => some conn
  | .forwardError conn => some conn
  | _ => none

def Event.Expires (key : SessionKey) : Event → Prop
  | .expire alive => alive key = false
  | _ => False

/-- No entry changes but by expiry, or by a connection that presented a
password, the password of a session or a code for its key. -/
def Protects (s : Registry) (e : Event) : Prop :=
  ∀ key, (s.step h e).tables.sessions key = s.tables.sessions key ∨ e.Expires key ∨
    ∃ conn, e.conn = some conn ∧ (conn, key) ∈ (s.step h e).shown

def closing (s : Registry) : Event → Option ℕ
  | .input conn env i _ =>
    if (s.current conn).peerCloses i || (s.current conn).scopeCloses h (s.envOf conn env) i then
      some conn
    else none
  | .closeNoRetry conn => if (s.conns conn).phase = .running then some conn else none
  | .forwardError conn => if (s.conns conn).phase = .forwarding then some conn else none
  | _ => none

/-- A connection that presented nothing for its key is closed with no retry
and takes the entry along: it is an authorized remote one, or no other one
that has the key is. -/
def Intrudes (s : Registry) (e : Event) : Prop :=
  ∃ conn, s.closing h e = some conn ∧
    s.tables.sessions (s.conns conn).gate.sessionKey ≠ none ∧
    (conn, (s.conns conn).gate.sessionKey) ∉ s.shown ∧
    ((s.conns conn).gate.authedConnType = some .remote ∨ s.anotherRemote conn = false)

variable {h} {s : Registry}

variable {conn : ℕ} {c : Connection} {e : Event}

theorem settle_presents (hp : (s.current conn).Presents c) (key : SessionKey) :
    (s.settle conn c).tables.sessions key = s.tables.sessions key ∨
      (conn, key) ∈ (s.settle conn c).shown := by
  rcases hp.sessions key with he | ⟨he, hg⟩
  · exact .inl he
  · right
    rw [settle, if_pos (show ((s.conns conn).gained c).any Factor.presented = true from hg), he]
    exact List.mem_cons_self

/-- A close with no retry protects the entries exactly if it takes none, or
one for which the connection presented something. -/
theorem settle_removes {env : Env} (hr : (s.current conn).Removes (s.envOf conn env) c) :
    (∀ key, (s.settle conn c).tables.sessions key = s.tables.sessions key ∨
      (conn, key) ∈ (s.settle conn c).shown) ↔
    ¬ (s.tables.sessions (s.conns conn).gate.sessionKey ≠ none ∧
      (conn, (s.conns conn).gate.sessionKey) ∉ s.shown ∧
      ((s.conns conn).gate.authedConnType = some .remote ∨ s.anotherRemote conn = false)) := by
  have hshown : (s.settle conn c).shown = s.shown := by
    have hg : (s.conns conn).gained c = [] := by
      rw [Connection.gained, hr.factors]
      exact List.drop_length
    rw [settle, hg]
    rfl
  have hsessions : ∀ key, (s.settle conn c).tables.sessions key =
      if key = (s.conns conn).gate.sessionKey ∧
        ((s.conns conn).gate.authedConnType = some .remote ∨ s.anotherRemote conn = false)
      then none else s.tables.sessions key := fun key =>
    (congrFun hr.sessions key).trans (Connection.checkRemoveSession_sessions _ _ key)
  rw [hshown]
  constructor
  · rintro hall ⟨hentry, hnot, hguard⟩
    rcases hall (s.conns conn).gate.sessionKey with he | he
    · rw [hsessions, if_pos ⟨rfl, hguard⟩] at he
      exact hentry he.symm
    · exact hnot he
  · intro hn key
    rw [hsessions]
    split_ifs with hk
    · obtain ⟨rfl, hguard⟩ := hk
      by_cases hentry : s.tables.sessions (s.conns conn).gate.sessionKey = none
      · exact .inl hentry.symm
      · exact .inr (not_not.1 fun hnot => hn ⟨hentry, hnot, hguard⟩)
    · exact .inl rfl

theorem protects_of_conn (e : Event) (hc : e.conn = some conn) (hx : ∀ key, ¬ e.Expires key) :
    Protects h s e ↔ ∀ key, (s.step h e).tables.sessions key = s.tables.sessions key ∨
      (conn, key) ∈ (s.step h e).shown := by
  refine forall_congr' fun key => or_congr_right ?_
  constructor
  · rintro (he | ⟨k, hk, hm⟩)
    · exact absurd he (hx key)
    · obtain rfl : conn = k := Option.some.inj (hc.symm.trans hk)
      exact hm
  · intro hm
    exact .inr ⟨conn, hc, hm⟩

theorem intrudes_of_closing (hc : s.closing h e = some conn) :
    Intrudes h s e ↔ s.tables.sessions (s.conns conn).gate.sessionKey ≠ none ∧
      (conn, (s.conns conn).gate.sessionKey) ∉ s.shown ∧
      ((s.conns conn).gate.authedConnType = some .remote ∨ s.anotherRemote conn = false) := by
  constructor
  · rintro ⟨k, hk, hi⟩
    obtain rfl : conn = k := Option.some.inj (hc.symm.trans hk)
    exact hi
  · intro hi
    exact ⟨conn, hc, hi⟩

theorem not_intrudes_of_open (hc : s.closing h e = none) : ¬ Intrudes h s e := by
  rintro ⟨k, hk, -⟩
  simp [hc] at hk

theorem protects_closeIn {phase : Phase} (e : Event) (hc : e.conn = some conn)
    (hx : ∀ key, ¬ e.Expires key) (hstep : s.step h e = s.closeIn phase conn)
    (hclosing : s.closing h e = if (s.conns conn).phase = phase then some conn else none) :
    Protects h s e ↔ ¬ Intrudes h s e := by
  rw [protects_of_conn e hc hx, hstep]
  unfold closeIn
  by_cases hp : (s.conns conn).phase = phase
  · rw [if_pos hp] at hclosing ⊢
    rw [intrudes_of_closing hclosing]
    have hr : (s.current conn).Removes (s.envOf conn {})
        ((s.current conn).checkRemoveSession (s.envOf conn {})).close :=
      ⟨rfl, congrArg Past.factors (Connection.checkRemoveSession_past _ _)⟩
    exact settle_removes hr
  · rw [if_neg hp] at hclosing ⊢
    exact iff_of_true (fun _ => .inl rfl) (not_intrudes_of_open hclosing)

theorem protects_input (conn : ℕ) (env : Env) (i : Connection.Input) (own : ∀ t, i ≠ .shared t) :
    Protects h s (.input conn env i own) ↔ ¬ Intrudes h s (.input conn env i own) := by
  rw [protects_of_conn (.input conn env i own) rfl fun _ => id]
  by_cases hends : ((s.current conn).peerCloses i ||
      (s.current conn).scopeCloses h (s.envOf conn env) i) = true
  · have hc : s.closing h (.input conn env i own) = some conn := if_pos hends
    rw [intrudes_of_closing hc]
    have hr : (s.current conn).Removes (s.envOf conn env)
        ((s.current conn).taken h (s.envOf conn env) i) := by
      rw [Bool.or_eq_true] at hends
      rcases hends with hp | hv
      · exact Connection.taken_of_peerCloses h _ hp
      · exact Connection.taken_of_scopeCloses h _ hv
    exact settle_removes hr
  · have hc : s.closing h (.input conn env i own) = none := if_neg hends
    simp only [Bool.or_eq_true, not_or, Bool.not_eq_true] at hends
    have hp := Connection.taken_presents h _ hends.1 hends.2 own
    exact iff_of_true (settle_presents hp) (not_intrudes_of_open hc)

theorem protects_iff (e : Event) : Protects h s e ↔ ¬ Intrudes h s e := by
  cases e with
  | input conn env i own => exact protects_input conn env i own
  | closeNoRetry conn => exact protects_closeIn (.closeNoRetry conn) rfl (fun _ => id) rfl rfl
  | forwardError conn => exact protects_closeIn (.forwardError conn) rfl (fun _ => id) rfl rfl
  | expire alive =>
    refine iff_of_true (fun key => ?_) (not_intrudes_of_open rfl)
    cases ha : alive key with
    | false => exact .inr (.inl ha)
    | true => exact .inl (if_pos ha)
  | outside =>
    exact iff_of_true (fun key => .inl rfl) (not_intrudes_of_open rfl)

/-- **Whose session is touched.** Along a run of any number of connections
every step leaves every entry as it is, but for expiry and for a connection
that presented something for the key of the entry, exactly if no connection
that presented nothing for its key is closed with no retry while an entry of
that key is there and either the connection is an authorized remote one or no
other authorized remote one has the key. -/
theorem sessions_protected (h : Host) (s : Registry) (es : List Event) :
    Run.Meets (step h) (Protects h) s es ↔ Run.Meets (step h) (fun s e => ¬ Intrudes h s e) s es :=
  Run.meets_congr fun _ e _ => protects_iff e

def fresh : Registry where
  conns _ := .start .desktop {} none false [] {}
  tables := {}

/-- A login request of the peer "peer" on connection `conn`; the temporary
password is "k7m2xq". -/
def login (conn : ℕ) (password : String) : Event :=
  .input conn { temporaryPassword := "k7m2xq" }
    (.message (.loginRequest { username := "host", myId := "peer"
                               password := Host.desktop.passwordHash password })) (by simp)

def peerClose (conn : ℕ) : Event := .input conn {} (.message .closeReason) (by simp)

def lost (conn : ℕ) : Event := .input conn {} .stop (by simp)

/-- **A stranger ends the session of a peer.** The peer logs in with the
temporary password and loses the connection; its session stays, to come back
to. Connection 1 claims the same id, name and session id with a wrong
password, is not let in, and sends `CloseReason`: the session is gone. -/
theorem stranger_removes_session :
    let s := Run.run (step .desktop) fresh [login 0 "k7m2xq", lost 0, login 1 "guess"]
    s.tables.sessions ⟨"peer", "", 0⟩ = some ⟨"k7m2xq", false⟩ ∧
      (s.conns 1).gate.authorized = false ∧ (s.conns 1).past.factors = [] ∧
      s.shown = [(0, ⟨"peer", "", 0⟩)] ∧
      (s.step .desktop (peerClose 1)).tables.sessions ⟨"peer", "", 0⟩ = none ∧
      (s.step .desktop (peerClose 1)).shown = [(0, ⟨"peer", "", 0⟩)] := by
  decide +kernel

end Registry
end CodeDesk.Conn
