/-
# What a request does to a connection

A login request either closes the connection or gives it the scope it asks
for (`ScopeOf`), and then it is refused, brought before the connection
manager, or ends in the logon (`Reached`). Only four inputs touch the login
at all (`Acts`): the login request, the code of the second factor, the
switch of sides and the click; every other turn is `Quiet`.
-/
import CodeDesk.Conn.Logon

namespace CodeDesk.Conn

namespace LoginRequest

def fileTransfer (lr : LoginRequest) : Option (String × Bool) :=
  match lr.union with
  | some (.fileTransfer dir showHidden) => some (dir, showHidden)
  | _ => none

def connType (lr : LoginRequest) : AuthConnType :=
  match lr.union with
  | some (.fileTransfer _ _) => .fileTransfer
  | some .viewCamera => .viewCamera
  | some (.terminal _) => .terminal
  | some (.portForward _ _) => .portForward
  | none => .remote

end LoginRequest

namespace Connection

variable (h : Host) (env : Env)

/-- `c'` is `c` after the login request was stored. The second factor can be
settled by it, for a trusted device. -/
structure Received (lr : LoginRequest) (c c' : Connection) : Prop where
  request : c'.gate.lr = lr
  authorized : c'.gate.authorized = c.gate.authorized
  authedConnType : c'.gate.authedConnType = c.gate.authedConnType
  socket : c'.gate.portForwardSocket = c.gate.portForwardSocket
  fromSwitch : c'.gate.fromSwitch = c.gate.fromSwitch
  primaryAuth : c'.gate.connAuditPrimaryAuth = c.gate.connAuditPrimaryAuth
  second : c'.gate.require2fa = c.gate.require2fa ∨ .trustedDevice ∈ c'.past.factors
  factors : c.past.factors ⊆ c'.past.factors
  server : c'.feed.server = c.feed.server
  voiceCalling : c'.feed.voiceCalling = c.feed.voiceCalling
  logins : c'.logins = c.logins

structure SameScope (c c' : Connection) : Prop where
  fileTransfer : c'.gate.fileTransfer = c.gate.fileTransfer
  viewCamera : c'.gate.viewCamera = c.gate.viewCamera
  terminal : c'.gate.terminal = c.gate.terminal
  address : c'.gate.portForwardAddress = c.gate.portForwardAddress
  checked : c'.past.checked = c.past.checked

/-- The scope of the session is the one `lr` asks for, and its permission was
checked for `lr`. -/
structure ScopeOf (lr : LoginRequest) (c : Connection) : Prop where
  request : c.gate.lr = lr
  fileTransfer : c.gate.fileTransfer = lr.fileTransfer
  viewCamera : c.gate.viewCamera = decide (lr.connType = .viewCamera)
  terminal : c.gate.terminal = decide (lr.connType = .terminal)
  address : c.gate.portForwardAddress = lr.target.getD ""
  checked : lr.connType ≠ .remote → c.past.checked = some (lr.connType, lr)

variable {lr : LoginRequest} {c c' b : Connection} {errMsg : String} {i : Input}
  {r : Connection × Bool}

theorem SameScope.refl (c : Connection) : SameScope c c := ⟨rfl, rfl, rfl, rfl, rfl⟩

theorem ScopeOf.same (hs : ScopeOf lr c) (hlr : c'.gate.lr = c.gate.lr := by rfl)
    (hc : SameScope c c' := by constructor <;> rfl) : ScopeOf lr c' where
  request := hlr.trans hs.request
  fileTransfer := hc.fileTransfer.trans hs.fileTransfer
  viewCamera := hc.viewCamera.trans hs.viewCamera
  terminal := hc.terminal.trans hs.terminal
  address := hc.address.trans hs.address
  checked := fun hr => hc.checked.trans (hs.checked hr)

theorem handleLogin_received (lr : LoginRequest) (c : Connection) :
    Received lr c (c.handleLoginRequestWithoutValidation env lr) := by
  unfold handleLoginRequestWithoutValidation
  dsimp only
  split
  · constructor <;> first | rfl | exact List.subset_append_left _ _ | skip
    right
    exact List.mem_append_right _ (List.mem_singleton.2 rfl)
  · constructor <;> first | rfl | exact List.Subset.refl _ | exact .inl rfl

theorem handleLogin_sameScope (lr : LoginRequest) (c : Connection) :
    SameScope c (c.handleLoginRequestWithoutValidation env lr) := by
  unfold handleLoginRequestWithoutValidation
  dsimp only
  split <;> exact ⟨rfl, rfl, rfl, rfl, rfl⟩

theorem handleLogin_frame (lr : LoginRequest) (c : Connection) :
    (c.handleLoginRequestWithoutValidation env lr).tables = c.tables ∧
      c.past.factors <+: (c.handleLoginRequestWithoutValidation env lr).past.factors := by
  unfold handleLoginRequestWithoutValidation
  dsimp only
  split
  · exact ⟨rfl, List.prefix_append _ _⟩
  · exact ⟨rfl, List.prefix_rfl⟩

/-! ### The scope of a login request -/

theorem Received.reset (hr : Received lr c c') : Received lr c c'.resetSessionScopeForLogin :=
  { hr with }

theorem Received.reply (hr : Received lr c c') (r : Reply) : Received lr c (c'.reply r) :=
  { hr with }

theorem loginScope_received (hr : Received lr c b) : Received lr c (b.loginScope h env lr).1 := by
  unfold loginScope
  dsimp only
  split
  case h_5 => split <;> first | exact hr | exact hr.reply _
  case h_3 =>
    split
    · exact hr.reply _
    · split
      · exact hr.reply _
      · exact { hr with }
  all_goals
    split
    · exact hr.reply _
    · exact { hr with }

theorem loginScope_scopeOf (hlr : b.gate.lr = lr)
    (hk : (b.resetSessionScopeForLogin.loginScope h env lr).2 = true) :
    ScopeOf lr (b.resetSessionScopeForLogin.loginScope h env lr).1 := by
  unfold loginScope at *
  rcases hu : lr.union with _ | (⟨dir, showHidden⟩ | _ | serviceId | ⟨host, port⟩) <;>
    simp only [hu] at hk ⊢
  all_goals
    split at hk
    · cases hk
    rename_i hp
    rw [if_neg hp]
    -- only a terminal is held to a second check
    try
      split_ifs at hk with hi
      rw [if_neg hi]
    constructor <;> simp [LoginRequest.fileTransfer, LoginRequest.connType, LoginRequest.target,
      hu, resetSessionScopeForLogin, hlr, passed]

/-! ### The password stage and before -/

def primaryProved (a : ConnAuditPrimaryAuth) (t : Tables) (x : Factor) (c : Connection) :
    Connection :=
  ({ c with gate := { c.gate with connAuditPrimaryAuth := a }, tables := t } : Connection).proved x

def Factor.isPassword : Factor → Prop
  | .password => True
  | .recentSession => True
  | _ => False

/-- Nothing holds the request up before it reaches the connection manager: the
desktop is up and no failure limit stands against the peer. -/
def Unhindered (lr : LoginRequest) : Prop :=
  (h.linux = true → env.desktopErr = "") ∧
    (h.linux = true → env.isHeadlessAllowed = true → blank lr.osUsername = false →
      env.headlessBlock = none) ∧
    (clickOnly env = false → lr.password ≠ [] → env.passwordBlock = none)

inductive Reached (lr : LoginRequest) (b : Connection) : Connection × Bool → Prop
  | refused (text : String) : ¬ Unhindered h env lr → Reached lr b (b.sendLoginError env text, true)
  | notReady (a : ConnAuditPrimaryAuth) (t : Tables) (x : Factor) (text : String) :
      ¬ Unhindered h env lr → a ≠ .none → Factor.isPassword x →
      Reached lr b ((b.primaryProved a t x).sendLoginError env text, true)
  | stopped (c : Connection) : Prepared b c → Reached lr b (c, false)
  | asked (c : Connection) (rs : List Reply) : Prepared b c → SameScope b c →
      c.gate.portForwardSocket = b.gate.portForwardSocket →
      Reached lr b ({ c.tryStartCm lr.myId lr.myName false with replies := rs }, true)
  | logon (a : ConnAuditPrimaryAuth) (t : Tables) (x : Factor) : a ≠ .none → Factor.isPassword x →
      Reached lr b ((b.primaryProved a t x).logonAndStartCm h env lr.myId lr.myName)

theorem askConnectionManager_cases (lr : LoginRequest) (b : Connection) :
    (∃ c, Prepared b c ∧ b.askConnectionManager h env lr = (c, false)) ∨
      ∃ c, Prepared b c ∧ SameScope b c ∧ c.gate.portForwardSocket = b.gate.portForwardSocket ∧
        b.askConnectionManager h env lr = (c.tryStartCm lr.myId lr.myName false, true) := by
  unfold askConnectionManager
  split_ifs with hs
  · have hp := prepareTerminalLogin_readied h env b
    have hk := fun k => prepareTerminalLogin_some h env (c := b) (k := k)
    rcases hb : b.prepareTerminalLogin h env with ⟨c, k⟩
    rw [hb] at hp hk
    cases k with
    | some k =>
      obtain rfl := hk k rfl
      exact .inl ⟨c, hp.toPrepared, rfl⟩
    | none => exact .inr ⟨c, hp.toPrepared, { hp with }, hp.socket, rfl⟩
  · exact .inr ⟨b, .refl b, .refl b, rfl, rfl⟩

theorem validatePassword_cases (b : Connection) : b.validatePassword h env = (b, false) ∨
      ∃ a t, a ≠ .none ∧ b.validatePassword h env = (b.primaryProved a t .password, true) := by
  unfold validatePassword
  split
  · exact .inr ⟨.temporaryPassword, _, by decide, rfl⟩
  · split
    · exact .inr ⟨.permanentPassword, _, by decide, rfl⟩
    · exact .inl rfl

theorem isRecentSession_cases (b : Connection) : b.isRecentSession h false = (b, false) ∨
      ∃ a t, a ≠ .none ∧
        b.isRecentSession h false = (b.primaryProved a t .recentSession, true) := by
  unfold isRecentSession
  split
  · exact .inr ⟨.temporaryPassword, b.tables, by decide, rfl⟩
  · exact .inl rfl

theorem passwordLogin_reached (b : Connection) (hc : clickOnly env = false) (hp : lr.password ≠ [])
    (he : Unhindered h env lr → errMsg = "") :
    Reached h env lr b (b.passwordLogin h env errMsg lr) := by
  unfold passwordLogin
  cases hb : env.passwordBlock with
  | some => exact .refused _ fun hu => nomatch hb.symm.trans (hu.2.2 hc hp)
  | none =>
    rcases validatePassword_cases h env b with hv | ⟨a, t, ha, hv⟩ <;> rw [hv] <;> dsimp only <;>
      split_ifs with hm
    · exact .asked b _ (.refl b) (.refl b) rfl
    · exact .refused _ fun hu => hm (he hu)
    · exact .logon a t .password ha trivial
    · exact .notReady a t .password _ (fun hu => hm (he hu)) ha trivial

theorem authenticate_reached (b : Connection) (he : Unhindered h env lr → errMsg = "") :
    Reached h env lr b (b.authenticate h env errMsg lr) := by
  unfold authenticate
  by_cases hc : clickOnly env = true
  · rw [if_pos hc]
    rcases askConnectionManager_cases h env lr b with ⟨c, hp, hq⟩ | ⟨c, hp, hs, ht, hq⟩ <;> rw [hq]
    · exact .stopped c hp
    · dsimp only
      split
      · exact .asked c _ hp hs ht
      · exact .asked c c.replies hp hs ht
  · rw [if_neg hc]
    have hc : clickOnly env = false := by simpa using hc
    rcases isRecentSession_cases h b with hr | ⟨a, t, ha, hr⟩
    · rw [hr]
      dsimp only
      split_ifs with hp hm
      · rcases askConnectionManager_cases h env lr b with ⟨c, hp, hq⟩ | ⟨c, hp, hs, ht, hq⟩ <;>
          rw [hq]
        · exact .stopped c hp
        · exact .asked c c.replies hp hs ht
      · exact .refused _ fun hu => hm (he hu)
      · exact passwordLogin_reached h env b hc hp he
    · rw [hr]
      dsimp only
      split_ifs with hm
      · exact .logon a t .recentSession ha trivial
      · exact .notReady a t .recentSession _ (fun hu => hm (he hu)) ha trivial

theorem startDesktop_reached (lr : LoginRequest) (b : Connection) :
    Reached h env lr b (b.startDesktop h env lr) := by
  unfold startDesktop
  dsimp only
  split
  · rename_i hb
    simp only [Bool.and_eq_true, Bool.not_eq_true', decide_eq_true_eq] at hb
    refine .refused _ fun hu => ?_
    have := hu.2.1 hb.1.1.1.1 hb.1.1.1.2 hb.1.1.2
    rw [this] at hb
    cases hb.2
  · have he : Unhindered h env lr → (if h.linux = true then env.desktopErr else "") = "" := by
      intro hu
      split
      · exact hu.1 ‹_›
      · rfl
    generalize (if h.linux = true then env.desktopErr else "") = errMsg at he ⊢
    split
    · rename_i hm
      simp only [Bool.and_eq_true, decide_eq_true_eq] at hm
      have hn : ¬ Unhindered h env lr := fun hu => hm.1 (he hu)
      split
      · split <;> exact .refused _ hn
      · exact .refused _ hn
    · exact authenticate_reached h env b he

inductive LoginResult (lr : LoginRequest) (c : Connection) : Connection × Bool → Prop
  | closed (c' : Connection) : Received lr c c' → LoginResult lr c (c', false)
  | reached (b : Connection) (r : Connection × Bool) : Received lr c b → ScopeOf lr b →
      Reached h env lr b r → LoginResult lr c r

theorem loginRequest_result (lr : LoginRequest) (c : Connection) :
    LoginResult h env lr c (c.loginRequest h env lr) := by
  unfold loginRequest
  dsimp only
  have hr := handleLogin_received env lr c
  have hb := loginScope_received h env hr.reset
  have hs := loginScope_scopeOf h env hr.request
  rcases hl : (c.handleLoginRequestWithoutValidation env lr).resetSessionScopeForLogin.loginScope
    h env lr with ⟨b, k⟩
  rw [hl] at hb hs
  cases k with
  | false => exact .closed b hb
  | true =>
    dsimp only
    split
    · exact .closed _ (hb.reply _)
    · split
      · exact .closed _ (hb.reply _)
      · exact .reached b _ hb (hs rfl) (startDesktop_reached h env lr b)

/-! ### Which inputs touch the login -/

/-- The login, its history and what the connection manager was shown are the
same. -/
structure Quiet (c c' : Connection) : Prop where
  gate : c'.gate = c.gate
  past : c'.past = c.past
  logins : c'.logins = c.logins

/-- The input is one of the four that touch the login; `r` is the result of
its handler. -/
inductive Acts (c : Connection) : Input → Connection × Bool → Prop
  | login (lr : LoginRequest) : c.gate.authorized = false →
      Acts c (.message (.loginRequest lr)) (c.loginRequest h env lr)
  | code (code : String) (hwid : Bytes) :
      Acts c (.message (.auth2fa code hwid)) (c.auth2fa h env code hwid)
  | sides (lr : Option LoginRequest) (uuid : Option ℕ) :
      (c.gate.authorized = true →
        c.authorizedScopeViolation h (.switchSidesResponse lr uuid) = false) →
      Acts c (.message (.switchSidesResponse lr uuid)) (c.switchSidesResponse h env lr uuid)
  | click : Acts c .authorize (c.authorize h env)

/-- What none of the four changes on an authorized connection. -/
structure Settled (c c' : Connection) : Prop where
  authorized : c'.gate.authorized = c.gate.authorized
  authedConnType : c'.gate.authedConnType = c.gate.authedConnType
  socket : c'.gate.portForwardSocket = c.gate.portForwardSocket
  scope : SameScope c c'
  feed : c'.feed = c.feed
  logins : c.logins <+: c'.logins

/-- The login and the feed are the same: at most a reply was sent or a table of
the host was changed. -/
structure Aside (c c' : Connection) : Prop extends Quiet c c' where
  feed : c'.feed = c.feed

def codeProved (c : Connection) : Connection :=
  (({ c with gate := { c.gate with require2fa := false, connAuditTwoFactor := .totp } } :
    Connection).proved .totp).setSession2fa

/-- A code is answered, or it is accepted and the logon follows. -/
inductive CodeResult (code : String) (c : Connection) : Connection × Bool → Prop
  | answered (c' : Connection) : Aside c c' → CodeResult code c (c', true)
  | accepted (c' : Connection) (k : Bool) : c.gate.require2fa = true →
      env.checkCurrent code = some true →
      (c.codeProved.logonAndStartCm h env c.gate.lr.myId c.gate.lr.myName).2 = k →
      Aside (c.codeProved.logonAndStartCm h env c.gate.lr.myId c.gate.lr.myName).1 c' →
      CodeResult code c (c', k)

theorem auth2fa_result (code : String) (hwid : Bytes) (c : Connection) :
    CodeResult h env code c (c.auth2fa h env code hwid) := by
  have hself : Aside c c := ⟨⟨rfl, rfl, rfl⟩, rfl⟩
  unfold auth2fa
  cases env.codeBlock with
  | some => exact .answered _ ⟨⟨rfl, rfl, rfl⟩, rfl⟩
  | none =>
    dsimp only
    split
    case isFalse => exact .answered _ hself
    case isTrue hr =>
      cases hc : env.checkCurrent code with
      | none => exact .answered _ hself
      | some res =>
        cases res with
        | false => exact .answered _ ⟨⟨rfl, rfl, rfl⟩, rfl⟩
        | true =>
          dsimp only
          split
          · rename_i d hd
            have hd : c.codeProved.logonAndStartCm h env c.gate.lr.myId c.gate.lr.myName =
              (d, false) := hd
            refine .accepted d false hr hc ?_ ?_ <;> rw [hd]
            exact ⟨⟨rfl, rfl, rfl⟩, rfl⟩
          · rename_i d hd
            have hd : c.codeProved.logonAndStartCm h env c.gate.lr.myId c.gate.lr.myName =
              (d, true) := hd
            refine .accepted _ true hr hc ?_ ?_ <;> rw [hd]
            split <;> exact ⟨⟨rfl, rfl, rfl⟩, rfl⟩

theorem Settled.refl (c : Connection) : Settled c c :=
  ⟨rfl, rfl, rfl, .refl c, rfl, List.prefix_rfl⟩

theorem Aside.settled {d d' : Connection} (ha : Aside d d') (hs : Settled c d) : Settled c d' := by
  obtain ⟨⟨hg, hp, hl⟩, hf⟩ := ha
  refine ⟨?_, ?_, ?_, ⟨?_, ?_, ?_, ?_, ?_⟩, hf.trans hs.feed, hl ▸ hs.logins⟩ <;>
    first | rw [hg] | rw [hp]
  exacts [hs.authorized, hs.authedConnType, hs.socket, hs.scope.fileTransfer, hs.scope.viewCamera,
    hs.scope.terminal, hs.scope.address, hs.scope.checked]

theorem handleLogin_settled (lr : LoginRequest) (c : Connection) :
    Settled c (c.handleLoginRequestWithoutValidation env lr) := by
  have hr := handleLogin_received env lr c
  refine { hr with scope := handleLogin_sameScope env lr c, feed := ?_, logins := hr.logins ▸ List.prefix_rfl }
  unfold handleLoginRequestWithoutValidation
  dsimp only
  split <;> rfl

section

variable (ha : c.gate.authorized = true)

include ha

theorem logonAndStartCm_of_authorized (peerId name : String) :
    c.logonAndStartCm h env peerId name = (c.tryStartCm peerId name true, true) := by
  rw [logonAndStartCm_eq]
  unfold sendLogonResponseAndKeepAlive
  simp [ha]

theorem auth2fa_of_authorized (code : String) (hwid : Bytes) :
    Settled c (c.auth2fa h env code hwid).1 ∧ (c.auth2fa h env code hwid).1.gate.lr = c.gate.lr := by
  have hl := auth2fa_result h env code hwid c
  generalize c.auth2fa h env code hwid = r at hl ⊢
  cases hl with
  | answered c' hc => exact ⟨hc.settled (.refl c), by rw [hc.gate]⟩
  | accepted c' k _ _ _ hc =>
    rw [logonAndStartCm_of_authorized h env (c := c.codeProved) ha] at hc
    refine ⟨hc.settled ⟨rfl, rfl, rfl, ⟨rfl, rfl, rfl, rfl, rfl⟩, rfl, List.prefix_append _ _⟩, ?_⟩
    rw [hc.gate]
    rfl

theorem switchSidesResponse_of_authorized (lr : Option LoginRequest) (uuid : Option ℕ) :
    Settled c (c.switchSidesResponse h env lr uuid).1 ∧
      ((c.switchSidesResponse h env lr uuid).1.gate.lr = c.gate.lr ∨
        some (c.switchSidesResponse h env lr uuid).1.gate.lr = lr) := by
  unfold switchSidesResponse
  cases lr with
  | none => exact ⟨.refl c, .inl rfl⟩
  | some lr =>
    dsimp only
    split
    · have hs := handleLogin_settled env lr c
      have hr := (handleLogin_received env lr c).request
      split
      · rw [logonAndStartCm_of_authorized]
        · exact ⟨{ hs with
            scope := { hs.scope with }
            logins := hs.logins.trans (List.prefix_append _ _) }, .inr (congrArg some hr)⟩
        · exact hs.authorized.trans ha
      · exact ⟨{ hs with scope := { hs.scope with } }, .inr (congrArg some hr)⟩
    · exact ⟨.refl c, .inl rfl⟩

theorem authorize_of_authorized :
    Settled c (c.authorize h env).1 ∧ (c.authorize h env).1.gate.lr = c.gate.lr := by
  rw [authorize, sendLogonResponseAndKeepAlive, if_pos (by exact ha)]
  exact ⟨⟨rfl, rfl, rfl, ⟨rfl, rfl, rfl, rfl, rfl⟩, rfl, List.prefix_rfl⟩, rfl⟩

/-- On an authorized connection the four inputs change neither the type nor the
scope nor what it is fed. -/
theorem Acts.settled (hr : Acts h env c i r) : Settled c r.1 := by
  cases hr with
  | login lr hn => cases ha.symm.trans hn
  | code code hwid => exact (auth2fa_of_authorized h env ha code hwid).1
  | sides lr uuid => exact (switchSidesResponse_of_authorized h env ha lr uuid).1
  | click => exact (authorize_of_authorized h env ha).1

end

theorem authorizedMessage_feed (m : Message) (c : Connection) :
    ∃ f, (c.authorizedMessage h env m).1 = { c with feed := f } := by
  unfold authorizedMessage
  dsimp only
  repeat' split
  all_goals exact ⟨_, rfl⟩

theorem leave_quiet (closed : Bool) (c : Connection) : Quiet c (c.leave closed) := by
  unfold leave
  split <;> exact ⟨rfl, rfl, rfl⟩

theorem leave_phase (closed : Bool) (c : Connection) : (c.leave closed).phase ≠ .running := by
  unfold leave close
  split <;> simp

theorem goOn_quiet (closed : Bool) (forwards : Connection → Bool) (r : Connection × Bool) :
    Quiet r.1 (goOn closed forwards r) := by
  unfold goOn
  split
  · exact ⟨rfl, rfl, rfl⟩
  · exact leave_quiet closed r.1

theorem goOn_phase {closed : Bool} {forwards : Connection → Bool}
    (hr : (goOn closed forwards r).phase = .running) : r.2 = true := by
  unfold goOn at hr
  split at hr
  · simp_all
  · exact absurd hr (leave_phase closed r.1)

/-- What becomes of a message: it changes at most the shared tables and the
delay test, it is one for an authorized session, or it is one of the four. -/
inductive Handled (c : Connection) (m : Message) : Connection × Bool → Prop
  | idle (t : Tables) (d k : Bool) : Handled c m ({ c with tables := t, lastTestDelay := d }, k)
  | served : c.authorizedScopeViolation h m = false → Handled c m (c.authorizedMessage h env m)
  | acted (r : Connection × Bool) : Acts h env c (.message m) r → Handled c m r

theorem onMessage_handled (m : Message) (c : Connection) :
    Handled h env c m (c.onMessage h env m) := by
  unfold onMessage
  split
  · unfold checkRemoveSession
    split
    · exact .idle _ c.lastTestDelay false
    · exact .idle c.tables c.lastTestDelay false
  split
  · exact .idle c.tables c.lastTestDelay true
  rename_i hl
  split
  · exact .idle c.tables c.lastTestDelay _
  rename_i hv
  have hv : c.gate.authorized = true → c.authorizedScopeViolation h m = false := by
    intro ha
    simpa [ha] using hv
  cases m with
  | loginRequest lr =>
    refine .acted _ (.login lr ?_)
    simpa [isLoginRequest] using hl
  | auth2fa code hwid => exact .acted _ (.code code hwid)
  | switchSidesResponse lr uuid => exact .acted _ (.sides lr uuid hv)
  | testDelay fromClient =>
    cases fromClient with
    | true => exact .idle c.tables c.lastTestDelay true
    | false => exact .idle c.tables false true
  | _ =>
    unfold handleMessage
    dsimp only
    split
    · rename_i ha
      exact .served (hv ha)
    · exact .idle c.tables c.lastTestDelay true

theorem onMessage_acts (m : Message) (c : Connection) :
    Quiet c (c.onMessage h env m).1 ∨ Acts h env c (.message m) (c.onMessage h env m) := by
  have hh := onMessage_handled h env m c
  generalize c.onMessage h env m = r at hh ⊢
  cases hh with
  | idle => exact .inl ⟨rfl, rfl, rfl⟩
  | served =>
    obtain ⟨f, hf⟩ := authorizedMessage_feed h env m c
    rw [hf]
    exact .inl ⟨rfl, rfl, rfl⟩
  | acted r ha => exact .inr ha

/-- One turn either leaves the login alone, or it is one of the four inputs
and ends with what the handler left; a handler that does not keep the
connection alive ends the main loop. -/
theorem step_acts (c : Connection) (x : Env × Input) :
    (Quiet c (c.step h x) ∧ ((c.step h x).phase = .running → c.phase = .running)) ∨
      c.phase = .running ∧ ∃ r, Acts h x.1 c x.2 r ∧ Quiet r.1 (c.step h x) ∧
        ((c.step h x).phase = .running → r.2 = true) := by
  obtain ⟨env, i⟩ := x
  unfold step
  cases hp : c.phase with
  | closed => exact .inl ⟨⟨rfl, rfl, rfl⟩, fun hr => by simp [hp] at hr⟩
  | forwarding =>
    left
    dsimp only
    split <;> exact ⟨⟨rfl, rfl, rfl⟩, fun hr => by simp [hp, close] at hr⟩
  | running =>
    unfold turn
    cases i with
    | message m =>
      have hq := goOn_quiet (c.closes h env m) (fun c => c.gate.portForwardSocket.isSome && c.gate.authorized &&
        !c.lastTestDelay) (c.onMessage h env m)
      rcases onMessage_acts h env m c with ho | ho
      · exact .inl ⟨⟨hq.gate.trans ho.gate, hq.past.trans ho.past, hq.logins.trans ho.logins⟩,
          fun _ => rfl⟩
      · exact .inr ⟨rfl, _, ho, hq, goOn_phase⟩
    | authorize => exact .inr ⟨rfl, _, .click, goOn_quiet _ _ _, goOn_phase⟩
    | stop => exact .inl ⟨leave_quiet true c, fun _ => rfl⟩
    | testDelayTimer =>
      left
      dsimp only
      split <;> exact ⟨⟨rfl, rfl, rfl⟩, fun _ => rfl⟩
    | _ => exact .inl ⟨⟨rfl, rfl, rfl⟩, fun _ => rfl⟩

/-! ### The type of an authorized connection -/

/-- A connection has a type if it is authorized, the one its scope gives. -/
structure Typed (c : Connection) : Prop where
  typed : c.gate.authedConnType.isSome = c.gate.authorized
  connType : ∀ t, c.gate.authedConnType = some t → c.gate.connType = t

structure Untyped (c : Connection) : Prop where
  authorized : c.gate.authorized = false
  authedConnType : c.gate.authedConnType = none

theorem Untyped.typed (hc : Untyped c) : Typed c where
  typed := by rw [hc.authorized, hc.authedConnType]; rfl
  connType := fun _ ht => nomatch hc.authedConnType.symm.trans ht

theorem Typed.untyped (hc : Typed c) (ha : c.gate.authorized = false) : Untyped c where
  authorized := ha
  authedConnType := by simpa [ha] using hc.typed

theorem Received.untyped (hr : Received lr c c') (hc : Untyped c) : Untyped c' :=
  ⟨hr.authorized.trans hc.authorized, hr.authedConnType.trans hc.authedConnType⟩

theorem Typed.quiet (hc : Typed c) (hq : Quiet c c') : Typed c' := by
  constructor <;> rw [hq.gate]
  exacts [hc.typed, hc.connType]

theorem Settled.connType (hs : Settled c c') : c'.gate.connType = c.gate.connType := by
  unfold Gate.connType
  rw [hs.scope.fileTransfer, hs.scope.viewCamera, hs.scope.terminal, hs.socket]

theorem Typed.settled (hc : Typed c) (hs : Settled c c') : Typed c' where
  typed := by
    rw [hs.authorized, hs.authedConnType]
    exact hc.typed
  connType := fun t ht => hs.connType.trans (hc.connType t (hs.authedConnType ▸ ht))

/-- Nobody has authorized `c'` yet, and it is fed what `c` is. -/
structure Pending (c c' : Connection) : Prop extends Untyped c' where
  server : c'.feed.server = c.feed.server
  voiceCalling : c'.feed.voiceCalling = c.feed.voiceCalling

/-- What becomes of a connection that waits for its authorization: it goes on
to wait or closes, or it is granted and welcomed. -/
inductive Logged (c : Connection) : Connection → Prop
  | pending (c' : Connection) : Pending c c' → Logged c c'
  | granted (b c' : Connection) : Pending c b →
      c'.gate = (({ b with gate := b.gate.grant } : Connection).welcome h env).gate →
      c'.feed = (({ b with gate := b.gate.grant } : Connection).welcome h env).feed → Logged c c'

variable {d d' : Connection}

theorem Pending.same (hc : Pending c d) (ha : d'.gate.authorized = d.gate.authorized := by rfl)
    (ht : d'.gate.authedConnType = d.gate.authedConnType := by rfl)
    (hf : d'.feed = d.feed := by rfl) : Pending c d' :=
  ⟨⟨ha.trans hc.authorized, ht.trans hc.authedConnType⟩, hf ▸ hc.server, hf ▸ hc.voiceCalling⟩

theorem Received.pending (hr : Received lr c c') (hc : Untyped c) : Pending c c' :=
  ⟨hr.untyped hc, hr.server, hr.voiceCalling⟩

theorem Prepared.pending (hp : Prepared d d') (hc : Pending c d) : Pending c d' :=
  hc.same hp.authorized hp.authedConnType hp.feed

theorem Logged.aside (hl : Logged h env c d) (hg : d'.gate = d.gate) (hf : d'.feed = d.feed) :
    Logged h env c d' := by
  cases hl with
  | pending _ hp => exact .pending d' (hp.same (by rw [hg]) (by rw [hg]) hf)
  | granted b _ hp hg' hf' => exact .granted b d' hp (hg.trans hg') (hf.trans hf')

theorem sendLogon_logged (hc : Pending c d) :
    Logged h env c (d.sendLogonResponseAndKeepAlive h env).1 := by
  have hl := sendLogon_cases h env d
  generalize d.sendLogonResponseAndKeepAlive h env = r at hl ⊢
  cases hl with
  | already => exact .pending _ hc
  | asked => exact .pending _ (hc.same)
  | closed c' _ hp => exact .pending _ (hp.pending hc)
  | granted c' _ hp => exact .granted c' _ (hp.pending hc) rfl rfl

theorem logonAndStartCm_logged (hc : Pending c d) (peerId name : String) :
    Logged h env c (d.logonAndStartCm h env peerId name).1 := by
  have hs := sendLogon_logged h env hc
  rw [logonAndStartCm_eq]
  split
  · exact hs.aside h env rfl rfl
  · exact hs

theorem loginRequest_logged (lr : LoginRequest) (hc : Untyped c) :
    Logged h env c (c.loginRequest h env lr).1 := by
  have hl := loginRequest_result h env lr c
  generalize c.loginRequest h env lr = r at hl ⊢
  cases hl with
  | closed c' hr => exact .pending _ (hr.pending hc)
  | reached b r hr _ hb =>
    have hb' := hr.pending hc
    cases hb with
    | refused | notReady => exact .pending _ (hb'.same)
    | stopped c' hp => exact .pending _ (hp.pending hb')
    | asked c' rs hp => exact .pending _ ((hp.pending hb').same)
    | logon a t x =>
      have hproved : Pending c (b.primaryProved a t x) := hb'.same
      exact logonAndStartCm_logged h env hproved _ _

theorem auth2fa_logged (code : String) (hwid : Bytes) (hc : Untyped c) :
    Logged h env c (c.auth2fa h env code hwid).1 := by
  have hl := auth2fa_result h env code hwid c
  generalize c.auth2fa h env code hwid = r at hl ⊢
  have hself : Pending c c := ⟨hc, rfl, rfl⟩
  cases hl with
  | answered c' ha => exact (Logged.pending _ hself).aside h env ha.gate ha.feed
  | accepted c' k _ _ _ ha =>
    have hproved : Pending c c.codeProved := hself.same
    exact (logonAndStartCm_logged h env hproved _ _).aside h env ha.gate ha.feed

theorem switchSidesResponse_logged (lr : Option LoginRequest) (uuid : Option ℕ)
    (hc : Untyped c) : Logged h env c (c.switchSidesResponse h env lr uuid).1 := by
  have hself : Pending c c := ⟨hc, rfl, rfl⟩
  unfold switchSidesResponse
  cases lr with
  | none => exact .pending _ hself
  | some lr =>
    dsimp only
    split
    · have hr := (handleLogin_received env lr c).pending hc
      split
      · exact logonAndStartCm_logged h env hr.same _ _
      · exact .pending _ (hr.same)
    · exact .pending _ hself

theorem Acts.logged (hr : Acts h env c i r) (hc : Untyped c) : Logged h env c r.1 := by
  cases hr with
  | login lr => exact loginRequest_logged h env lr hc
  | code code hwid => exact auth2fa_logged h env code hwid hc
  | sides lr uuid => exact switchSidesResponse_logged h env lr uuid hc
  | click => exact sendLogon_logged h env (Pending.same ⟨hc, rfl, rfl⟩)

theorem Logged.typed (hl : Logged h env c d) : Typed d := by
  cases hl with
  | pending _ hp => exact hp.toUntyped.typed
  | granted b _ hp hg =>
    obtain ⟨⟨o, hw⟩, -⟩ := welcome_welcomed h env ({ b with gate := b.gate.grant } : Connection)
    constructor <;> rw [hg, hw]
    · rfl
    · exact fun t hx => Option.some.inj hx

theorem Acts.typed (hr : Acts h env c i r) (hc : Typed c) : Typed r.1 := by
  cases ha : c.gate.authorized with
  | true => exact hc.settled (hr.settled h env ha)
  | false => exact (hr.logged h env (hc.untyped ha)).typed

theorem typed_step (hc : Typed c) (x : Env × Input) : Typed (c.step h x) := by
  rcases step_acts h c x with ⟨hq, -⟩ | ⟨-, r, hr, hq, -⟩
  · exact hc.quiet hq
  · exact (hr.typed h x.1 hc).quiet hq

theorem step_of_authorized (ha : c.gate.authorized = true) (x : Env × Input) :
    (c.step h x).gate.authorized = true ∧
      (c.step h x).gate.authedConnType = c.gate.authedConnType := by
  rcases step_acts h c x with ⟨hq, -⟩ | ⟨-, r, hr, hq, -⟩
  · rw [hq.gate]
    exact ⟨ha, rfl⟩
  · have hs := hr.settled h x.1 ha
    rw [hq.gate]
    exact ⟨hs.authorized.trans ha, hs.authedConnType⟩

end Connection
end CodeDesk.Conn
