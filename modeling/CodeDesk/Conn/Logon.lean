/-
# What the logon does to a connection

`send_logon_response_and_keep_alive` either leaves the connection as it was,
asks for the second factor, closes, or authorizes (`sendLogon_cases`). Before
it authorizes it prepares the terminal and the socket of a port forward,
which changes neither the login request nor the scope nor what has been
proved before (`Prepared`).
-/
import CodeDesk.Conn.Step

namespace CodeDesk.Conn

def LoginRequest.target (lr : LoginRequest) : Option String :=
  match lr.union with
  | some (.portForward host port) => some (normalizePortForwardTarget host port).1
  | _ => none

namespace Connection

variable (h : Host) (env : Env)

/-- `c'` is `c` on its way to a logon. -/
structure Prepared (c c' : Connection) : Prop where
  lr : c'.gate.lr = c.gate.lr
  fileTransfer : c'.gate.fileTransfer = c.gate.fileTransfer
  viewCamera : c'.gate.viewCamera = c.gate.viewCamera
  terminal : c'.gate.terminal = c.gate.terminal
  authorized : c'.gate.authorized = c.gate.authorized
  authedConnType : c'.gate.authedConnType = c.gate.authedConnType
  require2fa : c'.gate.require2fa = c.gate.require2fa
  fromSwitch : c'.gate.fromSwitch = c.gate.fromSwitch
  primaryAuth : c'.gate.connAuditPrimaryAuth = c.gate.connAuditPrimaryAuth
  checked : c'.past.checked = c.past.checked
  factors : c.past.factors ⊆ c'.past.factors
  feed : c'.feed = c.feed
  logins : c'.logins = c.logins
  phase : c'.phase = c.phase

namespace Prepared

theorem refl (c : Connection) : Prepared c c := by
  constructor <;> first | rfl | exact List.Subset.refl _

theorem trans {c c' c'' : Connection} (h₁ : Prepared c c') (h₂ : Prepared c' c'') :
    Prepared c c'' where
  lr := h₂.lr.trans h₁.lr
  fileTransfer := h₂.fileTransfer.trans h₁.fileTransfer
  viewCamera := h₂.viewCamera.trans h₁.viewCamera
  terminal := h₂.terminal.trans h₁.terminal
  authorized := h₂.authorized.trans h₁.authorized
  authedConnType := h₂.authedConnType.trans h₁.authedConnType
  require2fa := h₂.require2fa.trans h₁.require2fa
  fromSwitch := h₂.fromSwitch.trans h₁.fromSwitch
  primaryAuth := h₂.primaryAuth.trans h₁.primaryAuth
  checked := h₂.checked.trans h₁.checked
  factors := List.Subset.trans h₁.factors h₂.factors
  feed := h₂.feed.trans h₁.feed
  logins := h₂.logins.trans h₁.logins
  phase := h₂.phase.trans h₁.phase

theorem reply (c : Connection) (r : Reply) : Prepared c (c.reply r) := by
  constructor <;> first | rfl | exact List.Subset.refl _

end Prepared

/-- `c'` is prepared up to the port forward. -/
structure Readied (c c' : Connection) : Prop extends Prepared c c' where
  socket : c'.gate.portForwardSocket = c.gate.portForwardSocket
  address : c'.gate.portForwardAddress = c.gate.portForwardAddress

/-! ### The parts -/

theorem prepareTerminalLogin_readied (c : Connection) :
    Readied c (c.prepareTerminalLogin h env).1 := by
  unfold prepareTerminalLogin
  split
  · exact ⟨.refl c, rfl, rfl⟩
  · split
    · exact ⟨.reply c _, rfl, rfl⟩
    · refine ⟨?_, rfl, rfl⟩
      constructor <;> first | rfl | exact List.Subset.refl _

variable {c : Connection}

theorem prepareTerminalLogin_some {k : Bool}
    (hk : (c.prepareTerminalLogin h env).2 = some k) : k = false := by
  unfold prepareTerminalLogin at hk
  split_ifs at hk
  split at hk
  · cases hk; rfl
  · cases hk

theorem connectPortForward_prepared (c : Connection) :
    Prepared c (c.connectPortForwardIfNeeded env).1 := by
  unfold connectPortForwardIfNeeded
  split
  · exact .refl c
  · split
    · dsimp only
      split <;> constructor <;> first | rfl | exact List.Subset.refl _
    · exact .refl c

theorem connectPortForward_socket (hs : c.gate.portForwardSocket = none)
    (hk : (c.connectPortForwardIfNeeded env).2 = true) :
    (c.connectPortForwardIfNeeded env).1.gate.portForwardSocket = c.gate.lr.target ∧
      (c.connectPortForwardIfNeeded env).1.gate.portForwardAddress =
        c.gate.lr.target.getD c.gate.portForwardAddress := by
  have hn : c.gate.portForwardSocket.isSome = false := by rw [hs]; rfl
  unfold connectPortForwardIfNeeded LoginRequest.target at *
  simp only [hn, Bool.false_eq_true, if_false] at hk ⊢
  rcases hu : c.gate.lr.union with _ | (_ | _ | _ | ⟨host, port⟩) <;> simp only [hu] at hk ⊢
  case some.portForward =>
    by_cases hc : env.connects (normalizePortForwardTarget host port).1 = true
    · simp [hc]
    · simp [hc] at hk
  all_goals exact ⟨hs, rfl⟩

/-! ### The second factor -/

theorem secondFactorMissing_readied (c : Connection) : Readied c (c.secondFactorMissing h).1 := by
  unfold secondFactorMissing isRecentSession
  by_cases hr : c.gate.require2fa = true
  · by_cases hm : c.sessionMatches h true = true
    · rw [if_pos hr, if_pos hm]
      refine ⟨?_, rfl, rfl⟩
      constructor <;> first | rfl | exact List.subset_append_left _ _
    · simp only [hr, hm, if_true, if_false, Bool.false_eq_true]
      exact ⟨.refl c, rfl, rfl⟩
  · simp only [hr, if_false, Bool.false_eq_true]
    exact ⟨.refl c, rfl, rfl⟩

/-- The second factor is there when it is not required, when sides were
switched, or when a recent session had it. -/
theorem secondFactorMissing_false (hm : (c.secondFactorMissing h).2 = false) :
    c.gate.require2fa = false ∨ c.gate.fromSwitch = true ∨
      .recentTfa ∈ (c.secondFactorMissing h).1.past.factors := by
  unfold secondFactorMissing isRecentSession at *
  by_cases hr : c.gate.require2fa = true
  · by_cases hs : c.sessionMatches h true = true
    · simp [hr, hs, proved]
    · simp only [hr, hs, if_true, if_false, Bool.false_eq_true, Bool.not_eq_false'] at hm
      exact .inr (.inl hm)
  · simp [hr]

theorem secondFactorMissing_true (hm : (c.secondFactorMissing h).2 = true) :
    (c.secondFactorMissing h).1 = c ∧ c.gate.require2fa = true ∧ c.gate.fromSwitch = false := by
  unfold secondFactorMissing isRecentSession at *
  by_cases hr : c.gate.require2fa = true
  · by_cases hs : c.sessionMatches h true = true
    · simp [hr, hs] at hm
    · simp only [hr, hs, if_true, if_false, Bool.false_eq_true, Bool.not_eq_true'] at hm
      simp [hr, hs, hm]
  · simp [hr] at hm

/-! ### The answer to an authorized peer -/

/-- What an answer leaves alone: everything but the feed, the replies and the
options of the login. -/
structure Welcomed (c c' : Connection) : Prop where
  gate : ∃ o, c'.gate = { c.gate with optionsInLogin := o }
  past : c'.past = c.past
  logins : c'.logins = c.logins
  phase : c'.phase = c.phase
  lastTestDelay : c'.lastTestDelay = c.lastTestDelay

theorem updateScopedLoginOptions_welcomed (c : Connection) :
    Welcomed c (c.updateScopedLoginOptions h) := by
  unfold updateScopedLoginOptions
  split
  · exact ⟨⟨_, rfl⟩, rfl, rfl, rfl, rfl⟩
  · dsimp only
    split <;> exact ⟨⟨none, rfl⟩, rfl, rfl, rfl, rfl⟩

theorem startSession_frame (c : Connection) : ∃ f, c.startSession h env = { c with feed := f } := by
  unfold startSession
  dsimp only
  split
  · exact ⟨_, rfl⟩
  · split
    · exact ⟨_, rfl⟩
    · split <;> exact ⟨_, rfl⟩

theorem welcome_welcomed (c : Connection) : Welcomed c (c.welcome h env) := by
  unfold welcome
  split
  · exact ⟨⟨_, rfl⟩, rfl, rfl, rfl, rfl⟩
  split
  · exact ⟨⟨_, rfl⟩, rfl, rfl, rfl, rfl⟩
  generalize hr : reply _ c = r
  have hw := updateScopedLoginOptions_welcomed h r
  obtain ⟨f, hf⟩ := startSession_frame h env (r.updateScopedLoginOptions h)
  subst hr
  rw [hf]
  exact { hw with }

/-! ### The logon -/

inductive Logon (h : Host) (env : Env) (c : Connection) : Connection × Bool → Prop
  | already : c.gate.authorized = true → Logon h env c (c, true)
  | asked : c.gate.authorized = false → c.gate.require2fa = true → c.gate.fromSwitch = false →
      Logon h env c (c.sendLoginError env "2FA Required", true)
  | closed (c' : Connection) : c.gate.authorized = false → Prepared c c' →
      Logon h env c (c', false)
  | granted (c' : Connection) : c.gate.authorized = false → Prepared c c' →
      (c.gate.require2fa = false ∨ c.gate.fromSwitch = true ∨ .recentTfa ∈ c'.past.factors) →
      (c.gate.portForwardSocket = none → c'.gate.portForwardSocket = c.gate.lr.target ∧
        c'.gate.portForwardAddress = c.gate.lr.target.getD c.gate.portForwardAddress) →
      Logon h env c (({ c' with gate := c'.gate.grant } : Connection).welcome h env, true)

theorem sendLogon_cases (c : Connection) :
    Logon h env c (c.sendLogonResponseAndKeepAlive h env) := by
  unfold sendLogonResponseAndKeepAlive
  split_ifs with ha
  · exact .already ha
  have ha : c.gate.authorized = false := by simpa using ha
  have h₁ := secondFactorMissing_readied h c
  have t₁ := secondFactorMissing_true h (c := c)
  have f₁ := secondFactorMissing_false h (c := c)
  rcases hm : c.secondFactorMissing h with ⟨c₁, m⟩
  rw [hm] at h₁ t₁ f₁
  cases m with
  | true =>
    obtain ⟨he, hr, hf⟩ := t₁ rfl
    subst he
    exact .asked ha hr hf
  | false =>
    have f₁ := f₁ rfl
    dsimp only at h₁ f₁ ⊢
    unfold logon
    have h₂ := prepareTerminalLogin_readied h env c₁
    have k₂ := fun k => prepareTerminalLogin_some h env (c := c₁) (k := k)
    rcases hp : c₁.prepareTerminalLogin h env with ⟨c₂, k⟩
    rw [hp] at h₂ k₂
    cases k with
    | some k =>
      obtain rfl := k₂ k rfl
      exact .closed c₂ ha (h₁.trans h₂.toPrepared)
    | none =>
      dsimp only at h₂ ⊢
      have h₃ := connectPortForward_prepared env c₂
      have s₃ := connectPortForward_socket env (c := c₂)
      rcases hq : c₂.connectPortForwardIfNeeded env with ⟨c₃, k⟩
      rw [hq] at h₃ s₃
      have hc := (h₁.trans h₂.toPrepared).trans h₃
      cases k with
      | false => exact .closed c₃ ha hc
      | true =>
        refine .granted c₃ ha hc ?_ ?_
        · exact f₁.imp_right fun hf => hf.imp_right fun hf => (h₂.trans h₃).factors hf
        · intro hs
          have hs₂ : c₂.gate.portForwardSocket = none := by rw [h₂.socket, h₁.socket, hs]
          have := s₃ hs₂ rfl
          rwa [h₂.lr, h₁.lr, h₂.address, h₁.address] at this

theorem welcome_granted (c : Connection) :
    (({ c with gate := c.gate.grant } : Connection).welcome h env).gate.authorized = true := by
  obtain ⟨⟨o, hg⟩, -⟩ := welcome_welcomed h env ({ c with gate := c.gate.grant } : Connection)
  rw [hg]
  rfl

theorem sendLogon_authorized (hs : c.gate.require2fa = false ∨ c.gate.fromSwitch = true)
    (hk : (c.sendLogonResponseAndKeepAlive h env).2 = true) :
    (c.sendLogonResponseAndKeepAlive h env).1.gate.authorized = true := by
  have hl := sendLogon_cases h env c
  generalize c.sendLogonResponseAndKeepAlive h env = r at hl hk ⊢
  cases hl with
  | already ha => exact ha
  | asked _ hr hf =>
    rcases hs with hs | hs
    · cases hs.symm.trans hr
    · cases hs.symm.trans hf
  | closed => cases hk
  | granted c' => exact welcome_granted h env c'

theorem logonAndStartCm_eq (c : Connection) (peerId name : String) :
    c.logonAndStartCm h env peerId name = if (c.sendLogonResponseAndKeepAlive h env).2 then
        ((c.sendLogonResponseAndKeepAlive h env).1.tryStartCm peerId name
          (c.sendLogonResponseAndKeepAlive h env).1.gate.authorized, true)
      else ((c.sendLogonResponseAndKeepAlive h env).1, false) := by
  unfold logonAndStartCm
  rcases c.sendLogonResponseAndKeepAlive h env with ⟨c', k⟩
  cases k <;> rfl

end Connection
end CodeDesk.Conn
