/-
# What a connection has proved when it is authorized

On a connection that requires the second factor, a peer has to prove a
primary factor, and the second one too unless the local user clicked or
sides were switched (`Factors`). Nothing in the state records the primary
factor as such; the audit field `conn_audit_primary_auth` is set with it.

The code of the second factor alone authorizes
(`Connection.code_alone_authorizes`): the handler of `Auth2fa` goes straight
to the logon. When a code is only accepted after a primary factor, no run
authorizes without the factors (`Connection.authorized_only_with_factors`).
-/
import CodeDesk.Run
import CodeDesk.Conn.Requests

namespace CodeDesk.Conn

def Primary (fs : List Factor) : Prop :=
  .password ∈ fs ∨ .recentSession ∈ fs ∨ .click ∈ fs ∨ .switchSides ∈ fs

def Second (fs : List Factor) : Prop :=
  .totp ∈ fs ∨ .trustedDevice ∈ fs ∨ .recentTfa ∈ fs

/-- What has to be proved before a connection with a second factor is
authorized. -/
def Factors (fs : List Factor) : Prop :=
  .click ∈ fs ∨ .switchSides ∈ fs ∨ ((.password ∈ fs ∨ .recentSession ∈ fs) ∧ Second fs)

instance (fs : List Factor) : Decidable (Factors fs) := by
  unfold Factors Second
  infer_instance

variable {fs gs : List Factor}

theorem Primary.mono (hp : Primary fs) (hs : fs ⊆ gs) : Primary gs :=
  hp.imp (@hs _) fun hp => hp.imp (@hs _) fun hp => hp.imp (@hs _) (@hs _)

theorem Second.mono (hp : Second fs) (hs : fs ⊆ gs) : Second gs :=
  hp.imp (@hs _) fun hp => hp.imp (@hs _) (@hs _)

theorem Factors.mono (hp : Factors fs) (hs : fs ⊆ gs) : Factors gs :=
  hp.imp (@hs _) fun hp => hp.imp (@hs _) fun hp =>
    ⟨hp.1.imp (@hs _) (@hs _), hp.2.mono hs⟩

theorem Primary.factors (hp : Primary fs)
    (hs : Second fs ∨ .click ∈ fs ∨ .switchSides ∈ fs) : Factors fs := by
  rcases hs with hs | hs | hs
  · rcases hp with hp | hp | hp | hp
    · exact .inr (.inr ⟨.inl hp, hs⟩)
    · exact .inr (.inr ⟨.inr hp, hs⟩)
    · exact .inl hp
    · exact .inr (.inl hp)
  · exact .inl hs
  · exact .inr (.inl hs)

namespace Connection

variable (h : Host) (env : Env)

/-- The state knows of no factor that was not proved. -/
structure Proven (c : Connection) : Prop where
  primary : c.gate.connAuditPrimaryAuth ≠ .none → Primary c.past.factors
  second : c.gate.require2fa = false → Second c.past.factors ∨ .click ∈ c.past.factors
  sides : c.gate.fromSwitch = true → .switchSides ∈ c.past.factors
  granted : c.gate.authorized = true → Factors c.past.factors

variable {c c' : Connection} {x : Factor}

section

variable (hI : Proven c)

include hI

theorem Proven.quiet (hq : Quiet c c') : Proven c' := by
  obtain ⟨hg, hp, -⟩ := hq
  constructor <;> rw [hg, hp]
  exacts [hI.primary, hI.second, hI.sides, hI.granted]

theorem Proven.prepared (hp : Prepared c c') : Proven c' where
  primary := fun ha => (hI.primary (hp.primaryAuth ▸ ha)).mono hp.factors
  second := fun hr => (hI.second (hp.require2fa ▸ hr)).imp (·.mono hp.factors) (@hp.factors _)
  sides := fun hf => hp.factors (hI.sides (hp.fromSwitch ▸ hf))
  granted := fun ha => (hI.granted (hp.authorized ▸ ha)).mono hp.factors

theorem Proven.received {lr : LoginRequest} (hr : Received lr c c') : Proven c' where
  primary := fun ha => (hI.primary (hr.primaryAuth ▸ ha)).mono hr.factors
  second := by
    intro h2
    rcases hr.second with hs | hs
    · exact (hI.second (hs ▸ h2)).imp (·.mono hr.factors) (@hr.factors _)
    · exact .inl (.inr (.inl hs))
  sides := fun hf => hr.factors (hI.sides (hr.fromSwitch ▸ hf))
  granted := fun ha => (hI.granted (hr.authorized ▸ ha)).mono hr.factors

theorem Proven.proved (hf : c'.past.factors = c.past.factors ++ [x])
    (ha : c'.gate.authorized = c.gate.authorized)
    (hp : c'.gate.connAuditPrimaryAuth = c.gate.connAuditPrimaryAuth ∨ Primary c'.past.factors)
    (h2 : c'.gate.require2fa = c.gate.require2fa ∨ Second c'.past.factors ∨
      .click ∈ c'.past.factors)
    (hs : c'.gate.fromSwitch = c.gate.fromSwitch ∨ .switchSides ∈ c'.past.factors) :
    Proven c' := by
  have hm : c.past.factors ⊆ c'.past.factors := hf ▸ List.subset_append_left _ _
  refine ⟨fun hn => ?_, fun hn => ?_, fun hn => ?_, fun hn => ?_⟩
  · exact hp.elim (fun hp => (hI.primary (hp ▸ hn)).mono hm) id
  · exact h2.elim (fun h2 => (hI.second (h2 ▸ hn)).imp (·.mono hm) (@hm _)) id
  · exact hs.elim (fun hs => hm (hI.sides (hs ▸ hn))) id
  · exact (hI.granted (ha ▸ hn)).mono hm

/-! ### The logon -/

theorem Proven.sendLogon (hp : c.gate.connAuditPrimaryAuth ≠ .none) :
    Proven (c.sendLogonResponseAndKeepAlive h env).1 := by
  have hl := sendLogon_cases h env c
  generalize c.sendLogonResponseAndKeepAlive h env = r at hl ⊢
  cases hl with
  | already => exact hI
  | asked => exact hI.quiet ⟨rfl, rfl, rfl⟩
  | closed c' _ hc => exact hI.prepared hc
  | granted c' _ hc hs =>
    have hI' := hI.prepared hc
    have hf : Factors c'.past.factors := by
      refine ((hI.primary hp).mono hc.factors).factors ?_
      rcases hs with hs | hs | hs
      · exact (hI'.second (hc.require2fa ▸ hs)).imp_right .inl
      · exact .inr (.inr (hI'.sides (hc.fromSwitch ▸ hs)))
      · exact .inl (.inr (.inr hs))
    obtain ⟨⟨o, hg⟩, hw, -⟩ :=
      welcome_welcomed h env ({ c' with gate := c'.gate.grant } : Connection)
    refine ⟨?_, ?_, ?_, ?_⟩ <;> rw [hg, hw]
    exacts [hI'.primary, hI'.second, hI'.sides, fun _ => hf]

theorem Proven.logonAndStartCm (hp : c.gate.connAuditPrimaryAuth ≠ .none) (id name : String) :
    Proven (c.logonAndStartCm h env id name).1 := by
  have hs := hI.sendLogon h env hp
  rw [logonAndStartCm_eq]
  split
  · exact { hs with }
  · exact hs

end

/-! ### The four inputs -/

theorem Proven.primaryProved {b : Connection} (hI : Proven b) (a : ConnAuditPrimaryAuth)
    (t : Tables) (hx : Factor.isPassword x) : Proven (b.primaryProved a t x) := by
  have hm : x ∈ (b.primaryProved a t x).past.factors :=
    List.mem_append_right _ (List.mem_singleton.2 rfl)
  refine hI.proved rfl rfl (.inr ?_) (.inl rfl) (.inl rfl)
  cases x <;> first | exact hx.elim | exact .inl hm | exact .inr (.inl hm)

theorem Proven.loginRequest (hI : Proven c) (lr : LoginRequest) :
    Proven (c.loginRequest h env lr).1 := by
  have hl := loginRequest_result h env lr c
  generalize c.loginRequest h env lr = r at hl ⊢
  cases hl with
  | closed c' hr => exact hI.received hr
  | reached b r hr _ hb =>
    have hI := hI.received hr
    cases hb with
    | refused => exact hI.quiet ⟨rfl, rfl, rfl⟩
    | notReady a t x text _ _ hx => exact (hI.primaryProved a t hx).quiet ⟨rfl, rfl, rfl⟩
    | stopped c' hp => exact hI.prepared hp
    | asked c' rs hp =>
      have hI := hI.prepared hp
      exact { hI with }
    | logon a t x ha hx => exact (hI.primaryProved a t hx).logonAndStartCm h env ha _ _

theorem Proven.auth2fa (hI : Proven c) (code : String) (hwid : Bytes)
    (hp : c.gate.require2fa = true → env.checkCurrent code = some true →
      c.gate.connAuditPrimaryAuth ≠ .none) : Proven (c.auth2fa h env code hwid).1 := by
  have hl := auth2fa_result h env code hwid c
  generalize c.auth2fa h env code hwid = r at hl ⊢
  cases hl with
  | answered c' hc => exact hI.quiet hc.toQuiet
  | accepted c' k hr hk _ hc =>
    have hIc : Proven c.codeProved := hI.proved rfl rfl (.inl rfl)
        (.inr (.inl (.inl (List.mem_append_right _ (List.mem_singleton.2 rfl))))) (.inl rfl)
    exact (hIc.logonAndStartCm h env (hp hr hk) _ _).quiet hc.toQuiet

theorem Proven.switchSidesResponse (hI : Proven c) (lr : Option LoginRequest)
    (uuid : Option ℕ) : Proven (c.switchSidesResponse h env lr uuid).1 := by
  unfold Connection.switchSidesResponse
  cases lr with
  | none => exact hI
  | some lr =>
    dsimp only
    split
    · have hI := hI.received (handleLogin_received env lr c)
      split
      · refine Proven.logonAndStartCm h env ?_ (by simp [Connection.proved]) _ _
        have hm : Factor.switchSides ∈ (c.handleLoginRequestWithoutValidation env lr).past.factors ++
          [Factor.switchSides] := List.mem_append_right _ (List.mem_singleton.2 rfl)
        exact hI.proved rfl rfl (.inr (.inr (.inr (.inr hm)))) (.inl rfl) (.inr hm)
      · exact { hI with }
    · exact hI

theorem Proven.authorize (hI : Proven c) : Proven (c.authorize h env).1 := by
  have hm : Factor.click ∈ c.past.factors ++ [Factor.click] :=
    List.mem_append_right _ (List.mem_singleton.2 rfl)
  refine Proven.sendLogon h env ?_ nofun
  exact hI.proved rfl rfl (.inr (.inr (.inr (.inl hm)))) (.inr (.inr hm)) (.inl rfl)

/-! ### Runs -/

/-- A code of the second factor that would be accepted comes only after a
primary factor. -/
def CodeAfterPrimary (c : Connection) (x : Env × Input) : Prop :=
  match x.2 with
  | .message (.auth2fa code _) =>
    c.gate.require2fa = true → x.1.checkCurrent code = some true →
      c.gate.connAuditPrimaryAuth ≠ .none
  | _ => True

instance (c : Connection) : ∀ x : Env × Input, Decidable (CodeAfterPrimary c x)
  | (_, i) => by
    unfold CodeAfterPrimary
    split <;> infer_instance

theorem proven_step {x : Env × Input} (hI : Proven c)
    (hx : CodeAfterPrimary c x) : Proven (c.step h x) := by
  rcases step_acts h c x with ⟨hq, -⟩ | ⟨-, r, ha, hq, -⟩
  · exact hI.quiet hq
  refine Proven.quiet ?_ hq
  obtain ⟨env, i⟩ := x
  cases ha with
  | login lr => exact hI.loginRequest h env lr
  | code code hwid => exact hI.auth2fa h env code hwid hx
  | sides lr uuid => exact hI.switchSidesResponse h env lr uuid
  | click => exact hI.authorize h env

/-- **No authorization without the factors.** In every run of a connection
that requires the second factor, in which an accepted code comes only after a
primary factor, the connection is authorized only when the factors have been
proved. -/
theorem authorized_only_with_factors (control : Option ℕ) (services : List Service)
    (tables : Tables) (is : List (Env × Input))
    (hm : Run.Meets (step h) CodeAfterPrimary (start h env control true services tables) is)
    (ha : (Run.run (step h) (start h env control true services tables) is).gate.authorized = true) :
    Factors (Run.run (step h) (start h env control true services tables) is).past.factors := by
  have hI : Proven (Run.run (step h) (start h env control true services tables) is) :=
    Run.inv_run_of_meets (fun c x _ hI hx => proven_step h hI hx)
      (by constructor <;> simp [start]) hm
  exact hI.granted ha

def passwordThenCode : List (Env × Input) :=
  [({ temporaryPassword := "pw" },
      .message (.loginRequest { username := "host", password := [112, 119] })),
    ({ checkCurrent := fun code => some (code == "123456") }, .message (.auth2fa "123456" []))]

theorem passwordThenCode_factors :
    (Run.run (step .desktop) (start .desktop {} none true [] {}) passwordThenCode).gate.authorized =
        true ∧
      Factors (Run.run (step .desktop) (start .desktop {} none true [] {})
        passwordThenCode).past.factors :=
  ⟨by decide, authorized_only_with_factors .desktop {} none [] {} passwordThenCode (by decide)
    (by decide)⟩

/-- **The code alone.** The first message of the peer is the code of the second
factor: there has been no login request, and the connection is authorized as a
remote session. -/
theorem code_alone_authorizes :
    let c := Run.run (step .desktop) (start .desktop {} none true [] {})
      [({ checkCurrent := fun code => some (code == "123456") }, .message (.auth2fa "123456" []))]
    c.gate.authedConnType = some .remote ∧ c.gate.authorized = true ∧ c.past.factors = [.totp] ∧
      ¬ Factors c.past.factors := by
  decide

end Connection
end CodeDesk.Conn
