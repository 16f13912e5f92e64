/-
# What the local user approves

The connection manager shows the last `Data::Login` of a connection, and the
click authorizes the connection as it is at that moment. The two agree
(`Approved`) as long as every login request before the click is brought
before the connection manager and a switch of sides that brings a login
request has the right uuid (`Connection.approved_is_granted`). Both do happen
otherwise: a login request that meets a failure limit replaces the scope and
the identity and returns before `try_start_cm`
(`Connection.limited_request_is_granted`).
-/
import CodeDesk.Run
import CodeDesk.Conn.Requests

namespace CodeDesk.Conn

/-- The session type with the target of a port forward, and the peer, are those
the connection manager was shown. -/
def Approved (l : Login) (g : Gate) : Prop :=
  l.isFileTransfer = decide (g.authedConnType = some .fileTransfer) ∧
    l.isViewCamera = decide (g.authedConnType = some .viewCamera) ∧
    l.isTerminal = decide (g.authedConnType = some .terminal) ∧
    decide (l.portForward ≠ "") = decide (g.authedConnType = some .portForward) ∧
    l.portForward = g.portForwardSocket.getD "" ∧
    l.peerId = g.lr.myId ∧ l.name = g.lr.myName

instance (l : Login) (g : Gate) : Decidable (Approved l g) := by
  unfold Approved
  infer_instance

theorem normalizePortForwardTarget_ne_empty (host : String) (port : ℤ) :
    (normalizePortForwardTarget host port).1 ≠ "" := by
  unfold normalizePortForwardTarget
  split
  · decide
  · intro he
    have := congrArg String.toList he
    simp at this

namespace Connection

variable (h : Host) (env : Env)

/-- The snapshot shows the scope and the peer of the connection. -/
structure Shows (l : Login) (c : Connection) : Prop where
  fileTransfer : l.isFileTransfer = c.gate.fileTransfer.isSome
  viewCamera : l.isViewCamera = c.gate.viewCamera
  terminal : l.isTerminal = c.gate.terminal
  portForward : l.portForward = c.gate.portForwardAddress
  peerId : l.peerId = c.gate.lr.myId
  name : l.name = c.gate.lr.myName

/-- A connection that waits for the click: its scope is the one its login
request asks for, and the connection manager was shown it last. -/
structure Waiting (c : Connection) : Prop where
  scope : ScopeOf c.gate.lr c
  socket : c.gate.portForwardSocket = none
  shown : ∀ l, c.logins.getLast? = some l → Shows l c

/-- The property of a connection whose main loop runs. -/
def Shown (c : Connection) : Prop :=
  c.phase = .running → c.gate.authorized = false → Waiting c

/-- The result of a handler: it matters only if the connection is kept. -/
def ShownResult (r : Connection × Bool) : Prop :=
  r.2 = true → r.1.gate.authorized = false → Waiting r.1

theorem shownResult_closed (c : Connection) : ShownResult (c, false) := nofun

variable {l : Login} {c c' : Connection} {g : Gate} {lr : LoginRequest}

theorem Shows.same (hs : Shows l c) (hg : c'.gate = c.gate) : Shows l c' := by
  obtain ⟨t₁, t₂, t₃, t₄, t₅, t₆⟩ := hs
  constructor <;> rw [hg] <;> assumption

theorem Waiting.quiet (hw : Waiting c) (hq : Quiet c c') : Waiting c' := by
  obtain ⟨hg, hp, hl⟩ := hq
  refine ⟨?_, by rw [hg]; exact hw.socket, fun l hm => (hw.shown l (hl ▸ hm)).same hg⟩
  rw [hg]
  exact hw.scope.same (by rw [hg]) ⟨by rw [hg], by rw [hg], by rw [hg], by rw [hg], by rw [hp]⟩

theorem Waiting.tryStartCm (hs : ScopeOf c.gate.lr c)
    (ht : c.gate.portForwardSocket = none) (a : Bool) (rs : List Reply) :
    Waiting { c.tryStartCm c.gate.lr.myId c.gate.lr.myName a with replies := rs } := by
  refine ⟨{ hs with }, ht, ?_⟩
  intro l hl
  simp only [Connection.tryStartCm, List.getLast?_append, List.getLast?_singleton,
    Option.some_or, Option.some.injEq] at hl
  subst hl
  exact ⟨rfl, rfl, rfl, rfl, rfl, rfl⟩

theorem approved_of_scope (lr : LoginRequest) (hlr : g.lr = lr)
    (hf : l.isFileTransfer = lr.fileTransfer.isSome)
    (hv : l.isViewCamera = decide (lr.connType = .viewCamera))
    (ht : l.isTerminal = decide (lr.connType = .terminal)) (hp : l.portForward = lr.target.getD "")
    (hs : g.portForwardSocket = lr.target) (hc : g.authedConnType = some lr.connType)
    (hi : l.peerId = lr.myId) (hn : l.name = lr.myName) : Approved l g := by
  rw [Approved, hf, hv, ht, hp, hs, hc, hi, hn, hlr]
  rcases hu : lr.union with _ | (_ | _ | _ | ⟨host, port⟩) <;>
    simp [LoginRequest.fileTransfer, LoginRequest.connType, LoginRequest.target, hu,
      normalizePortForwardTarget_ne_empty]

theorem connType_of_scope (hf : g.fileTransfer = lr.fileTransfer)
    (hv : g.viewCamera = decide (lr.connType = .viewCamera))
    (ht : g.terminal = decide (lr.connType = .terminal)) (hs : g.portForwardSocket = lr.target) :
    g.connType = lr.connType := by
  rw [Gate.connType, hf, hv, ht, hs]
  rcases hu : lr.union with _ | (_ | _ | _ | ⟨host, port⟩) <;>
    simp [LoginRequest.fileTransfer, LoginRequest.connType, LoginRequest.target, hu]

/-! ### The handlers -/

/-- The logon keeps a connection only authorized, or waiting for the second
factor and shown as it is. -/
theorem logonAndStartCm_shown (hs : ScopeOf c.gate.lr c) (ht : c.gate.portForwardSocket = none) :
    ShownResult (c.logonAndStartCm h env c.gate.lr.myId c.gate.lr.myName) := by
  rw [logonAndStartCm_eq]
  have hl := sendLogon_cases h env c
  generalize c.sendLogonResponseAndKeepAlive h env = r at hl ⊢
  cases hl with
  | already ha => exact fun _ hn => absurd (ha.symm.trans hn) (by decide)
  | asked =>
    intro _ _
    exact Waiting.tryStartCm (c := c.sendLoginError env "2FA Required") hs.same ht _ _
  | closed c' => exact shownResult_closed c'
  | granted c' =>
    exact fun _ hn => absurd ((welcome_granted h env c').symm.trans hn) (by decide)

theorem loginRequest_shown (ht : c.gate.portForwardSocket = none) (hu : Unhindered h env lr) :
    ShownResult (c.loginRequest h env lr) := by
  have hl := loginRequest_result h env lr c
  generalize c.loginRequest h env lr = r at hl ⊢
  cases hl with
  | closed c' => exact shownResult_closed c'
  | reached b r hr hs hb =>
    have hb' : b.gate.portForwardSocket = none := hr.socket.trans ht
    have hlr := hs.request
    cases hb with
    | refused _ hn | notReady _ _ _ _ hn => exact absurd hu hn
    | stopped c' => exact shownResult_closed c'
    | asked c' rs hp hc hq =>
      intro _ _
      have hlc : c'.gate.lr = lr := hp.lr.trans hlr
      have hsc : ScopeOf c'.gate.lr c' := hlc ▸ hs.same hp.lr hc
      subst hlc
      exact Waiting.tryStartCm hsc (hq.trans hb') false rs
    | logon a t x =>
      have hlb : (b.primaryProved a t x).gate.lr = lr := hlr
      have hsb : ScopeOf (b.primaryProved a t x).gate.lr (b.primaryProved a t x) := hlb ▸ hs.same
      have := logonAndStartCm_shown h env hsb hb'
      rwa [hlb] at this

theorem auth2fa_shown (hw : Waiting c) (code : String) (hwid : Bytes) :
    ShownResult (c.auth2fa h env code hwid) := by
  have hl := auth2fa_result h env code hwid c
  generalize c.auth2fa h env code hwid = r at hl ⊢
  cases hl with
  | answered c' hc => exact fun _ _ => hw.quiet hc.toQuiet
  | accepted c' k _ _ hk hc =>
    have hs : ScopeOf c.codeProved.gate.lr c.codeProved := hw.scope.same
    intro hk' hn
    rw [hc.gate] at hn
    exact (logonAndStartCm_shown h env hs hw.socket (hk.trans hk') hn).quiet hc.toQuiet

theorem switchSidesResponse_shown (hw : Waiting c) (lr : Option LoginRequest) (uuid : Option ℕ)
    (hu : ∀ l, lr = some l → uuid.isSome = true ∧ c.tables.switchSidesUuid l.myId = uuid) :
    ShownResult (c.switchSidesResponse h env lr uuid) := by
  unfold Connection.switchSidesResponse
  cases lr with
  | none => exact fun _ _ => hw
  | some lr =>
    dsimp only
    split
    · obtain ⟨h₁, h₂⟩ := hu lr rfl
      rw [if_pos (by simp [h₁, (handleLogin_frame env lr c).1, h₂])]
      generalize hb : Connection.proved Factor.switchSides _ = b
      have hf : b.gate.fromSwitch = true := by rw [← hb]; rfl
      have hk := sendLogon_authorized h env (c := b) (.inr hf)
      rw [logonAndStartCm_eq]
      split_ifs with hs
      · exact fun _ hn => absurd ((hk hs).symm.trans hn) (by decide)
      · exact shownResult_closed _
    · exact fun _ _ => hw

/-- The click authorizes a waiting connection as what it was shown to be, or
closes it. -/
theorem authorize_approved (hw : Waiting c) (hn : c.gate.authorized = false)
    (ha : (c.authorize h env).1.gate.authorized = true)
    (hl : c.logins.getLast? = some l) : Approved l (c.authorize h env).1.gate := by
  unfold Connection.authorize at *
  generalize hb : Connection.proved Factor.click _ = b at *
  have hg : b.gate = { c.gate with connAuditPrimaryAuth := .click, require2fa := false } := by
    rw [← hb]; rfl
  have hs := hw.scope
  have hsh := hw.shown l hl
  have ht := hw.socket
  have hc := sendLogon_cases h env b
  generalize b.sendLogonResponseAndKeepAlive h env = r at hc ha ⊢
  cases hc with
  | already hx => rw [hg] at hx; cases hx.symm.trans hn
  | asked _ hx => rw [hg] at hx; cases hx
  | closed c' _ hp =>
    have := hp.authorized
    rw [hg] at this
    cases ha.symm.trans (this.trans hn)
  | granted c' _ hp _ hso =>
    obtain ⟨⟨o, hw'⟩, -⟩ := welcome_welcomed h env ({ c' with gate := c'.gate.grant } : Connection)
    have hlr : c'.gate.lr = c.gate.lr := by rw [hp.lr, hg]
    have hf : c'.gate.fileTransfer = c.gate.lr.fileTransfer := by
      rw [hp.fileTransfer, hg]; exact hs.fileTransfer
    have hv : c'.gate.viewCamera = decide (c.gate.lr.connType = .viewCamera) := by
      rw [hp.viewCamera, hg]; exact hs.viewCamera
    have htm : c'.gate.terminal = decide (c.gate.lr.connType = .terminal) := by
      rw [hp.terminal, hg]; exact hs.terminal
    have hso' : c'.gate.portForwardSocket = c.gate.lr.target := by
      have := (hso (by rw [hg]; exact ht)).1
      rwa [hg] at this
    rw [hw']
    refine approved_of_scope c.gate.lr hlr ?_ ?_ ?_ ?_ hso' ?_ hsh.peerId hsh.name
    · rw [hsh.fileTransfer, hs.fileTransfer]
    · rw [hsh.viewCamera, hs.viewCamera]
    · rw [hsh.terminal, hs.terminal]
    · rw [hsh.portForward, hs.address]
    · exact congrArg some (connType_of_scope hf hv htm hso')

/-! ### Runs -/

/-- Before the connection is authorized, a login request gets as far as the
connection manager, and a switch of sides that brings a login request has the
uuid that was given out for its peer. -/
def ComesBeforeUser (c : Connection) (x : Env × Input) : Prop :=
  c.gate.authorized = false →
    match x.2 with
    | .message (.loginRequest lr) => Unhindered h x.1 lr
    | .message (.switchSidesResponse (some lr) uuid) =>
      uuid.isSome = true ∧ c.tables.switchSidesUuid lr.myId = uuid
    | _ => True

instance (c : Connection) (x : Env × Input) : Decidable (ComesBeforeUser h c x) := by
  unfold ComesBeforeUser Unhindered
  split <;> infer_instance

theorem shown_step {x : Env × Input} (hI : Shown c)
    (hx : ComesBeforeUser h c x) : Shown (c.step h x) := by
  intro hp hn
  rcases step_acts h c x with ⟨hq, hr⟩ | ⟨hr, r, ha, hq, hk⟩
  · exact (hI (hr hp) (hq.gate ▸ hn)).quiet hq
  refine Waiting.quiet ?_ hq
  have hn' : r.1.gate.authorized = false := hq.gate ▸ hn
  have hc : c.gate.authorized = false := by
    cases hc : c.gate.authorized with
    | false => rfl
    | true =>
      cases hc.symm.trans ((ha.settled h x.1 hc).authorized.symm.trans hn')
  have hw := hI hr hc
  have hx := hx hc
  obtain ⟨env, i⟩ := x
  cases ha with
  | login => exact loginRequest_shown h env hw.socket hx (hk hp) hn'
  | code code hwid => exact auth2fa_shown h env hw code hwid (hk hp) hn'
  | sides lr uuid =>
    refine switchSidesResponse_shown h env hw lr uuid ?_ (hk hp) hn'
    intro l hl
    subst hl
    exact hx
  | click =>
    cases (sendLogon_authorized h env (.inl rfl) (hk hp)).symm.trans hn'

theorem shown_start (control : Option ℕ) (require2fa : Bool) (services : List Service)
    (tables : Tables) : Shown (start h env control require2fa services tables) := by
  intro _ _
  refine ⟨⟨rfl, rfl, rfl, rfl, rfl, fun hr => absurd rfl hr⟩, rfl, ?_⟩
  intro l hl
  cases hl

/-- **What is approved is what is granted.** In every run in which, before the
connection is authorized, login requests come before the local user, a click
that authorizes the connection authorizes it as what the connection manager
was last shown. -/
theorem approved_is_granted (control : Option ℕ) (require2fa : Bool) (services : List Service)
    (tables : Tables) (is : List (Env × Input))
    (hm : Run.Meets (step h) (ComesBeforeUser h)
      (start h env control require2fa services tables) is)
    (e : Env) (l : Login)
    (hl : (Run.run (step h) (start h env control require2fa services tables) is).logins.getLast? =
      some l)
    (hn : (Run.run (step h) (start h env control require2fa services tables) is).gate.authorized =
      false)
    (ha : (Run.run (step h) (start h env control require2fa services tables)
      (is ++ [(e, .authorize)])).gate.authorized = true) :
    Approved l (Run.run (step h) (start h env control require2fa services tables)
      (is ++ [(e, .authorize)])).gate := by
  have hI : Shown (Run.run (step h) (start h env control require2fa services tables) is) :=
    Run.inv_run_of_meets (fun c x _ hI hx => shown_step h hI hx)
      (shown_start h env control require2fa services tables) hm
  rw [Run.run_append] at ha ⊢
  generalize Run.run (step h) (start h env control require2fa services tables) is = c at *
  rw [Run.run_cons, Run.run_nil] at ha ⊢
  rcases step_acts h c (e, .authorize) with ⟨hq, -⟩ | ⟨hr, r, hc, hq, -⟩
  · rw [hq.gate] at ha
    cases ha.symm.trans hn
  · rw [hq.gate] at ha ⊢
    cases hc
    exact authorize_approved h e (hI hr hn) hn ha hl

def fileTransferRequest : List (Env × Input) :=
  [({}, .message (.loginRequest
    { username := "host", myId := "1", myName := "a", union := some (.fileTransfer "" false) }))]

theorem fileTransferRequest_approved :
    ∃ l, (Run.run (step .desktop) (start .desktop {} none false [] {})
        fileTransferRequest).logins.getLast? = some l ∧
      Approved l (Run.run (step .desktop) (start .desktop {} none false [] {})
        (fileTransferRequest ++ [(({} : Env), Input.authorize)])).gate :=
  ⟨_, rfl, approved_is_granted .desktop {} none false [] {} fileTransferRequest (by decide) {} _ rfl
    (by decide) (by decide)⟩

/-- **Shown one, granted another.** The peer 1 asks for a remote session; then
a request of the peer 2 for a file transfer, with a password, meets the failure
limit. The connection manager still shows the first request, and the click
authorizes the second. -/
theorem limited_request_is_granted : let is : List (Env × Input) :=
      [({}, .message (.loginRequest { username := "host", myId := "1", myName := "a" })),
        ({ passwordBlock := some .oneMinuteLater }, .message (.loginRequest
          { username := "host", myId := "2", myName := "b", password := [0],
            union := some (.fileTransfer "" false) }))]
    let c := Run.run (step .desktop) (start .desktop {} none false [] {}) is
    let c' := Run.run (step .desktop) (start .desktop {} none false [] {})
      (is ++ [(({} : Env), Input.authorize)])
    c.gate.authorized = false ∧ c'.gate.authorized = true ∧
      c'.gate.authedConnType = some .fileTransfer ∧ c'.gate.lr.myId = "2" ∧
      ∃ l, c.logins.getLast? = some l ∧ l.isFileTransfer = false ∧ l.peerId = "1" ∧
        ¬ Approved l c'.gate :=
  ⟨by decide, by decide, by decide, by decide, _, rfl, by decide, by decide, by decide⟩

end Connection
end CodeDesk.Conn
