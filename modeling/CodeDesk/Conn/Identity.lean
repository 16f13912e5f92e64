/-
# The identity of a session

Whatever type a connection is authorized as, the permission of that type was
on for the request that set it, and from then on neither the login request
nor the session key nor the type changes
(`Connection.identity_checked_and_fixed`). The switch of sides is what this
depends on: its login request replaces the stored one without any check,
before the connection is authorized and, on a remote session, after it
(`Connection.sides_bring_unchecked_request`).
-/
import CodeDesk.Run
import CodeDesk.Conn.Requests

namespace CodeDesk.Conn
variable {lr : LoginRequest}

theorem LoginRequest.target_connType {a : String} (ht : lr.target = some a) :
    lr.connType = .portForward := by
  unfold LoginRequest.target at ht
  unfold LoginRequest.connType
  split at ht
  · rename_i hu
    rw [hu]
  · cases ht

theorem LoginRequest.fileTransfer_connType {x : String × Bool}
    (hx : lr.fileTransfer = some x) : lr.connType = .fileTransfer := by
  unfold LoginRequest.fileTransfer at hx
  unfold LoginRequest.connType
  split at hx
  · rename_i hu
    rw [hu]
  · cases hx

namespace Connection

variable (h : Host) (env : Env)

/-- The scope of a connection that is not authorized yet was checked. -/
structure Checked (c : Connection) : Prop where
  fileTransfer : ∀ x, c.gate.fileTransfer = some x →
    ∃ lr, c.past.checked = some (.fileTransfer, lr) ∧ lr.fileTransfer = some x
  viewCamera : c.gate.viewCamera = true →
    ∃ lr, c.past.checked = some (.viewCamera, lr) ∧ lr.connType = .viewCamera
  terminal : c.gate.terminal = true →
    ∃ lr, c.past.checked = some (.terminal, lr) ∧ lr.connType = .terminal
  target : ∀ a, c.gate.lr.target = some a → c.past.checked = some (.portForward, c.gate.lr)
  socket : c.gate.portForwardSocket = none

/-- The request that set the type `t` passed the check for `t`. -/
def CheckedFor (t : AuthConnType) (c : Connection) : Prop :=
  ∃ lr, c.past.checked = some (t, lr) ∧ lr.connType = t ∧
    (t = .fileTransfer → c.gate.fileTransfer = lr.fileTransfer) ∧
    (t = .portForward → c.gate.portForwardSocket = lr.target)

structure Identified (c : Connection) : Prop where
  waiting : c.phase = .running → c.gate.authorized = false → Checked c
  typed : c.gate.authorized = false → c.gate.authedConnType = none
  granted : ∀ t, c.gate.authedConnType = some t → t ≠ .remote → CheckedFor t c

variable {c c' : Connection} {t : AuthConnType} {x : Env × Input}

theorem ScopeOf.checkedScope (hs : ScopeOf lr c)
    (ht : c.gate.portForwardSocket = none) : Checked c where
  fileTransfer := by
    intro x hx
    have hl : lr.fileTransfer = some x := hs.fileTransfer.symm.trans hx
    have hc := LoginRequest.fileTransfer_connType hl
    exact ⟨lr, hc ▸ hs.checked (by rw [hc]; decide), hl⟩
  viewCamera := by
    intro hv
    have hc : lr.connType = .viewCamera := by simpa using hs.viewCamera.symm.trans hv
    exact ⟨lr, hc ▸ hs.checked (by rw [hc]; decide), hc⟩
  terminal := by
    intro hv
    have hc : lr.connType = .terminal := by simpa using hs.terminal.symm.trans hv
    exact ⟨lr, hc ▸ hs.checked (by rw [hc]; decide), hc⟩
  target := by
    intro a ha
    rw [hs.request] at ha ⊢
    have hc := LoginRequest.target_connType ha
    exact hc ▸ hs.checked (by rw [hc]; decide)
  socket := ht

theorem Checked.same (hc : Checked c) (hs : SameScope c c') (ht : c'.gate.portForwardSocket = none)
    (hr : ∀ a, c'.gate.lr.target = some a → c'.gate.lr = c.gate.lr) : Checked c' where
  fileTransfer := by
    rw [hs.fileTransfer, hs.checked]
    exact hc.fileTransfer
  viewCamera := by
    rw [hs.viewCamera, hs.checked]
    exact hc.viewCamera
  terminal := by
    rw [hs.terminal, hs.checked]
    exact hc.terminal
  target := by
    intro a ha
    have he := hr a ha
    rw [hs.checked, he]
    exact hc.target a (he ▸ ha)
  socket := ht

theorem Checked.keep (hc : Checked c) (hs : SameScope c c' := by constructor <;> rfl)
    (ht : c'.gate.portForwardSocket = c.gate.portForwardSocket := by rfl)
    (hr : c'.gate.lr = c.gate.lr := by rfl) : Checked c' :=
  hc.same hs (ht.trans hc.socket) fun _ _ => hr

theorem Checked.granted (hc : Checked c) (hp : Prepared c c')
    (hs : c'.gate.portForwardSocket = c.gate.lr.target)
    (ht : c'.gate.connType = t) (hn : t ≠ .remote) : CheckedFor t c' := by
  unfold Gate.connType at ht
  split at ht
  · rename_i hf
    obtain ⟨x, hx⟩ := Option.isSome_iff_exists.1 hf
    obtain ⟨lr, hl, hlx⟩ := hc.fileTransfer x (hp.fileTransfer ▸ hx)
    subst ht
    exact ⟨lr, hp.checked.trans hl, LoginRequest.fileTransfer_connType hlx,
      fun _ => hx.trans hlx.symm, nofun⟩
  split at ht
  · rename_i hf
    obtain ⟨a, hx⟩ := Option.isSome_iff_exists.1 hf
    have ha : c.gate.lr.target = some a := hs.symm.trans hx
    subst ht
    exact ⟨c.gate.lr, hp.checked.trans (hc.target a ha), LoginRequest.target_connType ha,
      nofun, fun _ => hs⟩
  split at ht
  · rename_i hv
    obtain ⟨lr, hl, hlc⟩ := hc.viewCamera (hp.viewCamera ▸ hv)
    subst ht
    exact ⟨lr, hp.checked.trans hl, hlc, nofun, nofun⟩
  split at ht
  · rename_i hv
    obtain ⟨lr, hl, hlc⟩ := hc.terminal (hp.terminal ▸ hv)
    subst ht
    exact ⟨lr, hp.checked.trans hl, hlc, nofun, nofun⟩
  · exact absurd ht.symm hn

/-! ### The handlers -/

/-- The result of a handler for a connection that was not authorized. -/
structure IdentifiedResult (r : Connection × Bool) : Prop where
  waiting : r.2 = true → r.1.gate.authorized = false → Checked r.1
  typed : r.1.gate.authorized = false → r.1.gate.authedConnType = none
  granted : ∀ t, r.1.gate.authedConnType = some t → t ≠ .remote → CheckedFor t r.1

theorem identifiedResult_closed (hn : c.gate.authedConnType = none) : IdentifiedResult (c, false) :=
  ⟨nofun, fun _ => hn, fun _ ht => nomatch hn.symm.trans ht⟩

theorem identifiedResult_waiting (hc : Checked c)
    (hn : c.gate.authedConnType = none) : IdentifiedResult (c, true) :=
  ⟨fun _ _ => hc, fun _ => hn, fun _ ht => nomatch hn.symm.trans ht⟩

theorem Checked.quiet (hc : Checked c) (hq : Quiet c c') : Checked c' := by
  obtain ⟨hg, hp, -⟩ := hq
  exact hc.keep ⟨by rw [hg], by rw [hg], by rw [hg], by rw [hg], by rw [hp]⟩ (by rw [hg]) (by rw [hg])

theorem CheckedFor.quiet (hc : CheckedFor t c) (hq : Quiet c c') : CheckedFor t c' := by
  obtain ⟨hg, hp, -⟩ := hq
  obtain ⟨lr, h₁, h₂, h₃, h₄⟩ := hc
  exact ⟨lr, by rw [hp]; exact h₁, h₂, by rw [hg]; exact h₃, by rw [hg]; exact h₄⟩

theorem IdentifiedResult.quiet {r : Connection × Bool} {k : Bool}
    (hr : IdentifiedResult r) (hk : r.2 = k) (hq : Quiet r.1 c') : IdentifiedResult (c', k) where
  waiting := fun hk' ha => (hr.waiting (hk.trans hk') (hq.gate ▸ ha)).quiet hq
  typed := by
    rw [hq.gate]
    exact hr.typed
  granted := fun t ht hn => (hr.granted t (hq.gate ▸ ht) hn).quiet hq

section

variable (hc : Checked c) (ha : c.gate.authorized = false) (hn : c.gate.authedConnType = none)

include hc ha hn

theorem sendLogon_identified : IdentifiedResult (c.sendLogonResponseAndKeepAlive h env) := by
  have hl := sendLogon_cases h env c
  generalize c.sendLogonResponseAndKeepAlive h env = r at hl ⊢
  cases hl with
  | already hx => cases hx.symm.trans ha
  | asked => exact identifiedResult_waiting (hc.quiet ⟨rfl, rfl, rfl⟩) hn
  | closed c' _ hp => exact identifiedResult_closed (hp.authedConnType.trans hn)
  | granted c' _ hp _ hs =>
    obtain ⟨⟨o, hg⟩, hw, -⟩ := welcome_welcomed h env ({ c' with gate := c'.gate.grant } : Connection)
    have ha' := welcome_granted h env c'
    refine ⟨fun _ hx => absurd (ha'.symm.trans hx) (by decide),
      fun hx => absurd (ha'.symm.trans hx) (by decide), fun t ht hr => ?_⟩
    rw [hg] at ht
    have ht : c'.gate.connType = t := Option.some.inj ht
    obtain ⟨lr, h₁, h₂, h₃, h₄⟩ := hc.granted hp (hs hc.socket).1 ht hr
    refine ⟨lr, by rw [hw]; exact h₁, h₂, ?_, ?_⟩ <;> rw [hg]
    exacts [h₃, h₄]

theorem logonAndStartCm_identified (id name : String) :
    IdentifiedResult (c.logonAndStartCm h env id name) := by
  have hs := sendLogon_identified h env hc ha hn
  rw [logonAndStartCm_eq]
  generalize c.sendLogonResponseAndKeepAlive h env = r at hs ⊢
  obtain ⟨c', k⟩ := r
  cases k with
  | false => exact hs
  | true =>
    refine ⟨fun hk hx => ?_, hs.typed, hs.granted⟩
    exact (hs.waiting rfl hx).keep

theorem loginRequest_identified (lr : LoginRequest) :
    IdentifiedResult (c.loginRequest h env lr) := by
  have hl := loginRequest_result h env lr c
  generalize c.loginRequest h env lr = r at hl ⊢
  cases hl with
  | closed c' hr => exact identifiedResult_closed (hr.authedConnType.trans hn)
  | reached b r hr hs hb =>
    have hb' : b.gate.portForwardSocket = none := hr.socket.trans hc.socket
    have hcb : Checked b := hs.checkedScope hb'
    have hnb : b.gate.authedConnType = none := hr.authedConnType.trans hn
    cases hb with
    | refused => exact identifiedResult_waiting (hcb.quiet ⟨rfl, rfl, rfl⟩) hnb
    | notReady => exact identifiedResult_waiting hcb.keep hnb
    | stopped c' hp => exact identifiedResult_closed (hp.authedConnType.trans hnb)
    | asked c' rs hp hsc hq =>
      exact identifiedResult_waiting (hcb.keep { hsc with } hq hp.lr) (hp.authedConnType.trans hnb)
    | logon a t x =>
      have hcp : Checked (b.primaryProved a t x) := hcb.keep
      exact logonAndStartCm_identified h env hcp (hr.authorized.trans ha) hnb _ _

theorem auth2fa_identified (code : String) (hwid : Bytes) :
    IdentifiedResult (c.auth2fa h env code hwid) := by
  have hl := auth2fa_result h env code hwid c
  generalize c.auth2fa h env code hwid = r at hl ⊢
  cases hl with
  | answered c' hr => exact identifiedResult_waiting (hc.quiet hr.toQuiet) (by rw [hr.gate, hn])
  | accepted c' k _ _ hk hr =>
    have hcp : Checked c.codeProved := hc.keep
    have hi := logonAndStartCm_identified h env hcp ha hn c.gate.lr.myId c.gate.lr.myName
    exact hi.quiet hk hr.toQuiet

theorem switchSidesResponse_identified (lr : Option LoginRequest)
    (uuid : Option ℕ) (hl : ∀ l, lr = some l → l.target = none) :
    IdentifiedResult (c.switchSidesResponse h env lr uuid) := by
  unfold switchSidesResponse
  cases lr with
  | none => exact identifiedResult_waiting hc hn
  | some lr =>
    dsimp only
    split
    · have hr := handleLogin_received env lr c
      have hs := handleLogin_sameScope env lr c
      have ht : ∀ a, lr.target = some a → lr = c.gate.lr := by
        intro a hx
        simp [hl lr rfl] at hx
      have hcb : Checked (c.handleLoginRequestWithoutValidation env lr) := by
        refine hc.same hs (hr.socket.trans hc.socket) ?_
        rwa [hr.request]
      split
      · apply logonAndStartCm_identified h env
        · exact hcb.keep
        · exact hr.authorized.trans ha
        · exact hr.authedConnType.trans hn
      · exact identifiedResult_waiting hcb.keep (hr.authedConnType.trans hn)
    · exact identifiedResult_waiting hc hn

theorem authorize_identified : IdentifiedResult (c.authorize h env) := by
  exact sendLogon_identified h env hc.keep ha hn

end

/-! ### Runs -/

/-- A switch of sides brings no request for a port forward before the
connection is authorized, and on a remote session none but the stored one. -/
def SidesBringNothingNew (c : Connection) (x : Env × Input) : Prop :=
  match x.2 with
  | .message (.switchSidesResponse (some lr) _) =>
    (c.gate.authorized = false → lr.target = none) ∧
      (c.gate.authedConnType = some .remote → lr = c.gate.lr)
  | _ => True

instance (c : Connection) : ∀ x : Env × Input, Decidable (SidesBringNothingNew c x)
  | (_, i) => by
    unfold SidesBringNothingNew
    dsimp only
    split <;> infer_instance

theorem Identified.quiet (hI : Identified c) (hq : Quiet c c')
    (hp : c'.phase = .running → c.phase = .running) : Identified c' := by
  refine ⟨fun hr ha => (hI.waiting (hp hr) (hq.gate ▸ ha)).quiet hq, ?_,
    fun t hx hn => (hI.granted t (hq.gate ▸ hx) hn).quiet hq⟩
  rw [hq.gate]
  exact hI.typed

theorem identified_step (hI : Identified c)
    (hx : SidesBringNothingNew c x) : Identified (c.step h x) := by
  rcases step_acts h c x with ⟨hq, hp⟩ | ⟨hr, r, ha, hq, hk⟩
  · exact hI.quiet hq hp
  cases hn : c.gate.authorized with
  | true =>
    -- The type and the scope of an authorized connection are settled.
    have hs := ha.settled h x.1 hn
    have ha' : (c.step h x).gate.authorized = true := by rw [hq.gate, hs.authorized, hn]
    refine ⟨fun _ hf => absurd (ha'.symm.trans hf) (by decide),
      fun hf => absurd (ha'.symm.trans hf) (by decide), fun t hx hne => ?_⟩
    rw [hq.gate, hs.authedConnType] at hx
    obtain ⟨lr, h₁, h₂, h₃, h₄⟩ := hI.granted t hx hne
    refine CheckedFor.quiet ⟨lr, hs.scope.checked.trans h₁, h₂, ?_, ?_⟩ hq
    · rwa [hs.scope.fileTransfer]
    · rwa [hs.socket]
  | false =>
    have hc := hI.waiting hr hn
    have ht' := hI.typed hn
    have hR : IdentifiedResult r := by
      obtain ⟨env, i⟩ := x
      cases ha with
      | login lr => exact loginRequest_identified h env hc hn ht' lr
      | code code hwid => exact auth2fa_identified h env hc hn ht' code hwid
      | sides lr uuid =>
        refine switchSidesResponse_identified h env hc hn ht' lr uuid fun l hl => ?_
        subst hl
        exact hx.1 hn
      | click => exact authorize_identified h env hc hn ht'
    refine ⟨fun hp hf => (hR.waiting (hk hp) (hq.gate ▸ hf)).quiet hq, ?_,
      fun t hx hne => (hR.granted t (hq.gate ▸ hx) hne).quiet hq⟩
    rw [hq.gate]
    exact hR.typed

theorem step_keeps_identity (hx : SidesBringNothingNew c x) (ha : c.gate.authorized = true) :
    (c.step h x).gate.authorized = true ∧ (c.step h x).gate.lr = c.gate.lr ∧
      (c.step h x).gate.authedConnType = c.gate.authedConnType := by
  rcases step_acts h c x with ⟨hq, -⟩ | ⟨-, r, hr, hq, -⟩
  · rw [hq.gate]
    exact ⟨ha, rfl, rfl⟩
  · rw [hq.gate]
    have hs := hr.settled h x.1 ha
    refine ⟨hs.authorized.trans ha, ?_, hs.authedConnType⟩
    obtain ⟨env, i⟩ := x
    cases hr with
    | login lr hn => cases ha.symm.trans hn
    | code code hwid => exact (auth2fa_of_authorized h env ha code hwid).2
    | click => exact (authorize_of_authorized h env ha).2
    | sides lr uuid hv =>
      rcases (switchSidesResponse_of_authorized h env ha lr uuid).2 with he | he
      · exact he
      cases lr with
      | none => cases he
      | some lr =>
        have he : (c.switchSidesResponse h env (some lr) uuid).1.gate.lr = lr := Option.some.inj he
        rw [he]
        have hv := hv ha
        unfold authorizedScopeViolation at hv
        cases ht : c.gate.authedConnType with
        | none =>
          rw [ht] at hv
          cases hv
        | some t =>
          rw [ht] at hv
          by_cases hn : t = .remote
          · exact hx.2 (hn ▸ ht)
          · cases t <;> first | exact absurd rfl hn | cases hv

theorem identified_start (control : Option ℕ) (require2fa : Bool) (services : List Service)
    (tables : Tables) : Identified (start h env control require2fa services tables) := by
  refine ⟨fun _ _ => ?_, fun _ => rfl, fun _ ht => nomatch ht⟩
  constructor <;> simp [start, LoginRequest.target]

/-- **The identity of a session.** In every run in which a switch of sides
brings nothing new, a connection that is authorized as anything but a remote
session had the permission of its type checked for the request that set it;
and once it is authorized, no later input changes the login request, the
session key or the type. -/
theorem identity_checked_and_fixed (control : Option ℕ) (require2fa : Bool)
    (services : List Service) (tables : Tables) (is js : List (Env × Input))
    (hm : Run.Meets (step h) SidesBringNothingNew
      (start h env control require2fa services tables) (is ++ js)) :
    let c := Run.run (step h) (start h env control require2fa services tables) is
    let c' := Run.run (step h) (start h env control require2fa services tables) (is ++ js)
    (∀ t, c.gate.authedConnType = some t → t ≠ .remote → CheckedFor t c) ∧
      (c.gate.authorized = true → c'.gate.lr = c.gate.lr ∧ c'.gate.sessionKey = c.gate.sessionKey ∧
        c'.gate.authedConnType = c.gate.authedConnType) := by
  intro c c'
  obtain ⟨h₁, h₂⟩ := (Run.meets_append (step h) _ is js).1 hm
  have hI : Identified c := Run.inv_run_of_meets (fun c x _ hI hx => identified_step h hI hx)
    (identified_start h env control require2fa services tables) h₁
  refine ⟨hI.granted, fun ha => ?_⟩
  have hk := Run.inv_run_of_meets (I := fun d => d.gate.authorized = true ∧
      d.gate.lr = c.gate.lr ∧ d.gate.authedConnType = c.gate.authedConnType)
    (fun d x _ hd hx => by
      obtain ⟨ha, hl, ht⟩ := hd
      obtain ⟨ha', hl', ht'⟩ := step_keeps_identity h hx ha
      exact ⟨ha', hl'.trans hl, ht'.trans ht⟩)
    ⟨ha, rfl, rfl⟩ h₂
  have he : c' = Run.run (step h) c js := Run.run_append (step h) _ is js
  obtain ⟨-, hl, ht⟩ := hk
  rw [← he] at hl ht
  exact ⟨hl, by unfold Gate.sessionKey; rw [hl], ht⟩

def acceptedFileTransfer : List (Env × Input) :=
  [({}, .message (.loginRequest { username := "host", union := some (.fileTransfer "" false) })),
    ({}, .authorize)]

theorem acceptedFileTransfer_identity :
    let c := Run.run (step .desktop) (start .desktop {} none false [] {}) acceptedFileTransfer
    c.gate.authedConnType = some .fileTransfer ∧ CheckedFor .fileTransfer c ∧
      (c.step .desktop ({}, .message (.switchSidesResponse (some { myId := "2" }) none))).gate.lr =
        c.gate.lr :=
  have hi := identity_checked_and_fixed .desktop {} none false [] {} acceptedFileTransfer
    [({}, .message (.switchSidesResponse (some { myId := "2" }) none))] (by decide)
  ⟨by decide, hi.1 .fileTransfer (by decide) (by decide), (hi.2 (by decide)).1⟩

/-- **An unchecked request.** With tunnels switched off, a switch of sides with
the right uuid makes the connection a port forward that no permission was
checked for. And on a remote session, a switch of sides with a wrong uuid
replaces the login request and with it the session key. -/
theorem sides_bring_unchecked_request :
    let noTunnel : Env := { option := fun p => if p = .tunnel then "N" else "" }
    let c := Run.run (step .desktop)
      (start .desktop noTunnel none false [] { switchSidesUuid := fun _ => some 7 })
      [(noTunnel, .message (.switchSidesResponse
        (some { union := some (.portForward "localhost" 22) }) (some 7)))]
    let d := Run.run (step .desktop) (start .desktop {} none false [] {})
      [({}, .message (.loginRequest { username := "host", myId := "1" })), ({}, .authorize)]
    let d' := d.step .desktop ({}, .message (.switchSidesResponse (some { myId := "2" }) none))
    (c.gate.authedConnType = some .portForward ∧
      permission .desktop noTunnel c.gate.controlPermissions .tunnel = false ∧
      ¬ CheckedFor .portForward c) ∧
    d.gate.authorized = true ∧ d.gate.sessionKey.peerId = "1" ∧
      d'.gate.authorized = true ∧ d'.gate.lr ≠ d.gate.lr ∧ d'.gate.sessionKey.peerId = "2" := by
  refine ⟨⟨by decide, by decide, ?_⟩, by decide⟩
  rintro ⟨lr, hl, -⟩
  have hs := congrArg Option.isSome hl
  revert hs
  rw [Option.isSome_some]
  decide

end Connection
end CodeDesk.Conn
