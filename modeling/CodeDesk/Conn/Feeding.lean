/-
# No feed outside the session

In every run whose permission switches subscribe only remote sessions, a
connection is fed only what fits the session it is authorized as
(`Connection.fed_within_session`). The login, the messages of an authorized
peer and the voice calls need no condition.
-/
import CodeDesk.Conn.Subscriptions

namespace CodeDesk.Conn

theorem Gate.connType_of_isRemote {g : Gate} (hr : g.isRemote = true) : g.connType = .remote := by
  simp only [Gate.isRemote, Bool.and_eq_true, Option.isNone_iff_eq_none, Bool.not_eq_true'] at hr
  obtain ⟨⟨⟨h₁, h₂⟩, h₃⟩, h₄⟩ := hr
  simp [Gate.connType, h₁, h₂, h₃, h₄]

theorem Gate.viewCamera_of_connType {g : Gate} (ht : g.connType = .viewCamera) :
    g.viewCamera = true := by
  unfold Gate.connType at ht
  split at ht
  · cases ht
  split at ht
  · cases ht
  split at ht
  · assumption
  split at ht <;> cases ht

theorem Feed.Fits.trySubMonitorServices {t : AuthConnType} {f : Feed} {g : Gate} (h : Host)
    (hf : f.Fits (some t)) (ht : g.connType = t) :
    (f.trySubMonitorServices h g.isRemote).Fits (some t) := by
  by_cases hr : g.isRemote = true
  · have : t = .remote := ht.symm.trans (Gate.connType_of_isRemote hr)
    subst this
    exact Feed.fits_remote _
  · rw [Feed.trySubMonitorServices, if_neg (by simp [hr])]
    exact hf

namespace Connection

variable (h : Host) (env : Env)

structure Fed (c : Connection) : Prop where
  typed : c.gate.authorized = false → c.gate.authedConnType = none
  connType : ∀ t, c.gate.authedConnType = some t → c.gate.connType = t
  fits : c.feed.Fits c.gate.authedConnType

variable {c : Connection} {t : AuthConnType} {r : Connection × Bool}

theorem fed_of_none (ht : c.gate.authedConnType = none) (hf : c.feed.Fits none) : Fed c :=
  ⟨fun _ => ht, fun _ hx => (nomatch ht.symm.trans hx), ht ▸ hf⟩

theorem Fed.feed (hc : Fed c) {f : Feed} (hf : f.Fits c.gate.authedConnType) :
    Fed { c with feed := f } :=
  ⟨hc.typed, hc.connType, hf⟩

/-! ### The logon -/

theorem updateScopedLoginOptions_fits (ht : c.gate.authedConnType = some t)
    (hf : c.feed.Fits (some t)) : (c.updateScopedLoginOptions h).feed.Fits (some t) := by
  unfold updateScopedLoginOptions
  split
  · exact hf
  rename_i o _
  dsimp only
  rw [ht, Option.bind_some]
  split
  · rename_i o' ho
    exact hf.loginOptions h o o' ho
  · exact hf

theorem startSession_fits (ht : c.gate.connType = t)
    (hf : c.feed.Fits (some t)) : (c.startSession h env).feed.Fits (some t) := by
  unfold startSession
  dsimp only
  split
  · exact hf.same
  split
  · split
    · exact hf.same
    · exact (hf.trySubCameraDisplays env.primaryCamera).same
  · split
    · exact hf.trySubMonitorServices h ht
    · exact hf

theorem welcome_fits (ha : c.gate.authedConnType = some t) (ht : c.gate.connType = t)
    (hf : c.feed.Fits (some t)) : (c.welcome h env).feed.Fits (some t) := by
  unfold welcome
  split
  · exact hf
  split
  · exact hf
  dsimp only
  generalize hr : reply _ c = r
  have hg : r.gate = c.gate := by rw [← hr]; rfl
  have hfr : r.feed.Fits (some t) := by rw [← hr]; exact hf
  obtain ⟨⟨o, hw⟩, -⟩ := updateScopedLoginOptions_welcomed h r
  refine startSession_fits h env ?_ (updateScopedLoginOptions_fits h (hg ▸ ha) hfr)
  rwa [hw, hg]

theorem Logged.fed {d : Connection} (hl : Logged h env c d) (hf : c.feed.Fits none) : Fed d := by
  have hpending : ∀ {b}, Pending c b → b.feed.Fits none := fun hp =>
    hf.same (by rw [hp.server]) hp.voiceCalling
  cases hl with
  | pending _ hp => exact fed_of_none hp.authedConnType (hpending hp)
  | granted b _ hp hg hfeed =>
    obtain ⟨⟨o, hw⟩, -⟩ := welcome_welcomed h env ({ b with gate := b.gate.grant } : Connection)
    have ha := welcome_granted h env b
    refine ⟨fun hx => absurd (ha.symm.trans (hg ▸ hx)) (by decide), ?_, ?_⟩ <;> rw [hg, hw]
    · intro t hx
      exact Option.some.inj hx
    · rw [hfeed]
      exact welcome_fits h env rfl rfl ((hpending hp).begin _)

theorem Acts.fed {i : Input} (hr : Acts h env c i r) (hc : Fed c) : Fed r.1 := by
  cases hn : c.gate.authorized with
  | true =>
    have hs := hr.settled h env hn
    refine ⟨fun hx => absurd (hn.symm.trans (hs.authorized.symm.trans hx)) (by decide), ?_, ?_⟩
    · exact fun t hx => hs.connType.trans (hc.connType t (hs.authedConnType ▸ hx))
    · rw [hs.authedConnType, hs.feed]
      exact hc.fits
  | false => exact (hr.logged h env ⟨hn, hc.typed hn⟩).fed h env (hc.typed hn ▸ hc.fits)

/-! ### Messages of an authorized peer -/

theorem displays_of_camera {windows : Bool} {m : Message}
    (hm : (∃ d, m = .switchDisplay d) ∨ ∃ add sub set, m = .captureDisplays add sub set)
    (hv : authorizedMessageScopeViolation windows t m = false) (ht : t ≠ .remote) :
    t = .viewCamera := by
  rcases hm with ⟨d, rfl⟩ | ⟨add, sub, set, rfl⟩ <;> cases t <;>
    first | rfl | exact absurd rfl ht | exact absurd hv (by decide) | cases hv

theorem selectedSid_fits (ht : c.gate.connType = t) (hf : c.feed.Fits (some t)) (sid : ℕ) :
    (c.authorizedMessage h env (.selectedSid sid)).1.feed.Fits (some t) := by
  unfold authorizedMessage
  dsimp only
  split
  · exact hf
  split
  · exact hf
  · split
    · exact hf
    split
    · exact hf.trySubCameraDisplays env.primaryCamera
    split
    · exact hf.trySubMonitorServices h ht
    · exact hf
  · exact hf

theorem authorizedMessage_fits (hc : Fed c) (m : Message)
    (hv : c.authorizedScopeViolation h m = false) :
    (c.authorizedMessage h env m).1.feed.Fits c.gate.authedConnType := by
  have hf := hc.fits
  by_cases hs : c.gate.portForwardSocket.isSome = true
  · unfold authorizedMessage
    rw [if_pos hs]
    exact hf
  unfold authorizedScopeViolation at hv
  cases ha : c.gate.authedConnType with
  | none =>
    rw [ha] at hv hf
    unfold authorizedMessage
    rw [if_neg hs]
    cases m <;> first | exact hf | cases hv
  | some t =>
    rw [ha] at hv hf
    have ht := hc.connType t ha
    by_cases hr : t = .remote
    · subst hr
      exact Feed.fits_remote _
    have hne : ¬ c.gate.authedConnType = some .remote := by
      rw [ha]
      exact fun he => hr (Option.some.inj he)
    cases m with
    | selectedSid sid => exact selectedSid_fits h env ht hf sid
    | option o =>
      unfold authorizedMessage
      dsimp only
      rw [if_neg hs, if_neg hne, ha, Option.bind_some]
      split
      · rename_i o' ho
        exact hf.laterOptions h o o' ho
      · exact hf
    | switchDisplay d =>
      have hcam := displays_of_camera (.inl ⟨d, rfl⟩) hv hr
      have hvc := Gate.viewCamera_of_connType (ht.trans hcam)
      rw [authorizedMessage, if_neg hs, hvc]
      exact hf.handleSwitchDisplay _ d
    | captureDisplays add sub set =>
      have hcam := displays_of_camera (.inr ⟨add, sub, set, rfl⟩) hv hr
      have hvc := Gate.viewCamera_of_connType (ht.trans hcam)
      rw [authorizedMessage, if_neg hs, hvc]
      exact hf.captureDisplays add sub set
    | voiceCallRequest =>
      unfold authorizedMessage
      dsimp only
      rw [if_neg hs, ha]
      split
      · exact hf.same
      · exact hf.closeVoiceCall
    | _ =>
      unfold authorizedMessage
      rw [if_neg hs]
      exact hf

theorem onMessage_fed (hc : Fed c) (m : Message) : Fed (c.onMessage h env m).1 := by
  have hh := onMessage_handled h env m c
  generalize c.onMessage h env m = r at hh ⊢
  cases hh with
  | idle => exact { hc with }
  | served hv =>
    have hs := authorizedMessage_fits h env hc m hv
    obtain ⟨f, hf⟩ := authorizedMessage_feed h env m c
    rw [hf] at hs ⊢
    exact hc.feed hs
  | acted r ha => exact ha.fed h env hc

/-! ### Runs -/

/-- A permission switch subscribes only a remote session; the audio also a
camera. -/
def SwitchesRemote (c : Connection) (x : Env × Input) : Prop :=
  match x.2 with
  | .switchPermission name enabled _ =>
    c.gate.authedConnType = some .remote ∨
      match name with
      | .keyboard => enabled = false ∧ c.feed.showRemoteCursor = false ∧
          (h.unixFileCopyPaste && c.feed.canSubFileClipboardService h) = false
      | .clipboard => ({ c.feed with clipboard := enabled } : Feed).canSubClipboardService h = false
      | .audio => c.gate.authorized = false ∨ c.gate.authedConnType = some .viewCamera ∨
          ({ c.feed with audio := enabled } : Feed).audioEnabled = false
      | .file => (h.unixFileCopyPaste &&
          ({ c.feed with file := enabled } : Feed).canSubFileClipboardService h) = false
      | _ => True
  | _ => True

instance (c : Connection) : ∀ x : Env × Input, Decidable (SwitchesRemote h c x)
  | (_, i) => by
    unfold SwitchesRemote
    dsimp only
    split
    · refine @instDecidableOr _ _ inferInstance ?_
      split <;> infer_instance
    · infer_instance

theorem switchPermission_fits (hc : Fed c) (name : Feed.Switch) (enabled privacyLeft : Bool)
    (hx : SwitchesRemote h c (env, .switchPermission name enabled privacyLeft)) :
    (c.feed.switchPermission h c.gate.authorized c.gate.authedConnType privacyLeft name
      enabled).Fits c.gate.authedConnType := by
  have hf := hc.fits
  rcases hx with hr | hx
  · rw [hr]
    exact Feed.fits_remote _
  cases name with
  | keyboard =>
    obtain ⟨rfl, hcur, hfile⟩ := hx
    have hg : Feed.Fits c.gate.authedConnType { c.feed with keyboard := false } := hf.same
    have hb : ({ c.feed with keyboard := false } : Feed).canSubClipboardService h = false := by
      simp [Feed.canSubClipboardService, Feed.peerKeyboardEnabled]
    have hclip := hg.subscribe (s := .clipboard) (b := false) nofun
    unfold Feed.switchPermission
    dsimp only
    rw [hb]
    have hcursor : ∀ g : Feed, g.Fits c.gate.authedConnType → g.showRemoteCursor = false →
        (g.subscribe .cursor (false || g.showRemoteCursor)).Fits c.gate.authedConnType := by
      intro g hg hs
      rw [hs]
      exact hg.subscribe nofun
    split_ifs with hu
    · rw [hu, Bool.true_and] at hfile
      refine hcursor _ (hclip.subscribe fun hx => ?_) hcur
      cases hx.symm.trans hfile
    · exact hcursor _ hclip hcur
  | clipboard =>
    have hg : Feed.Fits c.gate.authedConnType { c.feed with clipboard := enabled } := hf.same
    exact hg.subscribe fun hb => absurd (hb.symm.trans hx) (by decide)
  | audio =>
    have hg : Feed.Fits c.gate.authedConnType { c.feed with audio := enabled } := hf.same
    unfold Feed.switchPermission
    dsimp only
    split_ifs with ha
    · rcases hx with hx | hx | hx
      · cases ha.symm.trans hx
      · rw [hx] at hg ⊢
        exact hg.subAudio
      · exact hg.subAudio_off hx
    · exact hg
  | file =>
    have hg : Feed.Fits c.gate.authedConnType { c.feed with file := enabled } := hf.same
    unfold Feed.switchPermission
    dsimp only
    split_ifs with hu
    · refine hg.subscribe fun hb => ?_
      rw [hu, Bool.true_and] at hx
      cases hb.symm.trans hx
    · exact hg
  | privacyMode =>
    unfold Feed.switchPermission
    dsimp only
    split
    · exact hf.same
    · exact hf
  | _ => exact hf.same

theorem Fed.leave (hc : Fed c) (closed : Bool) : Fed (c.leave closed) := by
  unfold Connection.leave close
  split
  · exact { hc with }
  · exact ⟨hc.typed, hc.connType, Feed.fits_removeConnection _ _⟩

theorem Fed.goOn (hc : Fed r.1) (closed : Bool) (forwards : Connection → Bool) :
    Fed (goOn closed forwards r) := by
  unfold Connection.goOn
  split
  · exact hc
  · exact hc.leave closed

theorem fed_turn (hc : Fed c) (i : Input) (hx : SwitchesRemote h c (env, i)) :
    Fed (c.turn h env i) := by
  unfold turn
  cases i with
  | message m => exact (onMessage_fed h env hc m).goOn _ _
  | authorize => exact ((Acts.click (h := h) (c := c)).fed h env hc).goOn _ _
  | switchPermission name enabled privacyLeft =>
    exact hc.feed (switchPermission_fits h env hc name enabled privacyLeft hx)
  | voiceCallResponse accepted => exact hc.feed (hc.fits.handleVoiceCall accepted)
  | closeVoiceCall => exact hc.feed hc.fits.closeVoiceCall
  | testDelayTimer =>
    dsimp only
    split <;> exact { hc with }
  | stop => exact hc.leave true
  | shared => exact { hc with }
  | serviceAdded s => exact hc.feed (hc.fits.same (Server.addService_subs _ s) rfl)

theorem fed_step {x : Env × Input} (hc : Fed c) (hx : SwitchesRemote h c x) : Fed (c.step h x) := by
  obtain ⟨env, i⟩ := x
  unfold step
  cases c.phase with
  | running => exact fed_turn h env hc i hx
  | forwarding =>
    cases i with
    | stop => exact ⟨hc.typed, hc.connType, Feed.fits_removeConnection _ _⟩
    | shared => exact { hc with }
    | serviceAdded s =>
      exact ⟨hc.typed, hc.connType, hc.fits.same (Server.addService_subs _ s) rfl⟩
    | _ => exact hc
  | closed => exact hc

theorem fed_start (control : Option ℕ) (require2fa : Bool) (services : List Service)
    (tables : Tables) : Fed (start h env control require2fa services tables) :=
  fed_of_none rfl ⟨nofun, nofun⟩

/-- **Fed within the session.** In every run whose permission switches
subscribe only remote sessions (the audio: also a camera), the clipboard, the
file clipboard, the cursor, its position and the monitors feed the connection
only while it is authorized as a remote session, and the audio only then or,
during an accepted voice call, as a camera. -/
theorem fed_within_session (control : Option ℕ) (require2fa : Bool) (services : List Service)
    (tables : Tables) (is : List (Env × Input))
    (hm : Run.Meets (step h) (SwitchesRemote h)
      (start h env control require2fa services tables) is) :
    let c := Run.run (step h) (start h env control require2fa services tables) is
    (∀ s ∈ c.feed.server.subs, s.remoteOnly = true →
      c.gate.authorized = true ∧ c.gate.authedConnType = some .remote) ∧
    (.audio ∈ c.feed.server.subs → c.gate.authorized = true ∧
      (c.gate.authedConnType = some .remote ∨
        (c.gate.authedConnType = some .viewCamera ∧ c.feed.voiceCalling = true))) := by
  intro c
  have hI : Fed c := Run.inv_run_of_meets (fun c x _ hI hx => fed_step h hI hx)
    (fed_start h env control require2fa services tables) hm
  have ha : ∀ t, c.gate.authedConnType = some t → c.gate.authorized = true := by
    intro t ht
    cases hn : c.gate.authorized with
    | true => rfl
    | false => cases (hI.typed hn).symm.trans ht
  refine ⟨fun s hs hr => ?_, fun hs => ?_⟩
  · have ht := hI.fits.remote s hs hr
    exact ⟨ha _ ht, ht⟩
  · rcases hI.fits.audio hs with ht | ht
    · exact ⟨ha _ ht, .inl ht⟩
    · exact ⟨ha _ ht.1, .inr ht⟩

def clipboardSwitched : List (Env × Input) :=
  [({}, .message (.loginRequest { username := "host" })), ({}, .authorize),
    ({}, .switchPermission .clipboard false false), ({}, .switchPermission .clipboard true false)]

theorem clipboardSwitched_fed :
    let c := Run.run (step .desktop)
      (start .desktop {} none false [.audio, .clipboard, .cursor] {}) clipboardSwitched
    Service.clipboard ∈ c.feed.server.subs ∧ c.gate.authorized = true ∧
      c.gate.authedConnType = some .remote :=
  ⟨by decide, (fed_within_session .desktop {} none false [.audio, .clipboard, .cursor] {}
    clipboardSwitched (by decide)).1 .clipboard (by decide) rfl⟩

/-- **Fed before anybody authorized it.** The connection manager, asked to accept
a login, switches the keyboard permission instead: the clipboard and the cursor
feed the connection from then on. -/
theorem switch_feeds_unauthorized :
    let c := Run.run (step .desktop)
      (start .desktop {} none false [.audio, .clipboard, .cursor] {})
      [({}, .message (.loginRequest { username := "host" })),
        ({}, .switchPermission .keyboard true false)]
    c.gate.authorized = false ∧ Service.clipboard ∈ c.feed.server.subs ∧
      Service.cursor ∈ c.feed.server.subs := by
  decide

end Connection
end CodeDesk.Conn
