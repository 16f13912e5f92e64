/-
# A session keeps to its type

The scope of a session lets messages through for the sake of old clients and
relies on their handlers to ignore them. Together they confine a peer: once a
connection is authorized as anything but a remote session, no run makes the
host do more than the actions and answers of a file transfer or of a terminal,
each in a session of that type, and no monitor gets the connection as a
subscriber (`Desk.session_confined`). The connection manager, timers and other
connections may act in between.
-/
import CodeDesk.Conn.Desk
import CodeDesk.Conn.Feeding

namespace CodeDesk.Conn

/-- What a session of type `t`, not a remote one, may make the host do. -/
def Effect.inScope (t : AuthConnType) : Effect → Bool
  | .fileAction _ => t = .fileTransfer
  | .fileResponse _ => t = .fileTransfer
  | .terminalAction _ => t = .terminal
  | .subscribe (.video .monitor _) => false
  | .subscribe _ => true
  | _ => false

/-! ### Monitors -/

namespace Feed

variable {f g : Feed}

def NoMonitor (f g : Feed) : Prop :=
  ∀ i, .video .monitor i ∈ g.server.subs → .video .monitor i ∈ f.server.subs

theorem NoMonitor.refl (f : Feed) : NoMonitor f f := fun _ hi => hi

theorem NoMonitor.same (hg : NoMonitor f g) {g' : Feed} (hs : g'.server.subs = g.server.subs) :
    NoMonitor f g' :=
  fun i hi => hg i (hs ▸ hi)

theorem NoMonitor.subscribe (hg : NoMonitor f g) {s : Service} (b : Bool)
    (hs : ∀ i, s ≠ .video .monitor i) : NoMonitor f (g.subscribe s b) := by
  intro i hi
  rcases Server.mem_subscribe hi with hi | ⟨he, -⟩
  · exact hg i hi
  · exact absurd he.symm (hs i)

theorem NoMonitor.subAudio (hg : NoMonitor f g) (t : Option AuthConnType) :
    NoMonitor f (g.subAudio t) := by
  unfold Feed.subAudio
  split
  · split
    · exact hg.subscribe _ nofun
    · exact hg
  · exact hg.subscribe _ nofun

theorem noMonitor_updateOptions (h : Host) {t : AuthConnType} (ht : t ≠ .remote)
    {o o' : OptionMessage} (ho : scopedLoginOption t o = some o') (f : Feed) :
    NoMonitor f (f.updateOptions h (some t) o') := by
  obtain ⟨b, hb⟩ := updateOptions_scoped h ht ho f
  rw [hb]
  have hset : ∀ yes, NoMonitor f (f.setDisableAudio (some t) yes) := fun yes =>
    NoMonitor.subAudio (g := { f with disableAudio := yes }) (NoMonitor.refl f) (some t)
  exact (whenSet_ind (P := NoMonitor f) (NoMonitor.refl f) hset).same rfl

theorem noMonitor_trySubCameraDisplays (primaryCamera : Bool) (f : Feed) :
    NoMonitor f (f.trySubCameraDisplays primaryCamera) :=
  fun _ hi => (mem_trySubCameraDisplays hi).resolve_right nofun

theorem noMonitor_handleSwitchDisplay (h : Host) (multiUi : Bool) (display : ℕ) (f : Feed) :
    NoMonitor f (f.handleSwitchDisplay h .camera multiUi display) :=
  fun _ hi => (mem_handleSwitchDisplay hi).resolve_right (by rintro ⟨_, ⟨⟩⟩)

theorem noMonitor_captureDisplays (add sub set : List ℕ) (f : Feed) :
    NoMonitor f (f.captureDisplays .camera add sub set) :=
  fun _ hi => (mem_captureDisplays hi).resolve_right (by rintro (he | ⟨_, he⟩) <;> cases he)

theorem noMonitor_handleVoiceCall (t : Option AuthConnType) (accepted : Bool) (f : Feed) :
    NoMonitor f (f.handleVoiceCall t accepted) := by
  unfold handleVoiceCall
  split
  · split
    · exact NoMonitor.subscribe (g := { f with
        voiceCallRequestTimestamp := none, voiceCalling := accepted }) (NoMonitor.refl f) _ nofun
    · exact NoMonitor.refl f
  · exact NoMonitor.refl f

theorem noMonitor_closeVoiceCall (t : Option AuthConnType) (f : Feed) :
    NoMonitor f (f.closeVoiceCall t) := by
  unfold closeVoiceCall
  split
  · exact NoMonitor.subscribe (g := { f with voiceCalling := false }) (NoMonitor.refl f) _ nofun
  · exact NoMonitor.refl f

theorem noMonitor_switchPermission (h : Host) (authorized : Bool) (t : Option AuthConnType)
    (privacyLeft : Bool) (name : Switch) (enabled : Bool) (f : Feed) :
    NoMonitor f (f.switchPermission h authorized t privacyLeft name enabled) := by
  have hf := NoMonitor.refl f
  unfold switchPermission
  cases name with
  | keyboard =>
    dsimp only
    have hk : NoMonitor f { f with keyboard := enabled } := hf
    have hclip := hk.subscribe (s := .clipboard)
      (({ f with keyboard := enabled } : Feed).canSubClipboardService h) nofun
    split
    · exact (hclip.subscribe (s := .fileClipboard) _ nofun).subscribe (s := .cursor) _ nofun
    · exact hclip.subscribe (s := .cursor) _ nofun
  | clipboard =>
    exact NoMonitor.subscribe (g := { f with clipboard := enabled }) hf _ nofun
  | audio =>
    dsimp only
    split
    · exact NoMonitor.subAudio (g := { f with audio := enabled }) hf t
    · exact hf
  | file =>
    dsimp only
    split
    · exact NoMonitor.subscribe (g := { f with file := enabled }) hf _ nofun
    · exact hf
  | privacyMode =>
    dsimp only
    split <;> exact hf
  | _ => exact hf

end Feed

namespace Connection

variable (h : Host) (env : Env)

/-- `c` is authorized as a session of type `t`, which is not a remote one. -/
structure Limited (t : AuthConnType) (c : Connection) : Prop where
  typed : Typed c
  authorized : c.gate.authorized = true
  type : c.gate.authedConnType = some t
  notRemote : t ≠ .remote

variable {t : AuthConnType} {c : Connection}

section

variable (hc : Limited t c)

include hc

theorem Limited.connType : c.gate.connType = t := hc.typed.connType t hc.type

theorem Limited.type_ne : c.gate.authedConnType ≠ some .remote := by
  rw [hc.type]
  exact fun he => hc.notRemote (Option.some.inj he)

theorem Limited.step (x : Env × Input) : Limited t (c.step h x) := by
  obtain ⟨ha, ht⟩ := step_of_authorized h hc.authorized x
  exact ⟨typed_step h hc.typed x, ha, ht.trans hc.type, hc.notRemote⟩

theorem Limited.fileTransfer (hf : c.gate.fileTransfer.isSome = true) : t = .fileTransfer := by
  have ht := hc.connType
  rw [Gate.connType, if_pos hf] at ht
  exact ht.symm

theorem Limited.notIsRemote : c.gate.isRemote = false := by
  cases hr : c.gate.isRemote with
  | false => rfl
  | true => exact absurd (hc.connType.symm.trans (Gate.connType_of_isRemote hr)) hc.notRemote

theorem authorizedMessage_noMonitor (m : Message) (hv : c.authorizedScopeViolation h m = false) :
    c.feed.NoMonitor (c.authorizedMessage h env m).1.feed := by
  have hf := Feed.NoMonitor.refl c.feed
  rw [authorizedScopeViolation, hc.type] at hv
  unfold authorizedMessage
  dsimp only
  split
  · exact hf
  cases m with
  | option o =>
    dsimp only
    rw [if_neg hc.type_ne, hc.type, Option.bind_some]
    split
    · rename_i o' ho
      exact Feed.noMonitor_updateOptions h hc.notRemote (scopedLoginOption_of_update ho) c.feed
    · exact hf
  | switchDisplay d =>
    have hcam := displays_of_camera (.inl ⟨d, rfl⟩) hv hc.notRemote
    rw [Gate.viewCamera_of_connType (hc.connType.trans hcam)]
    exact Feed.noMonitor_handleSwitchDisplay h _ d c.feed
  | captureDisplays add sub set =>
    have hcam := displays_of_camera (.inr ⟨add, sub, set, rfl⟩) hv hc.notRemote
    rw [Gate.viewCamera_of_connType (hc.connType.trans hcam)]
    exact Feed.noMonitor_captureDisplays add sub set c.feed
  | voiceCallRequest =>
    dsimp only
    split
    · exact hf
    · exact Feed.noMonitor_closeVoiceCall _ c.feed
  | selectedSid =>
    dsimp only
    split
    · exact hf
    · split
      · exact hf
      split
      · exact Feed.noMonitor_trySubCameraDisplays env.primaryCamera c.feed
      split
      · rw [Feed.trySubMonitorServices, hc.notIsRemote]
        exact hf
      · exact hf
    · exact hf
  | _ => exact hf

theorem onMessage_noMonitor (m : Message) : c.feed.NoMonitor (c.onMessage h env m).1.feed := by
  have hh := onMessage_handled h env m c
  generalize c.onMessage h env m = r at hh ⊢
  cases hh with
  | idle => exact Feed.NoMonitor.refl c.feed
  | served hv => exact authorizedMessage_noMonitor h env hc m hv
  | acted r ha =>
    rw [(ha.settled h env hc.authorized).feed]
    exact Feed.NoMonitor.refl c.feed

end

theorem noMonitor_leave {f : Feed} (hf : f.NoMonitor c.feed) (closed : Bool) :
    f.NoMonitor (c.leave closed).feed := by
  unfold leave close
  split
  · exact hf
  · nofun

theorem noMonitor_goOn {f : Feed} {r : Connection × Bool} (hf : f.NoMonitor r.1.feed)
    (closed : Bool) (forwards : Connection → Bool) : f.NoMonitor (goOn closed forwards r).feed := by
  unfold goOn
  split
  · exact hf
  · exact noMonitor_leave hf closed

theorem step_noMonitor (hc : Limited t c) (x : Env × Input) :
    c.feed.NoMonitor (c.step h x).feed := by
  obtain ⟨env, i⟩ := x
  have hf := Feed.NoMonitor.refl c.feed
  have hadd : ∀ s, c.feed.NoMonitor { c.feed with server := c.feed.server.addService s } :=
    fun s => hf.same (Server.addService_subs _ s)
  unfold step
  cases c.phase with
  | closed => exact hf
  | forwarding =>
    cases i with
    | stop => nofun
    | serviceAdded s => exact hadd s
    | _ => exact hf
  | running =>
    unfold turn
    cases i with
    | message m => exact noMonitor_goOn (onMessage_noMonitor h env hc m) _ _
    | authorize =>
      refine noMonitor_goOn ?_ _ _
      rwa [(authorize_of_authorized h env hc.authorized).1.feed]
    | switchPermission name enabled privacyLeft =>
      exact Feed.noMonitor_switchPermission h _ _ privacyLeft name enabled c.feed
    | voiceCallResponse accepted => exact Feed.noMonitor_handleVoiceCall _ accepted c.feed
    | closeVoiceCall => exact Feed.noMonitor_closeVoiceCall _ c.feed
    | testDelayTimer =>
      dsimp only
      split <;> exact hf
    | stop => exact noMonitor_leave hf true
    | shared => exact hf
    | serviceAdded s => exact hadd s

end Connection

/-! ### What the scope lets through -/

section Scope

variable {windows : Bool} {t : AuthConnType} {p : Plain}

variable (hv : authorizedMessageScopeViolation windows t (.plain p) = false)

include hv

theorem only_camera
    (hp : p ∈ [Plain.mouseEvent, .pointerDeviceEvent, .keyEvent, .togglePrivacyMode, .toggleVirtualDisplay, .changeResolution, .changeDisplayResolution])
    (hr : t ≠ .remote) : t = .viewCamera := by
  simp only [List.mem_cons, List.not_mem_nil, or_false] at hp
  rcases hp with rfl | rfl | rfl | rfl | rfl | rfl | rfl <;> cases t <;>
    first | rfl | exact absurd rfl hr | cases hv

theorem only_fileTransfer (hp : p = .fileAction ∨ p = .fileResponse) (hr : t ≠ .remote) :
    t = .fileTransfer := by
  rcases hp with rfl | rfl <;> cases t <;> first | rfl | exact absurd rfl hr | cases hv

end Scope

namespace Desk

variable (h : Host) (env : Env) (plat : Platform)
variable {t : AuthConnType} {d d' : Desk}

/-! ### One input -/

/-- `d'` is `d` after handlers that stayed within a session of type `t`. -/
structure Within (t : AuthConnType) (d d' : Desk) : Prop where
  lock : d'.lockAfterSessionEnd = d.lockAfterSessionEnd
  done : ∃ es, d'.done = d.done ++ es ∧ ∀ e ∈ es, e.inScope t = true

theorem Within.silent (hl : d'.lockAfterSessionEnd = d.lockAfterSessionEnd)
    (hd : d'.done = d.done) : Within t d d' :=
  ⟨hl, [], by rw [hd, List.append_nil], fun _ he => absurd he List.not_mem_nil⟩

theorem Within.refl (t : AuthConnType) (d : Desk) : Within t d d := .silent rfl rfl

theorem within_act (d : Desk) {e : Effect} (he : e.inScope t = true) : Within t d (d.act [e]) :=
  ⟨rfl, [e], rfl, by simpa using he⟩

theorem updateOptions_scoped {o o' : OptionMessage} (hr : t ≠ .remote)
    (ho : scopedLoginOption t o = some o') (d : Desk) : d.updateOptions h plat o' = d := by
  have hunset : o'.lockAfterSessionEnd = .notSet ∧ o'.enableFileTransfer = .notSet ∧
      o'.privacyMode = .notSet ∧ o'.blockInput = .notSet ∧ o'.showMyCursor = .notSet := by
    rcases scopedLoginOption_fields hr ho with ⟨-, rfl⟩ | ⟨-, rfl⟩ <;>
      exact ⟨rfl, rfl, rfl, rfl, rfl⟩
  obtain ⟨h₁, h₂, h₃, h₄, h₅⟩ := hunset
  unfold updateOptions
  simp [h₁, h₂, h₃, h₄, h₅, whenSet]

theorem fileAction_within (fa : FileAction) (d : Desk) :
    Within .fileTransfer d (d.fileAction h plat fa) := by
  have hact : Within .fileTransfer d (d.act [.fileAction fa]) := within_act d rfl
  unfold fileAction
  split
  · split
    · cases fa <;> exact .silent rfl rfl
    split
    · exact .refl _ d
    split
    · split
      · exact hact
      · exact .refl _ d
    · exact .refl _ d
    · exact hact
  · exact .refl _ d

theorem fileResponse_within (fr : FileResponse) (d : Desk) :
    Within .fileTransfer d (d.fileResponse fr) := by
  cases fr with
  | other => exact .refl _ d
  | _ => exact within_act d rfl

theorem handleTerminalAction_within (action : Bytes) (d : Desk) :
    Within .terminal d (d.handleTerminalAction h action) := by
  unfold handleTerminalAction
  split
  · exact within_act d rfl
  · exact .refl _ d

theorem selectedSid_within (hc : d.conn.Limited t) : Within t d (d.selectedSid h env) := by
  unfold selectedSid
  split_ifs with hs
  · simp only [Bool.and_eq_true] at hs
    obtain rfl := hc.fileTransfer hs.2
    split
    · exact ⟨rfl, _, rfl, by simp [Effect.inScope]⟩
    · exact .refl _ d
  · exact .refl _ d

theorem updateClipboard_limited (hc : d.conn.Limited t) (cbs : List Bytes) :
    d.updateClipboard cbs = d := by
  rw [updateClipboard, if_neg (by simp [hc.type_ne])]

theorem authorizedPacket_within (hc : d.conn.Limited t) (p : Packet)
    (hv : d.conn.authorizedScopeViolation h p.message = false) :
    Within t d (d.authorizedPacket h env plat p) := by
  rw [Connection.authorizedScopeViolation, hc.type] at hv
  have hr := hc.notRemote
  -- a camera ignores input and has the flag that the other handlers ask for
  have camera : t = .viewCamera → d.conn.gate.authedConnType = some .viewCamera ∧
      d.conn.gate.viewCamera = true := by
    intro ht
    exact ⟨ht ▸ hc.type, Gate.viewCamera_of_connType (hc.connType.trans ht)⟩
  unfold authorizedPacket
  split
  · exact .refl t d
  cases p with
  | mouseEvent _ | pointerDeviceEvent _ | keyEvent _ =>
    have hcam := camera (only_camera hv (by decide) hr)
    dsimp only [mouseEvent, pointerDeviceEvent, keyEvent]
    rw [if_pos hcam.1]
    exact .refl t d
  | clipboard =>
    dsimp only
    rw [updateClipboard_limited hc]
    exact .refl t d
  | multiClipboards =>
    dsimp only
    rw [updateClipboard_limited hc, ite_self]
    exact .refl t d
  | cliprdr | restartRemoteDevice | elevationRequest =>
    cases t <;> first | exact absurd rfl hr | cases hv
  | fileAction fa =>
    obtain rfl := only_fileTransfer hv (.inl rfl) hr
    exact fileAction_within h plat fa d
  | fileResponse fr =>
    obtain rfl := only_fileTransfer hv (.inr rfl) hr
    exact fileResponse_within fr d
  | terminalAction action =>
    cases t <;> first | exact absurd rfl hr | cases hv
    exact handleTerminalAction_within h action d
  | switchDisplay display =>
    have hcam := camera (Connection.displays_of_camera (.inl ⟨display, rfl⟩) hv hr)
    dsimp only
    rw [if_neg (by simp [hcam.2])]
    exact .refl t d
  | togglePrivacyMode =>
    have hcam := camera (only_camera hv (by decide) hr)
    dsimp only
    rw [if_pos hcam.2]
    exact .refl t d
  | toggleVirtualDisplay _ _ | changeResolution _ | changeDisplayResolution _ _ =>
    have hcam := camera (only_camera hv (by decide) hr)
    dsimp only
    rw [if_neg (by simp [hcam.2])]
    exact .refl t d
  | rest m bare =>
    cases m with
    | option o =>
      dsimp only
      rw [if_neg hc.type_ne, hc.type, Option.bind_some]
      split
      · rename_i o' ho
        rw [updateOptions_scoped h plat hr (scopedLoginOption_of_update ho)]
        exact .refl t d
      · exact .refl t d
    | selectedSid => exact selectedSid_within h env hc
    | _ => exact .refl t d

theorem onClose_unlocked (hl : d.lockAfterSessionEnd = false) (lock : Bool) :
    d.onClose h lock = d := by
  rw [onClose, if_neg (by simp [hl])]

theorem onMessage_within (hc : d.conn.Limited t) (hl : d.lockAfterSessionEnd = false)
    (p : Packet) : Within t d (d.onMessage h env plat p) := by
  rw [onMessage, onClose_unlocked h hl, ite_self]
  split
  · exact .refl t d
  split
  · exact .refl t d
  split
  · exact .refl t d
  rename_i hv
  split
  · refine authorizedPacket_within h env plat hc p ?_
    simpa [hc.authorized] using hv
  · exact .refl t d

theorem handle_within (hc : d.conn.Limited t) (hl : d.lockAfterSessionEnd = false) (e : Event) :
    Within t d (d.handle h env plat e) := by
  unfold handle
  split
  · exact onMessage_within h env plat hc hl _
  · exact .refl t d

theorem subscribed_inScope {c c' : Connection} (hm : c.feed.NoMonitor c'.feed) :
    ∀ e ∈ subscribed c c', e.inScope t = true := by
  intro e he
  obtain ⟨s, hs, rfl⟩ := List.mem_map.1 he
  obtain ⟨hs, hn⟩ := List.mem_filter.1 hs
  cases s with
  | video source i =>
    cases source with
    | camera => rfl
    | monitor => exact absurd (hm i hs) (by simpa using hn)
  | _ => rfl

/-- The desk of a limited session that will not lock the screen. -/
structure Confined (t : AuthConnType) (d : Desk) : Prop where
  limited : d.conn.Limited t
  unlocked : d.lockAfterSessionEnd = false

theorem step_confined (hc : Confined t d) (x : Env × Platform × Event) : Confined t (d.step h x) ∧
      ∃ es, (d.step h x).done = d.done ++ es ∧ ∀ e ∈ es, e.inScope t = true := by
  obtain ⟨env, plat, e⟩ := x
  have hl := hc.limited
  obtain ⟨hlock, es, hes, hin⟩ := handle_within h env plat hl hc.unlocked e
  rw [step, advance, if_neg (by simp [hl.authorized])]
  refine ⟨⟨hl.step h _, hlock.trans hc.unlocked⟩,
    es ++ subscribed d.conn (d.conn.step h (env, e.toInput)), ?_, ?_⟩
  · simp [act, hes]
  · exact List.forall_mem_append.2 ⟨hin, subscribed_inScope (Connection.step_noMonitor h hl _)⟩

theorem run_confined (hc : Confined t d) (xs : List (Env × Platform × Event)) :
    ∃ es, (Run.run (step h) d xs).done = d.done ++ es ∧ ∀ e ∈ es, e.inScope t = true := by
  induction xs generalizing d with
  | nil => exact ⟨[], (List.append_nil _).symm, nofun⟩
  | cons x xs ih =>
    obtain ⟨hs, es, hes, hin⟩ := step_confined h hc x
    obtain ⟨es', hes', hin'⟩ := ih hs
    refine ⟨es ++ es', ?_, ?_⟩
    · rw [Run.run_cons, hes', hes, List.append_assoc]
    · exact fun e he => (List.mem_append.1 he).elim (hin e) (hin' e)

/-! ### From the start -/

/-- Only a remote session can have the screen locked at its end. -/
structure Sound (d : Desk) : Prop where
  typed : Connection.Typed d.conn
  locks : d.lockAfterSessionEnd = true → d.conn.gate.authedConnType = some .remote

theorem Sound.unlocked (hd : Sound d) (ht : d.conn.gate.authedConnType ≠ some .remote) :
    d.lockAfterSessionEnd = false := by
  cases hl : d.lockAfterSessionEnd with
  | false => rfl
  | true => exact absurd (hd.locks hl) ht

theorem Sound.confined (hd : Sound d) (ha : d.conn.gate.authorized = true)
    (ht : d.conn.gate.authedConnType = some t) (hr : t ≠ .remote) : Confined t d where
  limited := ⟨hd.typed, ha, ht, hr⟩
  unlocked := hd.unlocked fun he => hr (Option.some.inj (ht.symm.trans he))

theorem handle_of_unauthorized (ha : d.conn.gate.authorized = false)
    (hl : d.lockAfterSessionEnd = false) (e : Event) : d.handle h env plat e = d := by
  unfold handle
  split
  · unfold onMessage
    simp [ha, onClose_unlocked h hl]
  · rfl

theorem whenSet_conn (o : BoolOption) {set : Bool → Desk → Desk}
    (hs : ∀ yes d, (set yes d).conn = d.conn) (d : Desk) : (whenSet o set d).conn = d.conn := by
  cases o with
  | yes => exact hs true d
  | no => exact hs false d
  | notSet | unknown => rfl

theorem togglePrivacyMode_conn (on : Bool) (implKey : String) (d : Desk) :
    (d.togglePrivacyMode plat on implKey).conn = d.conn := by
  unfold togglePrivacyMode turnOnPrivacy turnOffPrivacy
  repeat' split
  all_goals rfl

theorem updateOptions_conn (o : OptionMessage) (d : Desk) :
    (d.updateOptions h plat o).conn = d.conn := by
  have hclip : ∀ yes d, (setEnableFileTransfer h yes d).conn = d.conn := by
    intro yes d
    unfold setEnableFileTransfer
    split <;> rfl
  have hprivacy : ∀ yes d, (setPrivacyMode h plat yes d).conn = d.conn := by
    intro yes d
    unfold setPrivacyMode
    split
    · exact togglePrivacyMode_conn plat yes "" d
    · rfl
  have hblock : ∀ yes d, (setBlockInput yes d).conn = d.conn := by
    intro yes d
    unfold setBlockInput
    split <;> rfl
  have hlock : ∀ yes d, (setLockAfterSessionEnd yes d).conn = d.conn := fun _ _ => rfl
  have hcursor : ∀ yes d, (setShowMyCursor yes d).conn = d.conn := fun _ _ => rfl
  unfold updateOptions
  split
  · rw [whenSet_conn _ hblock, whenSet_conn _ hprivacy, whenSet_conn _ hclip, whenSet_conn _ hlock]
  · rw [whenSet_conn _ hcursor, whenSet_conn _ hblock, whenSet_conn _ hprivacy,
      whenSet_conn _ hclip, whenSet_conn _ hlock]

theorem updateScopedLoginOptions_conn (o : Option OptionMessage) (d : Desk) :
    (d.updateScopedLoginOptions h plat o).conn = d.conn := by
  unfold updateScopedLoginOptions
  split
  · exact updateOptions_conn h plat _ d
  · rfl

theorem updateScopedLoginOptions_limited (ht : d.conn.gate.authedConnType ≠ some .remote)
    (o : Option OptionMessage) : d.updateScopedLoginOptions h plat o = d := by
  unfold updateScopedLoginOptions
  split
  · rename_i o' ho
    obtain ⟨o, -, ho⟩ := Option.bind_eq_some_iff.1 ho
    obtain ⟨t, hs, ho⟩ := Option.bind_eq_some_iff.1 ho
    exact updateOptions_scoped h plat (fun he => ht (he ▸ hs)) ho d
  · rfl

theorem logon_conn (o : Option OptionMessage) (d : Desk) :
    (d.logon h env plat o).conn = d.conn := by
  have ho := updateScopedLoginOptions_conn h plat o d
  unfold logon
  dsimp only
  split
  · rfl
  · split
    · split <;> exact ho
    · exact ho

theorem logon_lock (ht : d.conn.gate.authedConnType ≠ some .remote) (o : Option OptionMessage) :
    (d.logon h env plat o).lockAfterSessionEnd = d.lockAfterSessionEnd := by
  rw [logon, updateScopedLoginOptions_limited h plat ht o]
  dsimp only
  split
  · rfl
  · split
    · split <;> rfl
    · rfl

theorem advance_conn (i : Connection.Input) (before : Connection) (d : Desk) :
    (d.advance h env plat i before).conn = before.step h (env, i) := by
  unfold advance
  dsimp only
  split
  · rw [logon_conn]
    rfl
  · rfl

theorem sound_step (hd : Sound d) (x : Env × Platform × Event) : Sound (d.step h x) := by
  obtain ⟨env, plat, e⟩ := x
  have hconn : (d.step h (env, plat, e)).conn = d.conn.step h (env, e.toInput) :=
    advance_conn h env plat _ d.conn _
  refine ⟨hconn ▸ Connection.typed_step h hd.typed _, ?_⟩
  by_cases hr : d.conn.gate.authedConnType = some .remote
  · -- a remote session stays one
    intro _
    have ha : d.conn.gate.authorized = true := by rw [← hd.typed.typed, hr]; rfl
    rw [hconn, (Connection.step_of_authorized h ha _).2, hr]
  · have hl := hd.unlocked hr
    cases ha : d.conn.gate.authorized with
    | true =>
      obtain ⟨t, ht⟩ := Option.isSome_iff_exists.1 (hd.typed.typed.trans ha)
      have hc := (step_confined h (hd.confined ha ht fun he => hr (he ▸ ht)) (env, plat, e)).1
      exact fun hx => absurd (hc.unlocked.symm.trans hx) (by decide)
    | false =>
      intro hx
      rw [hconn]
      by_contra hn
      unfold step advance at hx
      dsimp only at hx
      rw [handle_of_unauthorized h env plat ha hl e] at hx
      split at hx
      · rw [logon_lock h env plat (by exact hn)] at hx
        cases hl.symm.trans hx
      · cases hl.symm.trans hx

/-- **A session keeps to its type.** However a connection came to be
authorized as anything but a remote session, whatever its peer sends from then
on makes the host do nothing but file actions and responses in a file transfer
and terminal actions in a terminal, and subscribes it to no monitor. -/
theorem session_confined (control : Option ℕ) (require2fa : Bool) (services : List Service)
    (tables : Tables) (xs ys : List (Env × Platform × Event))
    (ha : (Run.run (step h) (start h env control require2fa services tables)
      xs).conn.gate.authorized = true)
    (ht : (Run.run (step h) (start h env control require2fa services tables)
      xs).conn.gate.authedConnType = some t)
    (hr : t ≠ .remote) :
    let d := Run.run (step h) (start h env control require2fa services tables) xs
    ∃ es, (Run.run (step h) d ys).done = d.done ++ es ∧ ∀ e ∈ es, e.inScope t = true := by
  intro d
  have h₀ : Sound (start h env control require2fa services tables) :=
    ⟨Connection.Untyped.typed ⟨rfl, rfl⟩, nofun⟩
  have hs : Sound d := Run.inv_run (I := Sound) (fun _ x hd => sound_step h hd x) h₀ xs
  exact run_confined h (hs.confined ha ht hr) ys

def accepted (union : LoginUnion) : List (Env × Platform × Event) :=
  [({}, {}, .packet (.rest (.loginRequest { username := "host", union := some union }) rfl)),
    ({}, {}, .input .authorize rfl)]

/-- A camera whose peer tries the mouse, the keyboard, the clipboard, another
resolution and privacy mode. -/
def busyPeer : List (Env × Platform × Event) :=
  [({}, {}, .packet (.mouseEvent { mask := 1, x := 3, y := 4 })),
    ({}, {}, .input (.switchPermission .keyboard true false) rfl),
    ({}, {}, .packet (.keyEvent { down := true, union := .chr 30 })),
    ({}, {}, .packet (.clipboard [104, 105])),
    ({}, {}, .packet (.changeResolution { width := 640, height := 480 })),
    ({}, {}, .packet (.togglePrivacyMode true "")),
    ({}, {}, .packet (.fileResponse (.done 1 0)))]

theorem camera_confined :
    let d := Run.run (step .desktop) (start .desktop {} none false [.cursor, .video .monitor 0] {})
      (accepted .viewCamera)
    d.conn.gate.authorized = true ∧ d.conn.gate.authedConnType = some .viewCamera ∧
      ∃ es, (Run.run (step .desktop) d busyPeer).done = d.done ++ es ∧
        ∀ e ∈ es, e.inScope .viewCamera = true :=
  ⟨by decide, by decide, session_confined .desktop {} none false [.cursor, .video .monitor 0] {}
    (accepted .viewCamera) busyPeer (by decide) (by decide) (by decide)⟩

end Desk
end CodeDesk.Conn
