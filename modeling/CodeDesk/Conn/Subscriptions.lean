/-
# What an authorized connection is fed

The clipboard, the file clipboard, the cursor with its position and the
monitors feed only remote sessions, and the audio only remote sessions and,
during a voice call, a camera (`Feed.Fits`). Logins, options, displays and
voice calls keep this. A permission switched in the connection manager
subscribes without looking at the session, so a connection that nobody has
authorized gets the clipboard and the cursor
(`Connection.switch_feeds_unauthorized`); runs whose switches subscribe only
remote sessions are fine (`Connection.fed_within_session`).
-/
import CodeDesk.Run
import CodeDesk.Conn.Requests

namespace CodeDesk.Conn

def Service.remoteOnly : Service → Bool
  | .clipboard => true
  | .fileClipboard => true
  | .cursor => true
  | .pos => true
  | .video .monitor _ => true
  | _ => false

/-! ### Subscribing -/

namespace Server

variable {v : Server} {s x : Service} {names : List Service} {inc exc : Bool}

theorem mem_subscribe {b : Bool} (hx : x ∈ (v.subscribe s b).subs) :
    x ∈ v.subs ∨ (x = s ∧ b = true) := by
  unfold subscribe at hx
  split at hx
  · split at hx
    · exact .inl hx
    split_ifs at hx with hb
    · unfold onSubscribe at hx
      split at hx
      · exact .inl hx
      · exact (List.mem_cons.1 hx).symm.imp_right fun he => ⟨he, hb⟩
    · exact .inl (List.mem_filter.1 hx).1
  · exact .inl hx

theorem notMem_subscribe_false (v : Server) (s : Service) : s ∉ (v.subscribe s false).subs := by
  unfold subscribe
  split
  · split
    · rename_i hs
      simpa using hs
    · simp [onUnsubscribe]
  · rename_i hs
    exact fun hx => hs (v.subs_services s hx)

@[simp] theorem addService_subs (v : Server) (s : Service) : (v.addService s).subs = v.subs := by
  unfold addService
  split <;> rfl

theorem foldl_addService_subs (source : VideoSource) (ds : List ℕ) (v : Server) :
    (ds.foldl (fun v d => v.addService (.video source d)) v).subs = v.subs := by
  induction ds generalizing v with
  | nil => rfl
  | cons d ds ih => exact (ih _).trans (addService_subs v _)

theorem mem_captureDisplay
    (hx : x ∈ (v.captureDisplay names inc exc s).subs) : x ∈ v.subs ∨ x ∈ names := by
  unfold captureDisplay at hx
  split at hx
  · rename_i hs
    split at hx
    · exact (mem_subscribe hx).imp_right fun ⟨he, _⟩ => he ▸ hs
    · exact .inl hx
  · split at hx
    · exact (mem_subscribe hx).imp_right fun he => absurd he.2 (by decide)
    · exact .inl hx

theorem mem_captureDisplays
    (hx : x ∈ (v.captureDisplays names inc exc).subs) : x ∈ v.subs ∨ x ∈ names := by
  unfold captureDisplays at hx
  generalize v.services.filter Service.isVideo = ss at hx
  induction ss generalizing v with
  | nil => exact .inl hx
  | cons s ss ih => exact (ih hx).elim mem_captureDisplay .inr

end Server

namespace Feed

variable (h : Host)

structure Fits (t : Option AuthConnType) (f : Feed) : Prop where
  remote : ∀ s ∈ f.server.subs, s.remoteOnly = true → t = some .remote
  audio : .audio ∈ f.server.subs →
    t = some .remote ∨ (t = some .viewCamera ∧ f.voiceCalling = true)

theorem fits_remote (f : Feed) : Fits (some .remote) f := ⟨fun _ _ _ => rfl, fun _ => .inl rfl⟩

variable {f g : Feed} {t : Option AuthConnType}

/-- Before the connection is authorized nothing of the kind feeds it, so any
session may begin. -/
theorem Fits.begin (hf : Fits none f) (t : Option AuthConnType) : Fits t f :=
  ⟨fun s hs hr => (nomatch hf.remote s hs hr),
    fun ha => (hf.audio ha).elim (fun he => nomatch he) fun he => nomatch he.1⟩

theorem Fits.grow (hf : Fits t f) (hv : f.voiceCalling = true → g.voiceCalling = true)
    (hs : ∀ x ∈ g.server.subs, x ∈ f.server.subs ∨ (x.remoteOnly = false ∧ x ≠ .audio)) :
    Fits t g where
  remote := by
    intro s hm hr
    rcases hs s hm with hm | ⟨hn, -⟩
    · exact hf.remote s hm hr
    · cases hr.symm.trans hn
  audio := by
    intro hm
    rcases hs _ hm with hm | ⟨-, hn⟩
    · exact (hf.audio hm).imp_right fun he => ⟨he.1, hv he.2⟩
    · exact absurd rfl hn

theorem Fits.same (hf : Fits t f) (hs : g.server.subs = f.server.subs := by rfl)
    (hv : g.voiceCalling = f.voiceCalling := by rfl) : Fits t g :=
  hf.grow (fun hx => hv.trans hx) fun _ hx => .inl (hs ▸ hx)

theorem Fits.subscribe (hf : Fits t f) {s : Service} {b : Bool}
    (hs : b = true → s.remoteOnly = false ∧ s ≠ .audio) : Fits t (f.subscribe s b) :=
  hf.grow id fun _ hx => (Server.mem_subscribe hx).imp_right fun ⟨he, hb⟩ => he ▸ hs hb

/-! ### Options -/

theorem Fits.subAudio (hf : Fits (some .viewCamera) f) :
    Fits (some .viewCamera) (f.subAudio (some .viewCamera)) := by
  rw [Feed.subAudio, if_pos rfl]
  split_ifs with hv
  · refine ⟨fun s hs hr => ?_, fun ha => ?_⟩
    · rcases Server.mem_subscribe hs with hs | ⟨rfl, -⟩
      · exact hf.remote s hs hr
      · cases hr
    · rcases Server.mem_subscribe ha with ha | ⟨-, he⟩
      · exact hf.audio ha
      · rw [he, Bool.not_true, Bool.or_false] at hv
        exact .inr ⟨rfl, hv⟩
  · exact hf

theorem Fits.subAudio_off (hf : Fits t f)
    (ho : f.audioEnabled = false) : Fits t (f.subAudio t) := by
  have hs : Fits t (f.subscribe .audio false) := hf.subscribe nofun
  rw [Feed.subAudio, ho]
  split
  · split
    · exact hs
    · exact hf
  · exact hs

theorem Fits.setDisableAudio (hf : Fits (some .viewCamera) f) (yes : Bool) :
    Fits (some .viewCamera) (f.setDisableAudio (some .viewCamera) yes) := by
  have hd : Fits (some .viewCamera) { f with disableAudio := yes } := hf.same
  exact hd.subAudio

/-- The options in the scope of a camera or a terminal only touch the audio and
the persistence of the terminal. -/
theorem updateOptions_scoped {t : AuthConnType} {o o' : OptionMessage} (ht : t ≠ .remote)
    (ho : scopedLoginOption t o = some o') (f : Feed) :
    ∃ b, f.updateOptions h (some t) o' =
      { whenSet o'.disableAudio (setDisableAudio (some t)) f with terminalPersistent := b } := by
  have hunset : o'.showRemoteCursor = .notSet ∧ o'.followRemoteWindow = .notSet ∧
      o'.enableFileTransfer = .notSet ∧ o'.disableClipboard = .notSet ∧
      o'.disableKeyboard = .notSet := by
    rcases scopedLoginOption_fields ht ho with ⟨-, rfl⟩ | ⟨-, rfl⟩ <;>
      exact ⟨rfl, rfl, rfl, rfl, rfl⟩
  obtain ⟨h₁, h₂, h₃, h₄, h₅⟩ := hunset
  unfold updateOptions
  simp only [h₁, h₂, h₃, h₄, h₅, whenSet, ite_self]
  split
  · exact ⟨_, rfl⟩
  · cases o'.terminalPersistent <;> exact ⟨_, rfl⟩

theorem Fits.loginOptions {t : AuthConnType} (hf : Fits (some t) f) (o o' : OptionMessage)
    (ho : scopedLoginOption t o = some o') : Fits (some t) (f.updateOptions h (some t) o') := by
  by_cases ht : t = .remote
  · exact ht ▸ fits_remote _
  obtain ⟨b, hb⟩ := updateOptions_scoped h ht ho f
  rw [hb]
  rcases scopedLoginOption_fields ht ho with ⟨rfl, -⟩ | ⟨-, rfl⟩
  · have hd := whenSet_ind (P := Fits _) (o := o'.disableAudio) hf hf.setDisableAudio
    exact hd.same
  · exact hf.same

theorem Fits.laterOptions {t : AuthConnType} (hf : Fits (some t) f)
    (o o' : OptionMessage) (ho : scopedUpdateOptionMessage t o = some o') :
    Fits (some t) (f.updateOptions h (some t) o') :=
  hf.loginOptions h o o' (scopedLoginOption_of_update ho)

/-! ### Displays, voice calls and the end -/

variable {h} {x : Service} {source : VideoSource}

theorem mem_trySubCameraDisplays {b : Bool} (hx : x ∈ (f.trySubCameraDisplays b).server.subs) :
    x ∈ f.server.subs ∨ x = .video .camera 0 := by
  cases b with
  | false => exact .inl hx
  | true => exact (Server.mem_subscribe hx).imp (by simp) And.left

theorem mem_handleSwitchDisplay {multiUi : Bool} {d : ℕ}
    (hx : x ∈ (f.handleSwitchDisplay h source multiUi d).server.subs) :
    x ∈ f.server.subs ∨ ∃ n, x = .video source n := by
  unfold handleSwitchDisplay switchDisplayTo at hx
  split at hx
  · rcases Server.mem_subscribe hx with hx | ⟨rfl, -⟩
    · left
      generalize hg : (if d ≠ h.primaryDisplayIdx then
        { f with server := f.server.addService (.video source d) } else f) = g at hx
      have hgs : g.server.subs = f.server.subs := by
        rw [← hg]
        split <;> simp
      rw [← hgs]
      split at hx
      · exact hx
      · exact (Server.mem_subscribe hx).resolve_right nofun
    · exact .inr ⟨d, rfl⟩
  · exact .inl hx

theorem mem_captureDisplays {add sub set : List ℕ}
    (hx : x ∈ (f.captureDisplays source add sub set).server.subs) :
    x ∈ f.server.subs ∨ x = .windowFocus ∨ ∃ n, x = .video source n := by
  have hcap : ∀ (ds : List ℕ) (inc exc : Bool),
      x ∈ (((add ++ set).foldl (fun v d => v.addService (.video source d))
        f.server).captureDisplays (ds.map (.video source)) inc exc).subs →
      x ∈ f.server.subs ∨ x = .windowFocus ∨ ∃ n, x = .video source n := by
    intro ds inc exc hx
    rcases Server.mem_captureDisplays hx with hx | hx
    · rw [Server.foldl_addService_subs] at hx
      exact .inl hx
    · obtain ⟨n, -, rfl⟩ := List.mem_map.1 hx
      exact .inr (.inr ⟨n, rfl⟩)
  unfold captureDisplays at hx
  dsimp only at hx
  generalize hv : (if add ≠ [] then _ else _ : Server) = v at hx
  have hall : x ∈ v.subs → x ∈ f.server.subs ∨ x = .windowFocus ∨ ∃ n, x = .video source n := by
    rw [← hv]
    split
    · exact hcap _ _ _
    · split <;> exact hcap _ _ _
  split at hx
  · exact (Server.mem_subscribe hx).elim hall fun he => .inr (.inl he.1)
  · exact hall hx

theorem Fits.trySubCameraDisplays (hf : Fits t f) (b : Bool) :
    Fits t (f.trySubCameraDisplays b) := by
  refine hf.grow id fun x hx => (mem_trySubCameraDisplays hx).imp_right ?_
  rintro rfl
  exact ⟨rfl, nofun⟩

theorem Fits.handleSwitchDisplay (hf : Fits t f)
    (multiUi : Bool) (d : ℕ) : Fits t (f.handleSwitchDisplay h .camera multiUi d) := by
  refine hf.grow ?_ fun x hx => (mem_handleSwitchDisplay hx).imp_right ?_
  · unfold Feed.handleSwitchDisplay switchDisplayTo
    repeat' split
    all_goals exact id
  · rintro ⟨n, rfl⟩
    exact ⟨rfl, nofun⟩

theorem Fits.captureDisplays (hf : Fits t f)
    (add sub set : List ℕ) : Fits t (f.captureDisplays .camera add sub set) := by
  refine hf.grow ?_ fun x hx => (mem_captureDisplays hx).imp_right ?_
  · unfold Feed.captureDisplays
    dsimp only
    split <;> exact id
  · rintro (rfl | ⟨n, rfl⟩) <;> exact ⟨rfl, nofun⟩

theorem Fits.handleVoiceCall (hf : Fits t f)
    (accepted : Bool) : Fits t (f.handleVoiceCall t accepted) := by
  unfold Feed.handleVoiceCall
  split
  · dsimp only
    split_ifs with ht
    · subst ht
      refine ⟨fun s hs hr => ?_, fun ha => .inr ⟨rfl, ?_⟩⟩
      · rcases Server.mem_subscribe hs with hs | ⟨rfl, -⟩
        · exact hf.remote s hs hr
        · cases hr
      · cases accepted with
        | true => rfl
        | false =>
          rw [Bool.and_false] at ha
          exact absurd ha (Server.notMem_subscribe_false _ _)
    · refine ⟨hf.remote, fun ha => ?_⟩
      exact (hf.audio ha).imp_right fun he => absurd he.1 ht
  · exact hf

theorem Fits.closeVoiceCall (hf : Fits t f) : Fits t (f.closeVoiceCall t) := by
  unfold Feed.closeVoiceCall
  split_ifs with ht
  · refine ⟨fun s hs hr => ?_, fun ha => absurd ha (Server.notMem_subscribe_false _ _)⟩
    rcases Server.mem_subscribe hs with hs | ⟨-, he⟩
    · exact hf.remote s hs hr
    · cases he
  · exact ⟨hf.remote, fun ha => (hf.audio ha).imp_right fun he => absurd he.1 ht⟩

theorem fits_removeConnection (t : Option AuthConnType) (f : Feed) :
    Fits t { f with server := f.server.removeConnection } := ⟨nofun, nofun⟩

end Feed
end CodeDesk.Conn
