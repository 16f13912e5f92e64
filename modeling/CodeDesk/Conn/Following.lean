/-
# Subscriptions follow permissions

Which of the clipboard, file-clipboard, audio, cursor and window-focus services a
remote session should be fed is a function of its permissions and options
(`Feed.rule`). The code does not keep the subscriptions in step with that function as
a whole: each `SwitchPermission` and each field of an option message subscribes anew
to the services it has in mind. So a service can be left behind. Three places do so:

- `SwitchPermission` of the keyboard gives back the cursor also to a session that has
  its keyboard disabled by option;
- the clipboard permission and `disable_clipboard` leave out the file clipboard;
- `follow_remote_window` does not ask how many displays the session shows.

`subscriptions_follow_iff` says that these are all, for every row of events.
-/
import CodeDesk.Conn.Capture

namespace CodeDesk.Conn

namespace Feed

variable {h : Host} {f g : Feed} {s x : Service} {b : Bool}

/-- Whether a remote session should be subscribed to a service; nothing about those not
named. A build without `unix-file-copy-paste` has no file clipboard. -/
def rule (h : Host) (f : Feed) : Service → Option Bool
  | .clipboard => some (f.canSubClipboardService h)
  | .fileClipboard => if h.unixFileCopyPaste then some (f.canSubFileClipboardService h) else none
  | .audio => some f.audioEnabled
  | .cursor => some (f.peerKeyboardEnabled || f.showRemoteCursor)
  | .windowFocus => some (f.followRemoteWindow && !f.multiUiSession)
  | _ => none

/-- The session is subscribed to `s`, if the server has it, exactly when it should be. -/
def Right (h : Host) (f : Feed) (s : Service) : Prop :=
  s ∈ f.server.services → ∀ b ∈ f.rule h s, (s ∈ f.server.subs ↔ b = true)

def Follows (h : Host) (f : Feed) : Prop := ∀ s, f.Right h s

/-! ### One subscription -/

theorem rule_subscribe (h : Host) (f : Feed) (s : Service) (b : Bool) (x : Service) :
    (f.subscribe s b).rule h x = f.rule h x := by
  cases x <;> rfl

theorem right_congr (hserver : g.server = f.server) (hrule : g.rule h x = f.rule h x) :
    g.Right h x ↔ f.Right h x := by
  unfold Right
  rw [hserver, hrule]

theorem Right.of_eq (hf : f.Right h x) (hserver : g.server = f.server)
    (hrule : g.rule h x = f.rule h x) : g.Right h x :=
  (right_congr hserver hrule).2 hf

theorem right_of_rule_none (hs : f.rule h s = none) : f.Right h s := by
  intro _ b hb
  simp [hs] at hb

theorem right_subscribe : (f.subscribe s b).Right h x ↔ (x ∈ f.server.services →
    ∀ b' ∈ f.rule h x, (x ∈ (f.server.subscribe s b).subs ↔ b' = true)) := by
  rw [Right, rule_subscribe]
  dsimp only [subscribe]
  rw [Server.subscribe_services]

theorem right_subscribe_self :
    (f.subscribe s b).Right h s ↔ (s ∈ f.server.services → ∀ b' ∈ f.rule h s, b' = b) := by
  rw [right_subscribe]
  refine forall_congr' fun hs => forall₂_congr fun b' _ => ?_
  rw [Server.mem_subscribe_iff hs, if_pos rfl]
  cases b <;> cases b' <;> simp

theorem right_subscribe_of_ne (hx : x ≠ s) : (f.subscribe s b).Right h x ↔ f.Right h x := by
  rw [right_subscribe, Right]
  by_cases hs : s ∈ f.server.services
  · rw [Server.mem_subscribe_iff hs, if_neg hx]
  · rw [Server.subscribe, dif_neg hs]

theorem right_refresh (hb : f.rule h s = some b) :
    (f.subscribe s b).Right h x ↔ x = s ∨ f.Right h x := by
  by_cases hx : x = s
  · subst hx
    refine iff_of_true (right_subscribe_self.2 fun _ b' hb' => ?_) (.inl rfl)
    rw [hb] at hb'
    exact (Option.some.inj hb').symm
  · rw [right_subscribe_of_ne hx, or_iff_right hx]

theorem right_subscribe_of_rule_none (hs : f.rule h s = none) :
    (f.subscribe s b).Right h x ↔ f.Right h x := by
  by_cases hx : x = s
  · subst hx
    exact iff_of_true (right_of_rule_none (by rw [rule_subscribe, hs])) (right_of_rule_none hs)
  · exact right_subscribe_of_ne hx

/-! ### Each option

What is right after it, service by service. -/

variable (yes : Bool)

theorem services_setShowRemoteCursor (f : Feed) :
    (f.setShowRemoteCursor yes).server.services = f.server.services := by
  simp [setShowRemoteCursor, subscribe, Server.subscribe_services]

theorem right_setShowRemoteCursor :
    (f.setShowRemoteCursor yes).Right h x ↔ x = .cursor ∨ f.Right h x := by
  rw [setShowRemoteCursor, right_subscribe_of_rule_none rfl, right_refresh rfl]
  refine or_congr_right' fun hx => right_congr rfl ?_
  cases x <;> first | rfl | exact absurd rfl hx

theorem right_setFollowRemoteWindow (hx : x ≠ .windowFocus) :
    (f.setFollowRemoteWindow yes).Right h x ↔ f.Right h x := by
  rw [setFollowRemoteWindow, right_subscribe_of_ne hx]
  refine right_congr rfl ?_
  cases x <;> first | rfl | exact absurd rfl hx

/-- The window focus is subscribed to also for several displays. -/
theorem right_setFollowRemoteWindow_windowFocus :
    (f.setFollowRemoteWindow yes).Right h .windowFocus ↔
      (.windowFocus ∈ f.server.services → ¬ (yes = true ∧ f.multiUiSession = true)) := by
  rw [setFollowRemoteWindow, right_subscribe_self]
  refine forall_congr' fun _ => ?_
  simp only [rule, Option.mem_some_iff, forall_eq']
  cases yes <;> cases f.multiUiSession <;> decide

theorem right_subAudio : (f.subAudio (some .remote)).Right h x ↔ x = .audio ∨ f.Right h x := by
  rw [subAudio, if_neg (by decide)]
  exact right_refresh rfl

theorem right_setDisableAudio :
    (f.setDisableAudio (some .remote) yes).Right h x ↔ x = .audio ∨ f.Right h x := by
  rw [setDisableAudio, right_subAudio]
  refine or_congr_right' fun hx => right_congr rfl ?_
  cases x <;> first | rfl | exact absurd rfl hx

theorem right_fileClipboard :
    (if h.unixFileCopyPaste then f.subscribe .fileClipboard (f.canSubFileClipboardService h)
      else f).Right h x ↔ x = .fileClipboard ∨ f.Right h x := by
  split_ifs with hu
  · exact right_refresh (by simp [rule, hu])
  · refine ⟨.inr, ?_⟩
    rintro (rfl | hx)
    · exact right_of_rule_none (by simp [rule, hu])
    · exact hx

theorem right_setEnableFileTransfer :
    (f.setEnableFileTransfer h yes).Right h x ↔ x = .fileClipboard ∨ f.Right h x := by
  refine right_fileClipboard.trans (or_congr_right' fun hx => right_congr rfl ?_)
  cases x <;> first | rfl | exact absurd rfl hx

theorem right_setDisableClipboard (hx : x ≠ .fileClipboard) :
    (f.setDisableClipboard h yes).Right h x ↔ x = .clipboard ∨ f.Right h x := by
  rw [setDisableClipboard, right_refresh rfl]
  refine or_congr_right' fun hx' => right_congr rfl ?_
  cases x <;> first | rfl | exact absurd rfl hx | exact absurd rfl hx'

theorem right_setDisableKeyboard : (f.setDisableKeyboard h yes).Right h x ↔
      x = .cursor ∨ x = .fileClipboard ∨ x = .clipboard ∨ f.Right h x := by
  rw [setDisableKeyboard, right_refresh (by split <;> rfl), right_fileClipboard, right_refresh rfl]
  refine or_congr_right' fun hx => or_congr_right' fun hx' => or_congr_right' fun hx'' =>
    right_congr rfl ?_
  cases x <;> first | rfl | exact absurd rfl hx | exact absurd rfl hx' | exact absurd rfl hx''

/-! ### A whole option message -/

variable {set : Bool → Feed → Feed} {α : Type}

variable (o : BoolOption)

theorem right_whenSet_iff (hset : ∀ yes, (set yes f).Right h x ↔ f.Right h x) :
    (whenSet o set f).Right h x ↔ f.Right h x :=
  whenSet_ind (P := fun g => g.Right h x ↔ f.Right h x) Iff.rfl hset

theorem whenSet_const (p : Feed → α) (o : BoolOption)
    (hset : ∀ yes, p (set yes f) = p f) : p (whenSet o set f) = p f :=
  whenSet_ind (P := fun g => p g = p f) rfl hset

def optionsBeforeFile (h : Host) (o : OptionMessage) (f : Feed) : Feed :=
  let f := if h.mobile then f else whenSet o.showRemoteCursor setShowRemoteCursor f
  let f := whenSet o.followRemoteWindow setFollowRemoteWindow f
  whenSet o.disableAudio (setDisableAudio (some .remote)) f

def optionsBeforeClipboard (h : Host) (o : OptionMessage) (f : Feed) : Feed :=
  if h.windows || h.unixFileCopyPaste then
    whenSet o.enableFileTransfer (setEnableFileTransfer h) (optionsBeforeFile h o f)
  else optionsBeforeFile h o f

def optionsFromClipboard (h : Host) (o : OptionMessage) (f : Feed) : Feed :=
  let f := whenSet o.disableClipboard (setDisableClipboard h) f
  let f := whenSet o.disableKeyboard (setDisableKeyboard h) f
  if h.mobile then f
  else whenSet o.terminalPersistent (fun yes f => { f with terminalPersistent := yes }) f

theorem right_terminalPersistent : (if h.mobile then f
      else whenSet o (fun yes f => { f with terminalPersistent := yes }) f).Right h x ↔
      f.Right h x := by
  split
  · exact Iff.rfl
  · refine right_whenSet_iff o fun yes => right_congr rfl ?_
    cases x <;> rfl

theorem right_showRemoteCursor (hf : f.Right h x) :
    (if h.mobile then f else whenSet o setShowRemoteCursor f).Right h x := by
  split
  · exact hf
  · exact whenSet_ind (P := (·.Right h x)) hf fun yes => (right_setShowRemoteCursor yes).2 (.inr hf)

theorem right_followRemoteWindow (hf : f.Right h .windowFocus) :
    (whenSet o setFollowRemoteWindow f).Right h .windowFocus ↔
      (.windowFocus ∈ f.server.services → ¬ (o = .yes ∧ f.multiUiSession = true)) := by
  cases o with
  | yes => exact (right_setFollowRemoteWindow_windowFocus true).trans (by simp)
  | no => exact iff_of_true ((right_setFollowRemoteWindow_windowFocus false).2 nofun) nofun
  | notSet | unknown => exact iff_of_true hf nofun

theorem right_enableFileTransfer (hf : f.Right h x) :
    (if h.windows || h.unixFileCopyPaste then whenSet o (setEnableFileTransfer h) f
      else f).Right h x := by
  split
  · exact whenSet_ind (P := (·.Right h x)) hf fun yes =>
      (right_setEnableFileTransfer yes).2 (.inr hf)
  · exact hf

theorem right_before_of_ne (o : OptionMessage) (hx : x ≠ .windowFocus) (hf : f.Right h x) :
    (optionsBeforeClipboard h o f).Right h x := by
  have h1 := right_showRemoteCursor o.showRemoteCursor hf
  have h2 := whenSet_ind (o := o.followRemoteWindow) (P := (·.Right h x)) h1 fun yes =>
    (right_setFollowRemoteWindow yes hx).2 h1
  have h3 : (optionsBeforeFile h o f).Right h x := whenSet_ind (P := (·.Right h x)) h2 fun yes =>
    (right_setDisableAudio yes).2 (.inr h2)
  exact right_enableFileTransfer o.enableFileTransfer h3

theorem right_before_windowFocus (o : OptionMessage) (hf : f.Right h .windowFocus) :
    (optionsBeforeClipboard h o f).Right h .windowFocus ↔ (.windowFocus ∈ f.server.services →
        ¬ (o.followRemoteWindow = .yes ∧ f.multiUiSession = true)) := by
  have h1 := right_showRemoteCursor o.showRemoteCursor hf
  unfold optionsBeforeClipboard optionsBeforeFile
  generalize hf1 : (if h.mobile then f else whenSet o.showRemoteCursor setShowRemoteCursor f) = f1
    at h1 ⊢
  have hservices : f1.server.services = f.server.services := by
    rw [← hf1]
    split
    · rfl
    · exact whenSet_const (·.server.services) _ fun yes => services_setShowRemoteCursor yes f
  have hmulti : f1.multiUiSession = f.multiUiSession := by
    rw [← hf1]
    split
    · rfl
    · exact whenSet_const (·.multiUiSession) _ fun yes => rfl
  have h2 := right_followRemoteWindow o.followRemoteWindow h1
  rw [hservices, hmulti] at h2
  refine Iff.trans ?_ h2
  dsimp only
  generalize whenSet o.followRemoteWindow setFollowRemoteWindow f1 = f2
  -- neither the audio nor the file clipboard is the window focus
  have h3 := right_whenSet_iff o.disableAudio fun yes =>
    (right_setDisableAudio (h := h) (f := f2) (x := .windowFocus) yes).trans (or_iff_right nofun)
  refine Iff.trans ?_ h3
  split
  · exact right_whenSet_iff _ fun yes => (right_setEnableFileTransfer yes).trans (or_iff_right nofun)
  · exact Iff.rfl

/-! The file clipboard -/

def given : BoolOption → Option Bool
  | .yes => some true
  | .no => some false
  | .notSet => none
  | .unknown _ => none

/-- The change from `f` to `g` does not concern the file clipboard. -/
def FileClipboardKept (h : Host) (f g : Feed) : Prop :=
  .fileClipboard ∈ f.server.services → h.unixFileCopyPaste = true →
    g.canSubFileClipboardService h = f.canSubFileClipboardService h

theorem right_fileClipboard_iff (hf : f.Right h .fileClipboard) (hserver : g.server = f.server) :
    g.Right h .fileClipboard ↔ FileClipboardKept h f g := by
  unfold Right at hf ⊢
  rw [hserver]
  refine forall_congr' fun hs => ?_
  cases hu : h.unixFileCopyPaste with
  | false => simp [rule, hu]
  | true =>
    have hsub := hf hs
    simp only [rule, hu, if_true, Option.mem_some_iff, forall_eq'] at hsub ⊢
    rw [hsub, Bool.coe_iff_coe]
    exact ⟨fun h _ => h.symm, fun h => (h trivial).symm⟩

theorem right_disableClipboard (hf : f.Right h .fileClipboard) :
    (whenSet o (setDisableClipboard h) f).Right h .fileClipboard ↔
      ∀ yes ∈ given o, FileClipboardKept h f { f with disableClipboard := yes } := by
  have hset : ∀ yes, (f.setDisableClipboard h yes).Right h .fileClipboard ↔
      FileClipboardKept h f { f with disableClipboard := yes } := fun yes =>
    (right_subscribe_of_ne (by decide)).trans (right_fileClipboard_iff hf rfl)
  cases o with
  | yes => exact (hset true).trans (by simp [given])
  | no => exact (hset false).trans (by simp [given])
  | notSet | unknown => exact iff_of_true hf nofun

/-- `disable_keyboard` in the same message puts the file clipboard right after all. -/
theorem right_from_fileClipboard (o : OptionMessage) (hf : f.Right h .fileClipboard) :
    (optionsFromClipboard h o f).Right h .fileClipboard ↔
      (given o.disableKeyboard = none → ∀ yes ∈ given o.disableClipboard,
        FileClipboardKept h f { f with disableClipboard := yes }) := by
  unfold optionsFromClipboard
  rw [right_terminalPersistent, ← right_disableClipboard o.disableClipboard hf]
  generalize whenSet o.disableClipboard (setDisableClipboard h) f = f5
  have hset : ∀ yes, (f5.setDisableKeyboard h yes).Right h .fileClipboard := fun yes =>
    (right_setDisableKeyboard yes).2 (.inr (.inl rfl))
  cases o.disableKeyboard with
  | yes => exact iff_of_true (hset true) nofun
  | no => exact iff_of_true (hset false) nofun
  | notSet | unknown => exact ⟨fun h _ => h, fun h => h rfl⟩

theorem right_from_of_ne (o : OptionMessage) (hx : x ≠ .fileClipboard) (hf : f.Right h x) :
    (optionsFromClipboard h o f).Right h x := by
  rw [optionsFromClipboard, right_terminalPersistent]
  have h5 := whenSet_ind (o := o.disableClipboard) (P := (·.Right h x)) hf fun yes =>
    (right_setDisableClipboard yes hx).2 (.inr hf)
  exact whenSet_ind (P := (·.Right h x)) h5 fun yes =>
    (right_setDisableKeyboard yes).2 (.inr (.inr (.inr h5)))

theorem right_from_windowFocus (o : OptionMessage) :
    (optionsFromClipboard h o f).Right h .windowFocus ↔ f.Right h .windowFocus := by
  rw [optionsFromClipboard, right_terminalPersistent]
  refine (right_whenSet_iff o.disableKeyboard fun yes => ?_).trans
    (right_whenSet_iff o.disableClipboard fun yes => ?_)
  · exact (right_setDisableKeyboard yes).trans (by simp)
  · exact (right_setDisableClipboard yes (by decide)).trans (or_iff_right (by decide))

theorem beforeFile_const (p : Feed → α) (h : Host) (o : OptionMessage) (f : Feed)
    (hcursor : ∀ yes f, p (setShowRemoteCursor yes f) = p f)
    (hwindow : ∀ yes f, p (setFollowRemoteWindow yes f) = p f)
    (haudio : ∀ yes f, p (setDisableAudio (some .remote) yes f) = p f) :
    p (optionsBeforeFile h o f) = p f := by
  have h1 : p (if h.mobile then f else whenSet o.showRemoteCursor setShowRemoteCursor f) = p f := by
    split
    · rfl
    · exact whenSet_const p _ fun yes => hcursor yes _
  have h2 := (whenSet_const p o.followRemoteWindow fun yes => hwindow yes _).trans h1
  exact (whenSet_const p o.disableAudio fun yes => haudio yes _).trans h2

theorem services_optionsBeforeFile (h : Host) (o : OptionMessage) (f : Feed) :
    (optionsBeforeFile h o f).server.services = f.server.services :=
  beforeFile_const (·.server.services) h o f services_setShowRemoteCursor
    (fun _ _ => Server.subscribe_services ..) fun _ _ => Server.subscribe_services ..

/-- What the file clipboard depends on before `disable_clipboard` is looked at. -/
theorem fileClipboardKept_before (o : OptionMessage) (f : Feed) (yes : Bool) :
    FileClipboardKept h (optionsBeforeClipboard h o f)
        { optionsBeforeClipboard h o f with disableClipboard := yes } ↔
      let g := { f with
        enableFileTransfer := (given o.enableFileTransfer).getD f.enableFileTransfer }
      FileClipboardKept h g { g with disableClipboard := yes } := by
  have hservices := services_optionsBeforeFile h o f
  have hread := beforeFile_const
    (fun f => (f.clipboard, f.disableClipboard, f.file, f.enableFileTransfer)) h o f
    (fun _ _ => rfl) (fun _ _ => rfl) fun _ _ => rfl
  simp only [Prod.mk.injEq] at hread
  obtain ⟨hclipboard, hdisable, hfile, henable⟩ := hread
  unfold optionsBeforeClipboard
  generalize optionsBeforeFile h o f = f3 at *
  unfold FileClipboardKept
  cases hu : h.unixFileCopyPaste with
  | false => simp
  | true =>
    cases o.enableFileTransfer <;>
      simp [whenSet, setEnableFileTransfer, given, hu, subscribe, Server.subscribe_services,
        canSubFileClipboardService, clipboardEnabled, fileTransferEnabled, hservices, hclipboard,
        hdisable, hfile, henable]

/-! ### Events -/

/-- What can happen to the subscriptions of an authorized remote session: a permission is
switched (`left`: privacy mode could be left), options are set, displays are captured. -/
inductive Event where
  | switch (left : Bool) (name : Switch) (enabled : Bool)
  | options (o : OptionMessage)
  | capture (add sub set : List ℕ)

def step (h : Host) (f : Feed) : Event → Feed
  | .switch left name enabled => f.switchPermission h true (some .remote) left name enabled
  | .options o => f.updateOptions h (some .remote) o
  | .capture add sub set => f.captureDisplays .monitor add sub set

def LeavesNone (h : Host) (f : Feed) : Event → Prop
  | .switch _ .keyboard enabled =>
    .cursor ∈ f.server.services →
      ¬ (enabled = true ∧ f.disableKeyboard = true ∧ f.showRemoteCursor = false)
  | .switch _ .clipboard enabled => FileClipboardKept h f { f with clipboard := enabled }
  | .switch _ _ _ => True
  | .options o =>
    (.windowFocus ∈ f.server.services →
      ¬ (o.followRemoteWindow = .yes ∧ f.multiUiSession = true)) ∧
    (given o.disableKeyboard = none → ∀ yes ∈ given o.disableClipboard,
      let g := { f with
        enableFileTransfer := (given o.enableFileTransfer).getD f.enableFileTransfer }
      FileClipboardKept h g { g with disableClipboard := yes })
  | .capture _ _ _ => True

/-- An option message leaves everything right exactly if it does not ask for the window
focus of several displays, and does not move the file clipboard by `disable_clipboard`
without `disable_keyboard`. -/
theorem Follows.updateOptions_iff (hf : f.Follows h) (o : OptionMessage) :
    (f.updateOptions h (some .remote) o).Follows h ↔ f.LeavesNone h (.options o) := by
  have hwindow := (right_from_windowFocus (h := h) o).trans
    (right_before_windowFocus o (hf .windowFocus))
  have hclipboard := right_from_fileClipboard o
    (right_before_of_ne o (by decide) (hf .fileClipboard))
  simp only [fileClipboardKept_before] at hclipboard
  constructor
  · intro hall
    exact ⟨hwindow.1 (hall _), hclipboard.1 (hall _)⟩
  · rintro ⟨hw, hc⟩ x
    by_cases hx : x = .windowFocus
    · subst hx
      exact hwindow.2 hw
    · by_cases hx' : x = .fileClipboard
      · subst hx'
        exact hclipboard.2 hc
      · exact right_from_of_ne o hx' (right_before_of_ne o hx (hf x))

/-! ### Permission switches -/

/-- The keyboard permission with the clipboards, before the cursor. -/
def withKeyboard (h : Host) (enabled : Bool) (f : Feed) : Feed :=
  let f := { f with keyboard := enabled }
  let f := f.subscribe .clipboard (f.canSubClipboardService h)
  if h.unixFileCopyPaste then f.subscribe .fileClipboard (f.canSubFileClipboardService h) else f

theorem withKeyboard_services (h : Host) (enabled : Bool) (f : Feed) :
    (f.withKeyboard h enabled).server.services = f.server.services := by
  unfold withKeyboard
  split <;> simp [subscribe, Server.subscribe_services]

theorem withKeyboard_cursor (h : Host) (enabled : Bool) (f : Feed) :
    (f.withKeyboard h enabled).rule h .cursor =
      some (enabled && !f.disableKeyboard || f.showRemoteCursor) := by
  unfold withKeyboard
  split <;> rfl

theorem switchKeyboard_eq (h : Host) (left enabled : Bool) (f : Feed) :
    f.switchPermission h true (some .remote) left .keyboard enabled =
      (f.withKeyboard h enabled).subscribe .cursor (enabled || f.showRemoteCursor) := by
  have hshow : (f.withKeyboard h enabled).showRemoteCursor = f.showRemoteCursor := by
    unfold withKeyboard
    split <;> rfl
  rw [← hshow]
  rfl

theorem Right.withKeyboard (hf : f.Right h x) (enabled : Bool) (hx : x ≠ .cursor) :
    (f.withKeyboard h enabled).Right h x := by
  refine right_fileClipboard.2 (.inr ((right_refresh rfl).2 ?_))
  refine or_iff_not_imp_left.2 fun hx' => hf.of_eq rfl ?_
  cases x <;> first | rfl | exact absurd rfl hx | exact absurd rfl hx'

/-- The keyboard permission is given to a session that has its keyboard disabled. -/
theorem Follows.switchKeyboard_iff (hf : f.Follows h) (left enabled : Bool) :
    (f.switchPermission h true (some .remote) left .keyboard enabled).Follows h ↔
      f.LeavesNone h (.switch left .keyboard enabled) := by
  rw [switchKeyboard_eq]
  have hcursor : ((f.withKeyboard h enabled).subscribe .cursor
        (enabled || f.showRemoteCursor)).Right h .cursor ↔
      f.LeavesNone h (.switch left .keyboard enabled) := by
    rw [right_subscribe_self, withKeyboard_services, withKeyboard_cursor]
    refine forall_congr' fun _ => ?_
    cases enabled <;> cases f.disableKeyboard <;> cases f.showRemoteCursor <;> decide
  rw [← hcursor]
  refine ⟨fun hall => hall _, fun hright x => ?_⟩
  by_cases hx : x = .cursor
  · rwa [hx]
  · exact (right_subscribe_of_ne hx).2 ((hf x).withKeyboard enabled hx)

/-- The file clipboard depends on the clipboard permission, and is left out. -/
theorem Follows.switchClipboard_iff (hf : f.Follows h) (left enabled : Bool) :
    (f.switchPermission h true (some .remote) left .clipboard enabled).Follows h ↔
      FileClipboardKept h f { f with clipboard := enabled } := by
  have hfile : (f.switchPermission h true (some .remote) left .clipboard enabled).Right h
      .fileClipboard ↔ FileClipboardKept h f { f with clipboard := enabled } :=
    (right_subscribe_of_ne (by decide)).trans (right_fileClipboard_iff (hf _) rfl)
  rw [← hfile]
  refine ⟨fun hall => hall _, fun hright x => ?_⟩
  by_cases hx : x = .fileClipboard
  · rwa [hx]
  · refine (right_refresh rfl).2 (or_iff_not_imp_left.2 fun hx' => (hf x).of_eq rfl ?_)
    cases x <;> first | rfl | exact absurd rfl hx | exact absurd rfl hx'

theorem Follows.switchPermission (hf : f.Follows h) (left enabled : Bool) {name : Switch}
    (hk : name ≠ .keyboard) (hc : name ≠ .clipboard) :
    (f.switchPermission h true (some .remote) left name enabled).Follows h := by
  intro x
  cases name with
  | keyboard => exact absurd rfl hk
  | clipboard => exact absurd rfl hc
  | audio =>
    refine right_subAudio.2 (or_iff_not_imp_left.2 fun hx => (hf x).of_eq rfl ?_)
    cases x <;> first | rfl | exact absurd rfl hx
  | file =>
    refine right_fileClipboard.2 (or_iff_not_imp_left.2 fun hx => (hf x).of_eq rfl ?_)
    cases x <;> first | rfl | exact absurd rfl hx
  | restart | recording | blockInput =>
    refine (hf x).of_eq rfl ?_
    cases x <;> rfl
  | privacyMode =>
    unfold Feed.switchPermission
    dsimp only
    split
    · refine (hf x).of_eq rfl ?_
      cases x <;> rfl
    · exact hf x
  | other => exact hf x

/-! ### Login and displays -/

theorem right_of_isVideo (hx : x.isVideo = true) : f.Right h x := by
  cases x <;> first | exact right_of_rule_none rfl | cases hx

theorem notMem_noperms_iff (hmulti : f.multiUiSession = false) (hb : b ∈ f.rule h x) :
    x ∉ f.noperms h ↔ b = true := by
  cases x with
  | cursor =>
    cases hb
    simp [noperms, imp_iff_not_or, or_comm]
  | windowFocus =>
    cases hb
    simp [noperms, hmulti]
  | clipboard | audio =>
    cases hb
    simp [noperms]
  | fileClipboard =>
    cases hu : h.unixFileCopyPaste with
    | false => simp [rule, hu] at hb
    | true =>
      simp only [rule, hu, if_true, Option.mem_some_iff] at hb
      simp [noperms, hu, hb]
  | _ => cases hb

/-- `try_sub_monitor_services` subscribes a session that is not subscribed to anything,
and shows one display, as it should be. -/
theorem follows_trySubMonitorServices (hsubed : f.servicesSubed = false)
    (hsubs : f.server.subs = []) (hmulti : f.multiUiSession = false) :
    (f.trySubMonitorServices h true).Follows h := by
  intro x
  cases hv : x.isVideo with
  | true => exact right_of_isVideo hv
  | false =>
    let v := f.server.addService (.video .monitor h.primaryDisplayIdx)
    have hv0 : v.subs = [] := (Server.addService_subs ..).trans hsubs
    have heq : f.trySubMonitorServices h true =
        { f with servicesSubed := true, server := v.addConnection h (f.noperms h) } := by
      rw [trySubMonitorServices, hsubed]
      rfl
    rw [heq]
    intro hx b hb
    have hrule : b ∈ f.rule h x := by cases x <;> exact hb
    rw [← notMem_noperms_iff hmulti hrule]
    have hx' : x ∈ v.services := hx
    simp [Server.addConnection, hv0, hv, hx']

theorem Follows.captureDisplays (hf : f.Follows h) (source : VideoSource)
    (add sub set : List ℕ) : (f.captureDisplays source add sub set).Follows h := by
  let v := f.server.captureFor source add sub set
  let f1 : Feed := { f with
    server := v
    multiUiSession := 1 < (v.subs.filter Service.isVideo).length }
  have heq : f.captureDisplays source add sub set =
      if f1.followRemoteWindow then f1.subscribe .windowFocus (!f1.multiUiSession) else f1 := rfl
  have hother : ∀ x, f1.rule h x = f.rule h x → f1.Right h x := by
    intro x hrule
    cases hv : x.isVideo with
    | true => exact right_of_isVideo hv
    | false =>
      obtain ⟨hservices, hsubs⟩ := f.server.captureFor_of_not_isVideo source add sub set hv
      intro hx b hb
      rw [hrule] at hb
      exact hsubs.trans (hf x (hservices.1 hx) b hb)
  intro x
  rw [heq]
  split_ifs with hfollow
  · refine (right_refresh ?_).2 (or_iff_not_imp_left.2 fun hx => hother x ?_)
    · simp [rule, hfollow]
    · cases x <;> first | rfl | exact absurd rfl hx
  · refine hother x ?_
    have hno : f.followRemoteWindow = false := by simpa [f1] using hfollow
    cases x <;> first | rfl | simp [rule, f1, hno]

/-! ### Runs -/

theorem Follows.step_iff (hf : f.Follows h) (e : Event) :
    (f.step h e).Follows h ↔ f.LeavesNone h e := by
  cases e with
  | switch left name enabled =>
    by_cases hk : name = .keyboard
    · subst hk
      exact hf.switchKeyboard_iff left enabled
    · by_cases hc : name = .clipboard
      · subst hc
        exact hf.switchClipboard_iff left enabled
      · refine iff_of_true (hf.switchPermission left enabled hk hc) ?_
        cases name <;> trivial
  | options o => exact hf.updateOptions_iff o
  | capture => exact iff_of_true (hf.captureDisplays _ _ _ _) trivial

/-- From any state with its subscriptions as they should be, they are so after each event
exactly if no event leaves a service behind. -/
theorem subscriptions_follow_iff (h : Host) (f : Feed) (hf : f.Follows h) (es : List Event) :
    Run.Meets (step h) (fun f e => (f.step h e).Follows h) f es ↔
      Run.Meets (step h) (LeavesNone h) f es :=
  Run.meets_inv_iff (fun _ e hf => hf.step_iff e) hf es

def permitted : Feed where
  keyboard := true
  clipboard := true
  audio := true
  file := true
  restart := true
  recording := true
  blockInput := true
  privacyMode := true
  displayIdx := 0
  server := {
    services := [.audio, .display, .clipboard, .fileClipboard, .cursor, .pos, .windowFocus]
    subs := []
    subs_services := nofun }

def linuxHost : Host where
  isDirectIpAccess _ := false
  getVersionNumber _ := 0
  passwordHash _ := []

/-- The audio is switched off by option and its permission taken away and given back. -/
theorem subscriptions_follow_iff_audio :
    Run.Meets (step linuxHost) (fun f e => (f.step linuxHost e).Follows linuxHost)
      (permitted.trySubMonitorServices linuxHost true)
      [.options { disableAudio := .yes }, .switch true .audio false, .switch true .audio true] :=
  (subscriptions_follow_iff linuxHost _ (follows_trySubMonitorServices rfl rfl rfl) _).2
    ⟨⟨nofun, nofun⟩, trivial, trivial, trivial⟩

/-- The clipboard permission is taken away from a session with file transfer, and the file
clipboard stays; the keyboard permission is given back to a session that has its keyboard
disabled, and the cursor comes with it; a session that shows two displays follows the
remote window, and gets the window focus. -/
theorem leaves_services_behind : let f := permitted.trySubMonitorServices linuxHost true
    let noClipboard := Run.run (step linuxHost) f
      [.options { enableFileTransfer := .yes }, .switch true .clipboard false]
    let noKeyboard := Run.run (step linuxHost) f
      [.options { disableKeyboard := .yes }, .switch true .keyboard false,
        .switch true .keyboard true]
    let twoDisplays := Run.run (step linuxHost) f
      [.capture [] [] [0, 1], .options { followRemoteWindow := .yes }]
    (noClipboard.canSubFileClipboardService linuxHost = false ∧
        .fileClipboard ∈ noClipboard.server.subs) ∧
      ((noKeyboard.peerKeyboardEnabled || noKeyboard.showRemoteCursor) = false ∧
        .cursor ∈ noKeyboard.server.subs) ∧
      (twoDisplays.multiUiSession = true ∧ .windowFocus ∈ twoDisplays.server.subs) := by
  decide

end Feed
end CodeDesk.Conn
