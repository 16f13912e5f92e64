/-
# The shortcut that leaves relative mouse mode

The grab callback of `src/keyboard.rs`, while the keyboard is hooked. The chord that
leaves relative mouse mode is not sent to the peer: a press that completes it is
blocked, and so is the next release of a key of the chord, whichever key that is. One
flag stands for the press that was blocked; it is cleared by that release, and when the
mode ends.

What is sent for an event that is not blocked depends on the keyboard mode (in translate
mode the press of a dead key sends nothing and its release a release), so it is part of
the event.
-/
import CodeDesk.Run
import Mathlib.Logic.Function.Basic

namespace CodeDesk.Client.ExitShortcut

open Function (update)
open Run (run Meets)

inductive Key where
  | shiftLeft
  | shiftRight
  | controlLeft
  | controlRight
  | alt
  | altGr
  | metaLeft
  | metaRight
  | keyG
  | capsLock
  | numLock
  | other (code : ℕ)
  | unknown (code : ℕ)
  deriving DecidableEq, Repr

/-- The keys of `MODIFIERS_STATE`. -/
def Key.isModifier : Key → Bool
  | .shiftLeft | .shiftRight | .controlLeft | .controlRight => true
  | .alt | .altGr | .metaLeft | .metaRight => true
  | _ => false

inductive Platform where
  | macos
  | windows
  | linux
  deriving DecidableEq, Repr

/-- The keys the callback leaves alone. -/
def passes : Platform → Key → Bool
  | .macos, k | .windows, k => k = .capsLock || k = .numLock
  | .linux, .unknown _ => true
  | .linux, _ => false

/-- The keys whose release is blocked after a blocked press. -/
def isTrackedKey : Platform → Key → Bool
  | .macos, k => k = .keyG
  | _, k => k = .controlLeft || k = .controlRight || k = .alt || k = .altGr

/-- `is_exit_relative_mouse_shortcut`, with the modifiers that are down. -/
def isExitShortcut (down : Key → Bool) : Platform → Key → Bool
  | .macos, k => k = .keyG && (down .metaLeft || down .metaRight)
  | _, k =>
    (k = .controlLeft || k = .controlRight) && (down .alt || down .altGr) ||
      (k = .alt || k = .altGr) && (down .controlLeft || down .controlRight)

structure State where
  modifiers : Key → Bool := fun _ => false
  exitShortcutKeyDown : Bool := false
  relativeMouseModeActive : Bool := false
  /-- The keys that are held. -/
  held : Key → Bool := fun _ => false
  /-- The keys that the peer has been told are down. -/
  remote : Key → Bool := fun _ => false
  /-- The releases that were sent for a key that was not down. -/
  orphans : List Key := []

structure KeyEvent where
  key : Key
  /-- A press or its repetition, or a release. -/
  isPress : Bool
  /-- What `event_to_key_events` makes of it, if it gets there. -/
  sent : List (Key × Bool) := [(key, isPress)]
  /-- What else `can_exit_relative_mouse_mode_from_grab_loop` asks of the session. -/
  eligible : Bool := true

inductive Input where
  | key (e : KeyEvent)
  /-- `set_relative_mouse_mode_state`. -/
  | mode (active : Bool)

namespace State

/-- The event completes the chord, and the chord is in use. -/
def isExit (platform : Platform) (s : State) (e : KeyEvent) : Bool :=
  isExitShortcut s.modifiers platform e.key && (s.relativeMouseModeActive && e.eligible)

/-- `should_block_relative_mouse_shortcut`: whether the event is blocked, and the flag then. -/
def shouldBlock (platform : Platform) (s : State) (e : KeyEvent) : Bool × Bool :=
  if isTrackedKey platform e.key && !e.isPress && s.exitShortcutKeyDown then (true, false)
  else if s.isExit platform e then (true, s.exitShortcutKeyDown || e.isPress)
  else (false, s.exitShortcutKeyDown)

def updateModifiersState (s : State) (e : KeyEvent) : Key → Bool :=
  if e.key.isModifier then update s.modifiers e.key e.isPress else s.modifiers

def sendKeyEvent (s : State) (k : Key × Bool) : State :=
  { s with
    remote := update s.remote k.1 k.2
    orphans := if !k.2 && !s.remote k.1 then k.1 :: s.orphans else s.orphans }

def processEvent (s : State) (e : KeyEvent) : State :=
  if e.isPress && (e.key.isModifier && s.modifiers e.key) then s
  else e.sent.foldl sendKeyEvent { s with modifiers := s.updateModifiersState e }

def handleKey (platform : Platform) (s : State) (e : KeyEvent) : State :=
  let s := { s with held := update s.held e.key e.isPress }
  if passes platform e.key then s
  else
    let (block, flag) := s.shouldBlock platform e
    let s := { s with exitShortcutKeyDown := flag }
    if block then s else s.processEvent e

def step (platform : Platform) (s : State) : Input → State
  | .key e => s.handleKey platform e
  | .mode active =>
    { s with
      relativeMouseModeActive := active
      exitShortcutKeyDown := active && s.exitShortcutKeyDown }

/-- A press that is blocked is one of a key the peer does not have, and the only one that
the flag stands for. -/
def PressApart (platform : Platform) (s : State) (e : KeyEvent) : Prop :=
  if s.isExit platform e then s.remote e.key = false ∧ (s.exitShortcutKeyDown → s.held e.key)
  else isTrackedKey platform e.key → s.held e.key → s.remote e.key

/-- The release that takes the flag is that of the key that was blocked, and no other is
blocked. -/
def ReleaseApart (platform : Platform) (s : State) (e : KeyEvent) : Prop :=
  if isTrackedKey platform e.key && s.exitShortcutKeyDown then s.remote e.key = false
  else s.isExit platform e = false

/-- A key is released only while it is held, what is sent for it is the key, and the mode
does not end while a blocked key is held. -/
def Apart (platform : Platform) (s : State) : Input → Prop
  | .key e =>
    (e.isPress = false → s.held e.key) ∧
      (passes platform e.key = false →
        e.sent = [(e.key, e.isPress)] ∧
          if e.isPress then s.PressApart platform e else s.ReleaseApart platform e)
  | .mode active => s.exitShortcutKeyDown → active

instance (platform : Platform) (s : State) (e : KeyEvent) : Decidable (s.PressApart platform e) :=
  inferInstanceAs (Decidable (ite _ _ _))

instance (platform : Platform) (s : State) (e : KeyEvent) : Decidable (s.ReleaseApart platform e) :=
  inferInstanceAs (Decidable (ite _ _ _))

instance (platform : Platform) (s : State) : ∀ i, Decidable (s.Apart platform i)
  | .key _ => inferInstanceAs (Decidable ((_ → _) ∧ (_ → _ ∧ ite _ _ _)))
  | .mode _ => inferInstanceAs (Decidable (_ → _))

section

variable {platform : Platform} {s : State} {b : Option Key} {e : KeyEvent}

/-- `b` is the key whose press was blocked and whose release will be. -/
structure Inv (platform : Platform) (s : State) (b : Option Key) : Prop where
  flag : s.exitShortcutKeyDown = b.isSome
  blocked : ∀ k ∈ b, isTrackedKey platform k ∧ s.held k
  modifiers : ∀ k, k.isModifier → s.modifiers k = (s.held k && b ≠ some k)
  remote : ∀ k, s.remote k = (s.held k && !passes platform k && b ≠ some k)
  orphans : s.orphans = []

theorem passes_of_tracked {k : Key} (h : isTrackedKey platform k) : passes platform k = false := by
  cases platform <;> cases k <;> simp_all [isTrackedKey, passes]

theorem not_passes_of_modifier {k : Key} (h : k.isModifier) : passes platform k = false := by
  cases platform <;> cases k <;> simp_all [Key.isModifier, passes]

theorem tracked_of_exit (h : s.isExit platform e = true) : isTrackedKey platform e.key := by
  simp only [isExit, Bool.and_eq_true] at h
  cases platform <;> cases hk : e.key <;> simp_all [isExitShortcut, isTrackedKey]

variable (h : Inv platform s b)

include h

/-- A chord key that is held and that the peer does not have is the blocked one. -/
theorem Inv.eq_blocked {k : Key} (ht : isTrackedKey platform k) (hheld : s.held k)
    (hremote : s.remote k = false) : b = some k := by
  have hk := h.remote k
  rw [hremote, hheld, passes_of_tracked ht] at hk
  simpa using hk.symm

/-- A blocked event of a key that the peer does not have: the key becomes the blocked one,
or it is released. -/
theorem Inv.block {k : Key} (ht : isTrackedKey platform k) (hremote : s.remote k = false)
    (hb : b = none ∨ b = some k) (v : Bool) :
    Inv platform { s with held := update s.held k v, exitShortcutKeyDown := v }
      (if v then some k else none) := by
  have hold : ∀ l, l ≠ k → b ≠ some l := by
    rintro l hl rfl
    simp [hl] at hb
  have hnew : ∀ l, l ≠ k → (if v then some k else none) ≠ some l := by
    intro l hl
    cases v <;> simp [Ne.symm hl]
  refine ⟨by cases v <;> rfl, fun l hl => ?_, fun l hl => ?_, fun l => ?_, h.orphans⟩
  · cases v with
    | false => cases hl
    | true =>
      obtain rfl := Option.some.inj hl
      exact ⟨ht, Function.update_self ..⟩
  · have hm := h.modifiers l hl
    by_cases hlk : l = k
    · subst hlk
      have hdown : s.modifiers l = false := by
        cases hheld : s.held l with
        | false => simpa [hheld] using hm
        | true => simpa [h.eq_blocked ht hheld hremote] using hm
      cases v <;> simpa using hdown
    · simpa [Function.update_of_ne hlk, hold l hlk, hnew l hlk] using hm
  · by_cases hlk : l = k
    · subst hlk
      cases v <;> simpa using hremote
    · simpa [Function.update_of_ne hlk, hold l hlk, hnew l hlk] using h.remote l

/-- An event that gets to the peer. -/
theorem Inv.process (hk : b ≠ some e.key) (hpass : passes platform e.key = false)
    (hheld : e.isPress = false → s.held e.key)
    (hsent : e.sent = [(e.key, e.isPress)]) :
    Inv platform (processEvent { s with held := update s.held e.key e.isPress } e) b := by
  have hkeep : ∀ l ∈ b, update s.held e.key e.isPress l = true := by
    intro l hl
    rw [Function.update_of_ne (by rintro rfl; exact hk hl)]
    exact (h.blocked l hl).2
  rw [processEvent]
  split
  case isTrue hlong =>
    -- a repetition: the key is held already
    obtain ⟨hpress, hmod, hdown⟩ : e.isPress = true ∧ e.key.isModifier = true ∧
        s.modifiers e.key = true := by simpa using hlong
    have hheld : update s.held e.key e.isPress = s.held := by
      rw [Function.update_eq_self_iff, hpress]
      have hm := h.modifiers e.key hmod
      rw [hdown] at hm
      simpa [hk] using hm
    simpa only [hheld] using h
  case isFalse =>
    have hmods : ∀ l, l.isModifier → s.updateModifiersState e l =
        (update s.held e.key e.isPress l && b ≠ some l) := by
      intro l hl
      have hm := h.modifiers l hl
      unfold updateModifiersState
      by_cases hlk : l = e.key
      · subst hlk
        simp [hl, hk]
      · split <;> simpa [Function.update_of_ne hlk] using hm
    rw [hsent]
    refine ⟨h.flag, fun l hl => ⟨(h.blocked l hl).1, hkeep l hl⟩, hmods, fun l => ?_, ?_⟩
    · by_cases hlk : l = e.key
      · subst hlk
        simp [sendKeyEvent, hpass, hk]
      · simpa [sendKeyEvent, Function.update_of_ne hlk] using h.remote l
    · cases hp : e.isPress with
      | true => simpa [sendKeyEvent] using h.orphans
      | false =>
        have hrem := h.remote e.key
        rw [hheld hp] at hrem
        simp [sendKeyEvent, hrem, hpass, hk, h.orphans]

/-- A key that the callback leaves alone. -/
theorem Inv.pass (hpass : passes platform e.key = true) :
    Inv platform { s with held := update s.held e.key e.isPress } b := by
  have hne : ∀ l, passes platform l = false → l ≠ e.key := by
    rintro l hl rfl
    simp [hpass] at hl
  refine ⟨h.flag, fun l hl => ?_, fun l hl => ?_, fun l => ?_, h.orphans⟩
  · have hl := h.blocked l hl
    simpa [Function.update_of_ne (hne l (passes_of_tracked hl.1))] using hl
  · simpa [Function.update_of_ne (hne l (not_passes_of_modifier hl))] using h.modifiers l hl
  · have hr := h.remote l
    by_cases hlk : l = e.key
    · subst hlk
      simpa [hpass] using hr
    · simpa [Function.update_of_ne hlk] using hr

theorem Inv.handleKey (he : s.Apart platform (.key e)) :
    ∃ b, Inv platform (s.handleKey platform e) b := by
  obtain ⟨hheld, hkey⟩ := he
  unfold State.handleKey
  dsimp only
  split
  case isTrue hpass => exact ⟨b, h.pass hpass⟩
  case isFalse hpass =>
    obtain ⟨hsent, hkey⟩ := hkey (by simpa using hpass)
    have hprocess := fun hk => h.process hk (by simpa using hpass) hheld hsent
    have hexit : isExit platform { s with held := update s.held e.key e.isPress } e =
        s.isExit platform e := rfl
    rw [shouldBlock, hexit]
    cases hp : e.isPress with
    | true =>
      rw [hp, if_pos rfl, PressApart] at hkey
      rw [hp] at hprocess
      cases hx : s.isExit platform e with
      | true =>
        rw [if_pos hx] at hkey
        have ht := tracked_of_exit hx
        have hb : b = none ∨ b = some e.key := by
          refine or_iff_not_imp_left.2 fun hb => h.eq_blocked ht (hkey.2 ?_) hkey.1
          rw [h.flag, Option.isSome_iff_ne_none]
          exact hb
        simpa using ⟨_, h.block ht hkey.1 hb true⟩
      | false =>
        rw [if_neg (by simp [hx])] at hkey
        refine ⟨b, ?_⟩
        simp only [Bool.not_true, Bool.and_false, Bool.false_and, Bool.false_eq_true, if_false]
        refine hprocess fun hb => ?_
        -- the blocked key is not repeated
        obtain ⟨ht, hheld⟩ := h.blocked _ hb
        simpa [hkey ht hheld, hb] using h.remote e.key
    | false =>
      rw [hp, if_neg (by simp), ReleaseApart] at hkey
      rw [hp] at hprocess
      cases ht : isTrackedKey platform e.key && s.exitShortcutKeyDown with
      | true =>
        rw [if_pos ht] at hkey
        rw [Bool.and_eq_true] at ht
        have hb := h.eq_blocked ht.1 (hheld hp) hkey
        simpa [ht.1, ht.2] using ⟨_, h.block ht.1 hkey (.inr hb) false⟩
      | false =>
        rw [if_neg (by simp [ht])] at hkey
        refine ⟨b, ?_⟩
        simp only [Bool.not_false, Bool.and_true, ht, hkey, Bool.false_eq_true, if_false]
        refine hprocess fun hb => ?_
        rw [(h.blocked _ hb).1, h.flag, hb] at ht
        cases ht

theorem inv_step {i : Input} (hi : s.Apart platform i) :
    ∃ b, Inv platform (s.step platform i) b := by
  cases i with
  | key e => exact h.handleKey hi
  | mode active =>
    refine ⟨b, ⟨?_, h.blocked, h.modifiers, h.remote, h.orphans⟩⟩
    have hflag := h.flag
    cases hf : s.exitShortcutKeyDown with
    | true =>
      obtain rfl := hi hf
      simpa [step] using hflag
    | false => simpa [step, hf] using hflag

end

/-- **The peer sees every hold completely or not at all**, where a blocked press is followed
by its own release, within the mode: it has no key down that is not held, has got no release
without a press and, unless a blocked key is held, has every key down that is held and that
the callback does not leave alone. -/
theorem remote_eq_held {platform : Platform} (is : List Input)
    (h : Meets (step platform) (Apart platform) {} is) :
    let s := run (step platform) {} is
    (∀ k, s.remote k → s.held k) ∧ s.orphans = [] ∧
      (s.exitShortcutKeyDown = false → ∀ k, s.remote k = (s.held k && !passes platform k)) := by
  obtain ⟨b, hinv⟩ := Run.inv_run_of_meets (I := fun s : State => ∃ b, Inv platform s b)
    (fun _ _ _ ⟨_, hs⟩ hi => inv_step hs hi)
    ⟨none, ⟨rfl, nofun, fun _ _ => rfl, fun _ => rfl, rfl⟩⟩ h
  refine ⟨fun k hk => ?_, hinv.orphans, fun hflag k => ?_⟩
  · have hr := hinv.remote k
    simp_all
  · have hb : b = none := by simpa [hflag] using hinv.flag
    simpa [hb] using hinv.remote k

def press (k : Key) : Input := .key { key := k, isPress := true }

def release (k : Key) : Input := .key { key := k, isPress := false }

/-- The press of Alt completes the chord: the release of Ctrl is blocked in its place, or,
if the mode ends first, the release of Alt is sent without a press. -/
theorem chord_unbalanced : let chord := [.mode true, press .controlLeft, press .alt]
    let stuck := run (step .linux) {} (chord ++ [release .controlLeft, release .alt])
    let orphan := run (step .linux) {} (chord ++ [.mode false, release .alt])
    stuck.held .controlLeft = false ∧ stuck.remote .controlLeft = true ∧
      orphan.orphans = [.alt] := by
  decide

/-- The shortcut is used, and the mode ends when its keys are up. -/
def shortcut : List Input :=
  [.mode true, press .controlLeft, press .alt, release .alt, release .controlLeft, .mode false]

theorem remote_eq_held_shortcut : (run (step .linux) {} shortcut).orphans = [] :=
  (remote_eq_held shortcut (by decide)).2.1

end State
end CodeDesk.Client.ExitShortcut
