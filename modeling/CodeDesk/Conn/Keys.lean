/-
# Modifiers that a peer leaves held down

The key events of `on_message` in `src/server/connection.rs` on a desktop: the set
`pressed_modifiers`, what goes to the input thread, and `release_pressed_modifiers`,
which the end of the connection calls. `rdev::Key` and the tables from key codes to it
are those of the crate `rdev`; here a `Platform` has the table of its system.

In a `KeyEvent` the flag `down` is the state of the key and `press` a click, down and
up. A modifier gets into the set with a click and leaves it with any other event, and on
Linux none gets into it. So the set never has a key that is held (`not_both`), and at the
end the right keys are released only if there are none (`released_iff_held`).
-/
import CodeDesk.Conn.Desk
import CodeDesk.Run
import Mathlib.Data.Finset.Basic

namespace CodeDesk.Conn.Keys

inductive KeyboardMode where
  | legacy
  | map
  | translate
  | auto
  | unknown (n : ℤ)
  deriving DecidableEq, Repr

/-- `rdev::Key`, of which the modifiers are told apart. -/
inductive Key where
  | shiftLeft
  | shiftRight
  | controlLeft
  | controlRight
  | metaLeft
  | metaRight
  | alt
  | altGr
  | other (n : ℕ)
  deriving DecidableEq, Repr

def Key.isModifier : Key → Bool
  | other _ => false
  | _ => true

def isModifier (ke : KeyEvent) : Bool :=
  match ke.union with
  | .controlKey v => v ∈ [1, 29, 4, 23, 75, 73, 74, 64]
  | _ => false

structure Platform where
  linux : Bool
  keycodeToRdevKey : ℕ → Key
  /-- No system has a modifier at the code 0, which an event without a code counts as. -/
  zero : (keycodeToRdevKey 0).isModifier = false

/-- A key event with its mode, and whether the peer may use the keyboard when it comes. -/
structure Event where
  mode : KeyboardMode
  ke : KeyEvent
  peerKeyboardEnabled : Bool := true
  deriving DecidableEq, Repr

def chr (ke : KeyEvent) : ℕ :=
  match ke.union with
  | .chr code => code
  | _ => 0

namespace Platform

variable (p : Platform)

def key (mode : KeyboardMode) (ke : KeyEvent) : Option Key :=
  (match mode with
    | .map => some (p.keycodeToRdevKey (chr ke))
    | .translate =>
      match ke.union with
      | .chr code => some (p.keycodeToRdevKey (code &&& 0x0000FFFF))
      | _ => none
    | _ => none).filter Key.isModifier

def isPress (mode : KeyboardMode) (ke : KeyEvent) : Bool :=
  if p.linux then (ke.press || ke.down) && !(isModifier ke || (p.key mode ke).isSome)
  else ke.press

def clicks (mode : KeyboardMode) (ke : KeyEvent) : Bool :=
  p.isPress mode ke && match ke.union with
    | .unicode _ => false
    | .seq _ => false
    | _ => true

end Platform

/-- What the input thread hands to `handle_key`, in which only `down` counts. -/
def typed (ke : KeyEvent) (press : Bool) : List KeyEvent :=
  let ke := { ke with press := false }
  if press then [{ ke with down := true }, { ke with down := false }] else [ke]

structure Keyboard where
  pressedModifiers : Finset Key := ∅
  /-- What `handle_key` got, with the mode. No function reads it. -/
  typed : List (KeyboardMode × KeyEvent) := []

namespace Keyboard

variable (p : Platform)

def inputKey (mode : KeyboardMode) (ke : KeyEvent) (press : Bool) (s : Keyboard) : Keyboard :=
  { s with typed := s.typed ++ (Keys.typed ke press).map (mode, ·) }

def track (mode : KeyboardMode) (ke : KeyEvent) (s : Keyboard) : Keyboard :=
  match p.key mode ke with
  | some k =>
    { s with pressedModifiers :=
        if p.isPress mode ke then insert k s.pressedModifiers else s.pressedModifiers.erase k }
  | none => s

def keyEvent (s : Keyboard) (e : Event) : Keyboard :=
  if e.peerKeyboardEnabled then
    (s.track p e.mode e.ke).inputKey e.mode e.ke (p.clicks e.mode e.ke)
  else s

/-- The keys that are released, and the set afterwards. -/
def releasePressedModifiers (s : Keyboard) : Finset Key × Keyboard :=
  (s.pressedModifiers, { s with pressedModifiers := ∅ })

/-- The last that was typed of the modifier is a key-down. -/
def held (k : Key) (s : Keyboard) : Bool :=
  match (s.typed.filter fun x => p.key x.1 x.2 = some k).getLast? with
  | some (_, ke) => ke.down
  | none => false

end Keyboard

/-! ### One event -/

/-- The event is processed and is one of the modifier `k`. -/
def Platform.concerns (p : Platform) (k : Key) (e : Event) : Bool :=
  e.peerKeyboardEnabled && p.key e.mode e.ke = some k

variable {p : Platform} {k : Key} {e : Event} {s : Keyboard} {mode : KeyboardMode} {ke : KeyEvent}

theorem exists_chr_of_key (h : p.key mode ke = some k) : ∃ code, ke.union = .chr code := by
  unfold Platform.key at h
  rw [Option.filter_eq_some_iff] at h
  obtain ⟨h, hk⟩ := h
  cases mode with
  | map =>
    cases hu : ke.union with
    | chr code => exact ⟨code, rfl⟩
    | _ =>
      have hzero : p.keycodeToRdevKey (chr ke) = p.keycodeToRdevKey 0 := by simp only [chr, hu]
      simp [← Option.some.inj h, hzero, p.zero] at hk
  | translate =>
    cases hu : ke.union with
    | chr code => exact ⟨code, rfl⟩
    | _ => simp [hu] at h
  | _ => cases h

theorem isPress_of_key (h : p.key mode ke = some k) :
    p.isPress mode ke = (!p.linux && ke.press) := by
  rw [Platform.isPress, h]
  cases p.linux <;> simp

theorem key_typed {press : Bool} {x : KeyEvent} (hx : x ∈ typed ke press) :
    p.key mode x = p.key mode ke := by
  cases press with
  | false =>
    obtain rfl := List.mem_singleton.1 hx
    rfl
  | true =>
    rcases List.mem_pair.1 hx with rfl | rfl <;> rfl

theorem getLast?_typed (ke : KeyEvent) (press : Bool) :
    ∃ x, (typed ke press).getLast? = some x ∧ x.down = (!press && ke.down) := by
  cases press with
  | false | true => exact ⟨_, rfl, rfl⟩

theorem clicks_of_key (h : p.key mode ke = some k) : p.clicks mode ke = (!p.linux && ke.press) := by
  obtain ⟨code, hu⟩ := exists_chr_of_key h
  rw [Platform.clicks, hu, isPress_of_key h, Bool.and_true]

theorem concerns_iff : p.concerns k e = true ↔
    e.peerKeyboardEnabled = true ∧ p.key e.mode e.ke = some k := by
  simp [Platform.concerns]

theorem mem_keyEvent : k ∈ (s.keyEvent p e).pressedModifiers ↔
    if p.concerns k e then p.linux = false ∧ e.ke.press = true else k ∈ s.pressedModifiers := by
  by_cases hon : e.peerKeyboardEnabled = true
  · have hset : (s.keyEvent p e).pressedModifiers = (s.track p e.mode e.ke).pressedModifiers := by
      rw [Keyboard.keyEvent, if_pos hon]
      rfl
    rw [hset, Keyboard.track]
    cases hk : p.key e.mode e.ke with
    | none =>
      rw [if_neg (by simp [concerns_iff, hk])]
    | some k' =>
      rw [isPress_of_key hk]
      by_cases heq : k' = k
      · subst heq
        rw [if_pos (concerns_iff.2 ⟨hon, hk⟩)]
        cases p.linux <;> cases e.ke.press <;> simp
      · rw [if_neg (by simp [concerns_iff, hk, heq])]
        dsimp only
        split <;> simp [Ne.symm heq]
  · rw [Keyboard.keyEvent, if_neg hon, if_neg (by simp [concerns_iff, hon])]

theorem held_keyEvent : (s.keyEvent p e).held p k =
    if p.concerns k e then !(!p.linux && e.ke.press) && e.ke.down else s.held p k := by
  by_cases hon : e.peerKeyboardEnabled = true
  · have htyped : (s.keyEvent p e).typed =
        s.typed ++ (typed e.ke (p.clicks e.mode e.ke)).map (e.mode, ·) := by
      rw [Keyboard.keyEvent, if_pos hon, Keyboard.inputKey, Keyboard.track]
      cases p.key e.mode e.ke <;> rfl
    rw [Keyboard.held, htyped, List.filter_append]
    by_cases hk : p.key e.mode e.ke = some k
    · have hall : ((typed e.ke (p.clicks e.mode e.ke)).map (e.mode, ·)).filter
          (fun x => p.key x.1 x.2 = some k) =
          (typed e.ke (p.clicks e.mode e.ke)).map (e.mode, ·) := by
        refine List.filter_eq_self.2 fun x hx => ?_
        obtain ⟨y, hy, rfl⟩ := List.mem_map.1 hx
        rw [decide_eq_true_eq, key_typed hy, hk]
      obtain ⟨x, hx, hdown⟩ := getLast?_typed e.ke (p.clicks e.mode e.ke)
      rw [hall, if_pos (concerns_iff.2 ⟨hon, hk⟩), List.getLast?_append, List.getLast?_map, hx]
      rwa [← clicks_of_key hk]
    · have hnone : ((typed e.ke (p.clicks e.mode e.ke)).map (e.mode, ·)).filter
          (fun x => p.key x.1 x.2 = some k) = [] := by
        refine List.filter_eq_nil_iff.2 fun x hx => ?_
        obtain ⟨y, hy, rfl⟩ := List.mem_map.1 hx
        rwa [decide_eq_true_eq, key_typed hy]
      rw [hnone, List.append_nil, if_neg (by simp [concerns_iff, hk])]
      rfl
  · rw [Keyboard.keyEvent, if_neg hon, if_neg (by simp [concerns_iff, hon])]

/-! ### A connection -/

def lastEvent (p : Platform) (k : Key) (events : List Event) : Option Event :=
  (events.filter (p.concerns k)).getLast?

variable (events : List Event)

theorem lastEvent_append : lastEvent p k (events ++ [e]) =
    if p.concerns k e then some e else lastEvent p k events := by
  unfold lastEvent
  by_cases hk : p.concerns k e = true <;> simp [hk]

theorem mem_run : k ∈ (Run.run (Keyboard.keyEvent p) {} events).pressedModifiers ↔
      ∃ e, lastEvent p k events = some e ∧ p.linux = false ∧ e.ke.press = true := by
  induction events using List.reverseRecOn with
  | nil => simp [lastEvent]
  | append_singleton events e ih =>
    rw [Run.run_append, Run.run_cons, Run.run_nil, mem_keyEvent, lastEvent_append, ih]
    by_cases hk : p.concerns k e = true <;> simp [hk]

theorem held_run :
    (Run.run (Keyboard.keyEvent p) {} events).held p k = true ↔ ∃ e, lastEvent p k events = some e ∧
      (!(!p.linux && e.ke.press) && e.ke.down) = true := by
  induction events using List.reverseRecOn with
  | nil => simp [lastEvent, Keyboard.held]
  | append_singleton events e ih =>
    rw [Run.run_append, Run.run_cons, Run.run_nil, held_keyEvent, lastEvent_append]
    by_cases hk : p.concerns k e = true
    · simp [hk]
    · simp only [hk]
      exact ih

theorem not_both (hmem : k ∈ (Run.run (Keyboard.keyEvent p) {} events).pressedModifiers) :
    (Run.run (Keyboard.keyEvent p) {} events).held p k = false := by
  obtain ⟨e, he, hlinux, hpress⟩ := (mem_run events).1 hmem
  rw [← Bool.not_eq_true, held_run]
  rintro ⟨e', he', hheld⟩
  cases he'.symm.trans he
  simp [hlinux, hpress] at hheld

/-- For every sequence of key events of a peer: at the end of the connection exactly the
modifiers are released whose last typed event is a key-down, if and only if the last
processed event of each modifier is a key-up that is, but on Linux, no click. -/
theorem released_iff_held (p : Platform) (events : List Event) :
    (∀ k, k ∈ (Run.run (Keyboard.keyEvent p) {} events).releasePressedModifiers.1 ↔
      (Run.run (Keyboard.keyEvent p) {} events).held p k = true) ↔
    ∀ k e, lastEvent p k events = some e →
      e.ke.down = false ∧ (p.linux = true ∨ e.ke.press = false) := by
  have hreleased : ∀ k, k ∈ (Run.run (Keyboard.keyEvent p) {} events).releasePressedModifiers.1 ↔
      ∃ e, lastEvent p k events = some e ∧ p.linux = false ∧ e.ke.press = true :=
    fun k => mem_run events
  constructor
  · intro h k e he
    have hk := h k
    rw [hreleased, held_run, he] at hk
    cases hl : p.linux <;> cases hp : e.ke.press <;> cases hd : e.ke.down <;>
      simp [hl, hp, hd] at hk ⊢
  · intro h k
    rw [hreleased, held_run]
    refine exists_congr fun e => and_congr_right fun he => ?_
    obtain ⟨hdown, hl | hp⟩ := h k e he
    · simp [hl, hdown]
    · simp [hp, hdown]

def desktop (linux : Bool) : Platform where
  linux := linux
  keycodeToRdevKey code := if code = 50 then .shiftLeft else .other code
  zero := rfl

def shiftDown : Event := ⟨.map, { down := true, union := .chr 50 }, true⟩

/-- A peer presses the shift key and its connection is dropped. On Linux and elsewhere the
key is held and nothing is released. -/
theorem shift_stays_held : let onLinux := Run.run (Keyboard.keyEvent (desktop true)) {} [shiftDown]
    let elsewhere := Run.run (Keyboard.keyEvent (desktop false)) {} [shiftDown]
    (onLinux.held (desktop true) .shiftLeft = true ∧ onLinux.releasePressedModifiers.1 = ∅) ∧
      elsewhere.held (desktop false) .shiftLeft = true ∧
      elsewhere.releasePressedModifiers.1 = ∅ := by
  decide

theorem not_both_click : (Run.run (Keyboard.keyEvent (desktop false)) {}
    [⟨.map, { press := true, union := .chr 50 }, true⟩]).held (desktop false) .shiftLeft = false :=
  not_both _ (by decide)

end CodeDesk.Conn.Keys
