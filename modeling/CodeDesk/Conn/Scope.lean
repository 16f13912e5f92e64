/-
# The fields of an option in scope

A session that is not a remote one may set few options: a camera session five fields, a
terminal session one, a file transfer and a port forward none. The source lists the fields
by hand, four times. Here the fields are a type, an option message is what it holds in each
field (`OptionMessage.get`), and the lists are compared with one table, `inScope`.

What the filters pass on depends on the fields in scope only (`scopedLoginOption_congr`) and
sets no other field, and passing it again changes nothing (`scopedLoginOption_idem`). A
violation is more than a field out of scope: a terminal session reports a number that is no
`BoolOption` in its own field, and after the login a message is refused as a whole
(`authorizedMessageScopeViolation_option`).
-/
import CodeDesk.Conn.Step

namespace CodeDesk.Conn

inductive Field where
  | imageQuality
  | lockAfterSessionEnd
  | showRemoteCursor
  | privacyMode
  | blockInput
  | customImageQuality
  | disableAudio
  | disableClipboard
  | enableFileTransfer
  | supportedDecoding
  | customFps
  | disableKeyboard
  | followRemoteCursor
  | followRemoteWindow
  | disableCamera
  | terminalPersistent
  | showMyCursor
  deriving DecidableEq, Repr

inductive FieldValue where
  | quality (q : ImageQuality)
  | bool (b : BoolOption)
  | number (n : ℤ)
  | decoding (d : Option Bytes)
  deriving DecidableEq, Repr

namespace OptionMessage

def get (o : OptionMessage) : Field → FieldValue
  | .imageQuality => .quality o.imageQuality
  | .lockAfterSessionEnd => .bool o.lockAfterSessionEnd
  | .showRemoteCursor => .bool o.showRemoteCursor
  | .privacyMode => .bool o.privacyMode
  | .blockInput => .bool o.blockInput
  | .customImageQuality => .number o.customImageQuality
  | .disableAudio => .bool o.disableAudio
  | .disableClipboard => .bool o.disableClipboard
  | .enableFileTransfer => .bool o.enableFileTransfer
  | .supportedDecoding => .decoding o.supportedDecoding
  | .customFps => .number o.customFps
  | .disableKeyboard => .bool o.disableKeyboard
  | .followRemoteCursor => .bool o.followRemoteCursor
  | .followRemoteWindow => .bool o.followRemoteWindow
  | .disableCamera => .bool o.disableCamera
  | .terminalPersistent => .bool o.terminalPersistent
  | .showMyCursor => .bool o.showMyCursor

def Sets (o : OptionMessage) (f : Field) : Prop := o.get f ≠ ({} : OptionMessage).get f

instance (o : OptionMessage) : DecidablePred o.Sets := fun _ => inferInstanceAs (Decidable (_ ≠ _))

end OptionMessage

def inScope : AuthConnType → Field → Bool
  | .remote, _ => true
  | .viewCamera, f =>
    f ∈ [.imageQuality, .customImageQuality, .customFps, .supportedDecoding, .disableAudio]
  | .terminal, f => f = .terminalPersistent
  | .fileTransfer, _ => false
  | .portForward, _ => false

def OutOfScope (t : AuthConnType) (o : OptionMessage) : Prop := ∃ f, inScope t f = false ∧ o.Sets f

/-- The violation that `scoped_login_option` returns next to the option. -/
def loginOptionViolation (t : AuthConnType) (o : OptionMessage) : Option String :=
  match t with
  | .remote => none
  | .viewCamera => if (scopedViewCameraOption o).2 then some "login.option" else none
  | .terminal => if (scopedTerminalLoginOption o).2 then some "login.option" else none
  | .fileTransfer => if optionHasAnyField o then some "login.option" else none
  | .portForward => if optionHasAnyField o then some "login.option" else none

/-! ## The lists of the source -/

theorem Field.exists_iff {p : Field → Prop} :
    (∃ f, p f) ↔ p .imageQuality ∨ p .customImageQuality ∨ p .customFps ∨ p .supportedDecoding ∨
      p .lockAfterSessionEnd ∨ p .showRemoteCursor ∨ p .privacyMode ∨ p .blockInput ∨
      p .disableAudio ∨ p .disableClipboard ∨ p .enableFileTransfer ∨ p .disableKeyboard ∨
      p .followRemoteCursor ∨ p .followRemoteWindow ∨ p .disableCamera ∨ p .terminalPersistent ∨
      p .showMyCursor := by
  constructor
  · rintro ⟨f, hf⟩
    cases f <;> simp [hf]
  · rintro (h | h | h | h | h | h | h | h | h | h | h | h | h | h | h | h | h) <;> exact ⟨_, h⟩

variable (o : OptionMessage)

theorem optionHasAnyField_iff : optionHasAnyField o = true ↔ ∃ f, o.Sets f := by
  rw [Field.exists_iff]
  simp [optionHasAnyField, optionHasNonTerminalLoginField, OptionMessage.Sets, OptionMessage.get,
    or_assoc, Option.isSome_iff_ne_none,
    or_comm (a := ¬o.terminalPersistent = .notSet) (b := ¬o.showMyCursor = .notSet)]

theorem optionHasNonTerminalLoginField_iff :
    optionHasNonTerminalLoginField o = true ↔ OutOfScope .terminal o := by
  rw [OutOfScope, Field.exists_iff]
  simp [optionHasNonTerminalLoginField, OptionMessage.Sets, OptionMessage.get, inScope,
    or_assoc, Option.isSome_iff_ne_none]

theorem optionHasNonViewCameraLoginField_iff :
    optionHasNonViewCameraLoginField o = true ↔ OutOfScope .viewCamera o := by
  rw [OutOfScope, Field.exists_iff]
  simp [optionHasNonViewCameraLoginField, OptionMessage.Sets, OptionMessage.get, inScope, or_assoc]

theorem isSupportedDecodingOnlyOption_iff : isSupportedDecodingOnlyOption o = true ↔
      o.Sets .supportedDecoding ∧ ¬∃ f, f ≠ .supportedDecoding ∧ o.Sets f := by
  rw [Field.exists_iff]
  simp [isSupportedDecodingOnlyOption, OptionMessage.Sets, OptionMessage.get, and_assoc,
    Option.isSome_iff_ne_none]

/-! ## What is passed on -/

theorem viewCameraFields_idem : viewCameraFields (viewCameraFields o) = viewCameraFields o := by
  simp only [viewCameraFields, OptionMessage.mk.injEq, true_and, and_true]
  refine ⟨?_, ?_, ?_, ?_⟩
  · cases o.imageQuality <;> rfl
  · split_ifs <;> rfl
  · cases o.disableAudio <;> rfl
  · split_ifs <;> rfl

theorem terminalFields_idem : terminalFields (terminalFields o) = terminalFields o := by
  cases h : o.terminalPersistent <;> simp [terminalFields, h]

/-- The field of a terminal session holds a number that is no `BoolOption`. -/
def UnknownPersistent (t : AuthConnType) (o : OptionMessage) : Prop :=
  t = .terminal ∧ ∃ n, o.terminalPersistent = .unknown n

theorem scopedTerminalLoginOption_snd_iff : (scopedTerminalLoginOption o).2 = true ↔
      OutOfScope .terminal o ∨ UnknownPersistent .terminal o := by
  rw [← optionHasNonTerminalLoginField_iff]
  cases h : o.terminalPersistent <;> simp [scopedTerminalLoginOption, UnknownPersistent, h]

theorem not_unknownPersistent_terminalFields : ¬UnknownPersistent .terminal (terminalFields o) := by
  cases h : o.terminalPersistent <;> simp [UnknownPersistent, terminalFields, h]

variable {o} {t : AuthConnType} {s : OptionMessage}

theorem fields_of_scoped {fields : OptionMessage → OptionMessage}
    (hidem : fields (fields o) = fields o)
    (h : (if optionHasAnyField (fields o) then some (fields o) else none) = some s) :
    fields s = s ∧ optionHasAnyField s = true := by
  split_ifs at h
  next hany =>
  cases h
  exact ⟨hidem, hany⟩

/-- The option that reaches `update_options` when an authorized session gets the message. -/
def optionAfterLogin (windows : Bool) (t : AuthConnType) (o : OptionMessage) :
    Option OptionMessage :=
  if authorizedMessageScopeViolation windows t (.option o) then none
  else scopedUpdateOptionMessage t o

section

variable (ht : t ≠ .remote)

include ht

theorem scopedUpdateOptionMessage_eq (o : OptionMessage) :
    scopedUpdateOptionMessage t o = scopedLoginOption t o := by
  cases t <;> first | rfl | exact absurd rfl ht

theorem scopedLoginOption_congr {o' : OptionMessage}
    (h : ∀ f, inScope t f = true → o.get f = o'.get f) :
    scopedLoginOption t o = scopedLoginOption t o' := by
  cases t with
  | remote => exact absurd rfl ht
  | fileTransfer | portForward => rfl
  | viewCamera =>
    have hq := FieldValue.quality.inj (h .imageQuality rfl)
    have hc := FieldValue.number.inj (h .customImageQuality rfl)
    have hf := FieldValue.number.inj (h .customFps rfl)
    have hd := FieldValue.decoding.inj (h .supportedDecoding rfl)
    have ha := FieldValue.bool.inj (h .disableAudio rfl)
    have hfields : viewCameraFields o = viewCameraFields o' := by
      rw [viewCameraFields, viewCameraFields, hq, hc, hf, hd, ha]
    rw [scopedLoginOption, scopedLoginOption, scopedViewCameraOption, scopedViewCameraOption, hfields]
  | terminal =>
    have hp := FieldValue.bool.inj (h .terminalPersistent rfl)
    have hfields : terminalFields o = terminalFields o' := by
      rw [terminalFields, terminalFields, hp]
    simp only [scopedLoginOption, scopedTerminalLoginOption, hfields]

theorem loginOptionViolation_iff (o : OptionMessage) :
    loginOptionViolation t o = some "login.option" ↔ OutOfScope t o ∨ UnknownPersistent t o := by
  cases t with
  | remote => exact absurd rfl ht
  | viewCamera =>
    rw [← optionHasNonViewCameraLoginField_iff]
    cases h : optionHasNonViewCameraLoginField o <;>
      simp [loginOptionViolation, scopedViewCameraOption, UnknownPersistent, h]
  | terminal =>
    rw [← scopedTerminalLoginOption_snd_iff]
    simp [loginOptionViolation]
  | fileTransfer | portForward =>
    have hany := optionHasAnyField_iff o
    simp [loginOptionViolation, OutOfScope, UnknownPersistent, inScope, hany]

theorem loginOptionViolation_eq_none_iff (o : OptionMessage) :
    loginOptionViolation t o = none ↔ ¬(OutOfScope t o ∨ UnknownPersistent t o) := by
  rw [← loginOptionViolation_iff ht]
  cases t <;> simp [loginOptionViolation] at ht ⊢

theorem scopedLoginOption_idem (h : scopedLoginOption t o = some s) :
    ¬(OutOfScope t s ∨ UnknownPersistent t s) ∧ scopedLoginOption t s = some s := by
  cases t with
  | remote => exact absurd rfl ht
  | fileTransfer | portForward => cases h
  | viewCamera =>
    obtain ⟨hs, hany⟩ := fields_of_scoped (viewCameraFields_idem o) h
    have hscope : ¬OutOfScope .viewCamera s := by
      rw [← hs, ← optionHasNonViewCameraLoginField_iff]
      nofun
    refine ⟨by simp [hscope, UnknownPersistent], ?_⟩
    simp [scopedLoginOption, scopedViewCameraOption, hs, hany]
  | terminal =>
    obtain ⟨hs, hany⟩ := fields_of_scoped (terminalFields_idem o) h
    have hscope : ¬OutOfScope .terminal s := by
      rw [← hs, ← optionHasNonTerminalLoginField_iff]
      nofun
    have hknown : ¬UnknownPersistent .terminal s := hs ▸ not_unknownPersistent_terminalFields s
    refine ⟨by simp [hscope, hknown], ?_⟩
    simp [scopedLoginOption, scopedTerminalLoginOption, hs, hany]

/-! ## Options after the login -/

/-- A session refuses an option with more than the decodings, unless it may set options and
the message keeps to them. -/
theorem authorizedMessageScopeViolation_option (windows : Bool) (o : OptionMessage) :
    authorizedMessageScopeViolation windows t (.option o) = true ↔ match t with
      | .viewCamera => OutOfScope .viewCamera o
      | .terminal => (OutOfScope .terminal o ∨ UnknownPersistent .terminal o) ∧
          isSupportedDecodingOnlyOption o = false
      | _ => isSupportedDecodingOnlyOption o = false := by
  cases t with
  | remote => exact absurd rfl ht
  | viewCamera =>
    rw [← optionHasNonViewCameraLoginField_iff]
    simp [authorizedMessageScopeViolation, isConnectionHousekeepingMessage,
      isTextClipboardNoopCompatMessage, isViewCameraScopedMessage, scopedViewCameraOption]
  | terminal =>
    rw [← scopedTerminalLoginOption_snd_iff]
    simp [authorizedMessageScopeViolation, isConnectionHousekeepingMessage, and_comm,
      isRenderBroadcastNoopCompatMessage, isTextClipboardNoopCompatMessage, isTerminalScopedMessage]
  | fileTransfer =>
    simp [authorizedMessageScopeViolation, isConnectionHousekeepingMessage,
      isRenderBroadcastNoopCompatMessage, isTextClipboardNoopCompatMessage,
      isFileTransferScopedMessage]
  | portForward =>
    cases h : isSupportedDecodingOnlyOption o <;>
      simp [authorizedMessageScopeViolation, isConnectionHousekeepingMessage,
        isRenderBroadcastNoopCompatMessage, h]

theorem optionAfterLogin_eq_some_iff (windows : Bool) (o s : OptionMessage) :
    optionAfterLogin windows t o = some s ↔
      authorizedMessageScopeViolation windows t (.option o) = false ∧
        scopedLoginOption t o = some s := by
  rw [optionAfterLogin, scopedUpdateOptionMessage_eq ht]
  cases authorizedMessageScopeViolation windows t (.option o) <;> simp

theorem optionAfterLogin_idem {windows : Bool} (h : optionAfterLogin windows t o = some s) :
    optionAfterLogin windows t s = some s := by
  obtain ⟨-, hs⟩ := (optionAfterLogin_eq_some_iff ht windows o s).1 h
  obtain ⟨hscope, hidem⟩ := scopedLoginOption_idem ht hs
  refine (optionAfterLogin_eq_some_iff ht windows s s).2 ⟨?_, hidem⟩
  rw [← Bool.not_eq_true, authorizedMessageScopeViolation_option ht]
  cases t with
  | viewCamera => exact fun hout => hscope (.inl hout)
  | terminal => exact fun hout => hscope hout.1
  | remote => exact absurd rfl ht
  | fileTransfer | portForward => cases hs

end

/-- The options of a session that is not a remote one. At the login they are filtered, and
a violation is a field out of scope or an unknown number in the terminal's field; after it
they are refused or passed on like at the login. -/
theorem scoped_options {t : AuthConnType} (ht : t ≠ .remote) :
    (∀ o o', (∀ f, inScope t f = true → o.get f = o'.get f) →
      scopedLoginOption t o = scopedLoginOption t o') ∧
    (∀ o s, scopedLoginOption t o = some s →
      (∀ f, s.Sets f → inScope t f = true) ∧ scopedLoginOption t s = some s ∧
        loginOptionViolation t s = none) ∧
    (∀ o, (loginOptionViolation t o).isSome = true ↔ (∃ f, inScope t f = false ∧ o.Sets f) ∨
        t = .terminal ∧ ∃ n, o.terminalPersistent = .unknown n) ∧
    ∀ windows o, (∀ s, optionAfterLogin windows t o = some s ↔
        authorizedMessageScopeViolation windows t (.option o) = false ∧
          scopedLoginOption t o = some s) ∧
      (∀ s, optionAfterLogin windows t o = some s → optionAfterLogin windows t s = some s) ∧
      (authorizedMessageScopeViolation windows t (.option o) = true ↔ match t with
        | .viewCamera => ∃ f, inScope .viewCamera f = false ∧ o.Sets f
        | .terminal =>
          ((∃ f, inScope .terminal f = false ∧ o.Sets f) ∨ ∃ n, o.terminalPersistent = .unknown n) ∧
            ¬(o.Sets .supportedDecoding ∧ ¬∃ f, f ≠ .supportedDecoding ∧ o.Sets f)
        | _ => ¬(o.Sets .supportedDecoding ∧ ¬∃ f, f ≠ .supportedDecoding ∧ o.Sets f)) := by
  refine ⟨fun o o' => scopedLoginOption_congr ht, fun o s hs => ?_, fun o => ?_, fun windows o =>
    ⟨optionAfterLogin_eq_some_iff ht windows o, fun s => optionAfterLogin_idem ht, ?_⟩⟩
  · obtain ⟨hscope, hidem⟩ := scopedLoginOption_idem ht hs
    refine ⟨fun f hf => ?_, hidem, (loginOptionViolation_eq_none_iff ht s).2 hscope⟩
    by_contra hout
    exact hscope (.inl ⟨f, by simpa using hout, hf⟩)
  · rw [Option.isSome_iff_ne_none, ne_eq, loginOptionViolation_eq_none_iff ht, not_not]
    rfl
  · rw [authorizedMessageScopeViolation_option ht, ← isSupportedDecodingOnlyOption_iff,
      Bool.not_eq_true]
    cases t with
    | terminal => simp [OutOfScope, UnknownPersistent]
    | viewCamera | fileTransfer | portForward => rfl
    | remote => exact absurd rfl ht

theorem scoped_options_camera :
    scopedLoginOption .viewCamera { customFps := 30, blockInput := .yes } =
      scopedLoginOption .viewCamera { customFps := 30, privacyMode := .unknown 7 } :=
  (scoped_options (t := .viewCamera) (by decide)).1 _ _ fun f hf => by
    cases f <;> first | rfl | cases hf

/-- A terminal session reports a violation for a message that sets its own field only, if the
number is unknown. A camera session takes an option after the login or not by a field that is
out of its scope. -/
theorem violation_within_scope : let stray : OptionMessage := { terminalPersistent := .unknown 7 }
    let o : OptionMessage := { customFps := 30 }
    let o' : OptionMessage := { customFps := 30, blockInput := .yes }
    ((∀ f, stray.Sets f → inScope .terminal f = true) ∧
        loginOptionViolation .terminal stray = some "login.option") ∧
      (∀ f, inScope .viewCamera f = true → o.get f = o'.get f) ∧
        optionAfterLogin false .viewCamera o = some o ∧
        optionAfterLogin false .viewCamera o' = none := by
  refine ⟨⟨?_, rfl⟩, ?_, rfl, rfl⟩
  · intro f hf
    cases f <;> first | rfl | exact absurd rfl hf
  · intro f hf
    cases f <;> first | rfl | cases hf

end CodeDesk.Conn
