/-
# Frames on a byte stream

A stream carries frames, each a header with its length and then its content,
and may carry raw bytes after the last frame. A reader has a buffer that fills
as bytes arrive, any number at a time, and remembers a header it has read
(`Reader`, `Reader.decode`).

`Holds H r wire frames tail` says what is still to come: the reader's buffer
and the bytes on the wire are the frames `frames`, less a header already read,
and then the bytes `tail`. It survives arrival (`Holds.arrive`), a frame or raw
bytes put at the end (`Holds.putFrame`, `Holds.putRaw`), and a read, which
gives the first frame or nothing yet (`Holds.decode`), and the frame once all
has arrived (`Holds.decode_arrived`). So the chunks in which the bytes arrive do
not matter.
-/
import Mathlib.Data.List.Basic

namespace Framing

variable {β : Type*}

/-- How the length of a frame is written in front of it. A length may be too
large to write. A header that has not arrived in full is not read. -/
structure Header (β : Type*) where
  put : ℕ → Option (List β)
  get : List β → Option (ℕ × List β)
  get_put : ∀ {n : ℕ} {h : List β}, put n = some h → ∀ rest, get (h ++ rest) = some (n, rest)
  get_short : ∀ {n : ℕ} {h : List β}, put n = some h → ∀ l, l <+: h → l ≠ h → get l = none
  get_nil : get [] = none

def Header.frame (H : Header β) (f : List β) : Option (List β) := (H.put f.length).map (· ++ f)

inductive State where
  | head
  | data (n : ℕ)
  deriving DecidableEq, Repr

structure Reader (β : Type*) where
  buf : List β := []
  state : State := .head

namespace Reader

def takeData (n : ℕ) (buf : List β) : Reader β × Option (List β) :=
  if buf.length < n then (⟨buf, .data n⟩, none) else (⟨buf.drop n, .head⟩, some (buf.take n))

def decode (H : Header β) (r : Reader β) : Reader β × Option (List β) :=
  match r.state with
  | .data n => takeData n r.buf
  | .head =>
    match H.get r.buf with
    | some (n, rest) => takeData n rest
    | none => (r, none)

def arrive (bytes : List β) (r : Reader β) : Reader β := { r with buf := r.buf ++ bytes }

end Reader

inductive Encoded (H : Header β) : List (List β) → List β → Prop where
  | nil : Encoded H [] []
  | cons {f w fs ws} : H.frame f = some w → Encoded H fs ws → Encoded H (f :: fs) (w ++ ws)

theorem Encoded.concat {H : Header β} {fs : List (List β)} {ws f w : List β}
    (h : Encoded H fs ws) (hf : H.frame f = some w) : Encoded H (fs ++ [f]) (ws ++ w) := by
  induction h with
  | nil => simpa using Encoded.cons hf .nil
  | cons hg _ ih =>
    rw [List.append_assoc]
    exact .cons hg ih

/-- The frames and raw bytes that a reader and the wire behind it still hold. -/
inductive Holds (H : Header β) : Reader β → List β → List (List β) → List β → Prop where
  | head {buf wire frames ws tail} : Encoded H frames ws → buf ++ wire = ws ++ tail →
    Holds H ⟨buf, .head⟩ wire frames tail
  | data {buf wire f fs ws tail} : Encoded H fs ws → buf ++ wire = f ++ (ws ++ tail) →
    Holds H ⟨buf, .data f.length⟩ wire (f :: fs) tail

namespace Holds

variable {H : Header β} {r : Reader β} {wire tail f : List β} {frames fs : List (List β)}

theorem init : Holds H {} [] [] [] := .head .nil rfl

theorem arrive (h : Holds H r wire frames tail) (n : ℕ) :
    Holds H (r.arrive (wire.take n)) (wire.drop n) frames tail := by
  cases h with
  | head he hb => exact .head he (by rw [List.append_assoc, List.take_append_drop, hb])
  | data he hb => exact .data he (by rw [List.append_assoc, List.take_append_drop, hb])

theorem putRaw (h : Holds H r wire frames tail) (bytes : List β) :
    Holds H r (wire ++ bytes) frames (tail ++ bytes) := by
  cases h with
  | head he hb => exact .head he (by rw [← List.append_assoc, hb, List.append_assoc])
  | data he hb =>
    refine .data he ?_
    rw [← List.append_assoc, hb]
    simp

theorem putFrame (h : Holds H r wire frames []) {w : List β} (hf : H.frame f = some w) :
    Holds H r (wire ++ w) (frames ++ [f]) [] := by
  cases h with
  | head he hb =>
    refine .head (he.concat hf) ?_
    rw [← List.append_assoc, hb, List.append_nil, List.append_nil]
  | data he hb =>
    refine .data (he.concat hf) ?_
    rw [← List.append_assoc, hb, List.append_nil, List.append_nil, List.append_assoc]

theorem raw (h : Holds H r wire [] tail) : r.state = .head ∧ r.buf ++ wire = tail := by
  cases h with
  | head he hb =>
    cases he
    exact ⟨rfl, hb⟩

theorem takeData {buf ws : List β} (he : Encoded H fs ws) (hb : buf ++ wire = f ++ (ws ++ tail)) :
    ((Reader.takeData f.length buf).2 = none ∧
        Holds H (Reader.takeData f.length buf).1 wire (f :: fs) tail) ∨
      ((Reader.takeData f.length buf).2 = some f ∧
        Holds H (Reader.takeData f.length buf).1 wire fs tail) := by
  unfold Reader.takeData
  split_ifs with hl
  · exact .inl ⟨rfl, .data he hb⟩
  obtain ⟨rest, rfl⟩ : f <+: buf :=
    List.prefix_of_prefix_length_le ⟨_, hb.symm⟩ (List.prefix_append buf wire) (by omega)
  refine .inr ⟨by simp, ?_⟩
  rw [List.append_assoc, List.append_cancel_left_eq] at hb
  simpa using Holds.head he hb

theorem decode (h : Holds H r wire (f :: fs) tail) :
    ((r.decode H).2 = none ∧ Holds H (r.decode H).1 wire (f :: fs) tail) ∨
      ((r.decode H).2 = some f ∧ Holds H (r.decode H).1 wire fs tail) := by
  cases h with
  | data he hb => exact takeData he hb
  | @head buf _ _ _ _ he hb =>
    cases he with
    | @cons _ w _ ws hf he =>
      obtain ⟨h, hput, rfl⟩ := Option.map_eq_some_iff.1 hf
      rw [List.append_assoc, List.append_assoc] at hb
      unfold Reader.decode
      by_cases hl : buf.length < h.length
      · -- The header itself is not there yet.
        have hp : buf <+: h :=
          List.prefix_of_prefix_length_le ⟨_, hb⟩ (List.prefix_append h _) (by omega)
        have hne : buf ≠ h := fun he => absurd hl (by rw [he]; omega)
        rw [H.get_short hput buf hp hne]
        refine .inl ⟨rfl, .head (.cons hf he) ?_⟩
        simp [hb]
      · obtain ⟨rest, rfl⟩ : h <+: buf :=
          List.prefix_of_prefix_length_le ⟨_, hb.symm⟩ (List.prefix_append buf wire) (by omega)
        rw [H.get_put hput rest]
        rw [List.append_assoc, List.append_cancel_left_eq] at hb
        exact takeData he hb

theorem decode_arrived (h : Holds H r [] (f :: fs) tail) :
    (r.decode H).2 = some f ∧ Holds H (r.decode H).1 [] fs tail := by
  refine h.decode.resolve_left fun hn => ?_
  have hdata : ∀ {buf ws : List β}, buf ++ [] = f ++ (ws ++ tail) →
      (Reader.takeData f.length buf).2 ≠ none := by
    intro buf ws hb
    have hl : ¬ buf.length < f.length := by
      have := congrArg List.length hb
      simp only [List.length_append, List.length_nil] at this
      omega
    rw [Reader.takeData, if_neg hl]
    nofun
  cases h with
  | data he hb => exact hdata hb hn.1
  | head he hb =>
    cases he with
    | cons hf =>
      obtain ⟨h, hput, rfl⟩ := Option.map_eq_some_iff.1 hf
      rw [List.append_nil, List.append_assoc, List.append_assoc] at hb
      have := hn.1
      simp only [Reader.decode, hb, H.get_put hput] at this
      exact hdata (List.append_nil _) this

theorem decode_nil (h : Holds H r wire [] []) : r.decode H = (r, none) := by
  obtain ⟨hs, hb⟩ := h.raw
  have hbuf : r.buf = [] := (List.append_eq_nil_iff.1 hb).1
  rw [Reader.decode, hs, hbuf, H.get_nil]

end Holds
end Framing
