/-
# Clipboard items in a message

`create_multi_clipboards` and `from_multi_clipboards` of `src/clipboard.rs`: the
items of a clipboard as protobuf messages and back. What is worth it is
compressed; `zstd` is a parameter. The `bytes` of an `arboard` image are those it
was made of.

`special_to_proto` puts the name of the format in the place of data that is not
worth compressing. So a list comes back as it went out exactly when each special
item was compressed or has its own name for data, and the sides of each bitmap
fit an `i32` (`multi_round_trip_iff`).
-/
import CodeDesk.Clipboard.Contents

namespace CodeDesk.Clipboard

open Fs (asUsize)

/-- `compress` and `decompress` of `compress.rs`. What came out shorter can be
decompressed. -/
structure Zstd where
  compress : ByteArray → ByteArray
  decompress : ByteArray → ByteArray
  decompress_compress : ∀ d, (compress d).size < d.size → decompress (compress d) = d

inductive ClipboardFormat where
  | text
  | rtf
  | html
  | imageRgba
  | imagePng
  | imageSvg
  | special
  deriving DecidableEq, Repr

namespace ClipboardFormat

def value : ClipboardFormat → ℤ
  | text => 0
  | rtf => 1
  | html => 2
  | imageRgba => 21
  | imagePng => 22
  | imageSvg => 23
  | special => 31

def enumValue (n : ℤ) : Option ClipboardFormat :=
  [text, rtf, html, imageRgba, imagePng, imageSvg, special].find? (·.value = n)

@[simp] theorem enumValue_value (f : ClipboardFormat) : enumValue f.value = some f := by
  cases f <;> decide

end ClipboardFormat

structure ClipboardMsg where
  compress : Bool
  content : ByteArray
  width : ℤ := 0
  height : ℤ := 0
  format : ℤ
  specialName : String := ""

inductive ImageData where
  | rgba (width height : ℕ) (bytes : ByteArray)
  | png (bytes : ByteArray)
  | svg (s : String)

def ImageData.bytes : ImageData → ByteArray
  | rgba _ _ bytes => bytes
  | png bytes => bytes
  | svg s => s.toUTF8

/-- `arboard::ClipboardData`; the kinds that are not sent are one. -/
inductive ClipboardData where
  | text (s : String)
  | rtf (s : String)
  | html (s : String)
  | image (a : ImageData)
  | special (name : String) (data : ByteArray)
  | other

section

variable (Z : Zstd)

/-! ### To messages -/

def plainToProto (s : String) (format : ClipboardFormat) : ClipboardMsg :=
  let compressed := Z.compress s.toUTF8
  let compress := compressed.size < s.toUTF8.size
  { compress := compress
    content := if compress then compressed else s.toUTF8
    format := format.value }

def imageToProto (a : ImageData) : ClipboardMsg :=
  let compressed := Z.compress a.bytes
  let compress := compressed.size < a.bytes.size
  let content := if compress then compressed else a.bytes
  match a with
  | .rgba width height _ =>
    { compress := compress
      content := content
      width := asI32 width
      height := asI32 height
      format := ClipboardFormat.imageRgba.value }
  | .png png => { compress := false, content := png, format := ClipboardFormat.imagePng.value }
  | .svg _ =>
    { compress := compress, content := content, format := ClipboardFormat.imageSvg.value }

/-- Data that does not get shorter is replaced by the name. -/
def specialToProto (d : ByteArray) (s : String) : ClipboardMsg :=
  let compressed := Z.compress d
  let compress := compressed.size < d.size
  { compress := compress
    content := if compress then compressed else s.toUTF8
    format := ClipboardFormat.special.value
    specialName := s }

def clipboardDataToProto : ClipboardData → Option ClipboardMsg
  | .text s => some (plainToProto Z s .text)
  | .rtf s => some (plainToProto Z s .rtf)
  | .html s => some (plainToProto Z s .html)
  | .image a => some (imageToProto Z a)
  | .special s d => some (specialToProto Z d s)
  | .other => none

def createMultiClipboards (items : List ClipboardData) : List ClipboardMsg :=
  items.filterMap (clipboardDataToProto Z)

/-! ### From messages -/

def ClipboardMsg.data (m : ClipboardMsg) : ByteArray :=
  if m.compress then Z.decompress m.content else m.content

def fromClipboard (m : ClipboardMsg) : Option ClipboardData :=
  match ClipboardFormat.enumValue m.format with
  | some .text => (String.fromUTF8? (m.data Z)).map .text
  | some .rtf => (String.fromUTF8? (m.data Z)).map .rtf
  | some .html => (String.fromUTF8? (m.data Z)).map .html
  | some .imageRgba => some (.image (.rgba (asUsize m.width) (asUsize m.height) (m.data Z)))
  | some .imagePng => some (.image (.png (m.data Z)))
  | some .imageSvg => some (.image (.svg ((String.fromUTF8? (m.data Z)).getD "")))
  | some .special => some (.special m.specialName (m.data Z))
  | none => none

def fromMultiClipboards (msgs : List ClipboardMsg) : List ClipboardData :=
  msgs.filterMap (fromClipboard Z)

/-! ### There and back -/

theorem fromUTF8?_toUTF8 (s : String) : String.fromUTF8? s.toUTF8 = some s := dif_pos s.isValidUTF8

theorem data_of_compress {m : ClipboardMsg} {d : ByteArray}
    (hc : m.compress = decide ((Z.compress d).size < d.size))
    (hm : m.content = if (Z.compress d).size < d.size then Z.compress d else d) : m.data Z = d := by
  rw [ClipboardMsg.data, hc, hm]
  by_cases h : (Z.compress d).size < d.size
  · rw [if_pos (by simpa using h), if_pos h, Z.decompress_compress d h]
  · rw [if_neg (by simpa using h), if_neg h]

def ClipboardData.returned : ClipboardData → Option ClipboardData
  | .image (.rgba width height bytes) =>
    some (.image (.rgba (asUsize (asI32 width)) (asUsize (asI32 height)) bytes))
  | .special s d => some (.special s (if (Z.compress d).size < d.size then d else s.toUTF8))
  | .other => none
  | item => some item

theorem fromClipboard_plain (s : String) (format : ClipboardFormat) :
    (plainToProto Z s format).data Z = s.toUTF8 := data_of_compress Z rfl rfl

theorem fromClipboard_special (s : String) (d : ByteArray) :
    (specialToProto Z d s).data Z = if (Z.compress d).size < d.size then d else s.toUTF8 := by
  by_cases h : (Z.compress d).size < d.size
  · simp [ClipboardMsg.data, specialToProto, h, Z.decompress_compress]
  · simp [ClipboardMsg.data, specialToProto, h]

theorem fromClipboard_image (a : ImageData) : (imageToProto Z a).data Z = a.bytes := by
  cases a with
  | rgba | svg => exact data_of_compress Z rfl rfl
  | png => rfl

theorem bind_fromClipboard (item : ClipboardData) :
    (clipboardDataToProto Z item).bind (fromClipboard Z) = item.returned Z := by
  have hp (s : String) (f : ClipboardFormat) :
      ClipboardFormat.enumValue (plainToProto Z s f).format = some f :=
    ClipboardFormat.enumValue_value f
  cases item with
  | text s | rtf s | html s =>
    simp only [clipboardDataToProto, Option.bind_some, fromClipboard, hp, fromClipboard_plain,
      fromUTF8?_toUTF8, Option.map_some, ClipboardData.returned]
  | special s d =>
    have hf : ClipboardFormat.enumValue (specialToProto Z d s).format = some .special :=
      ClipboardFormat.enumValue_value .special
    simp only [clipboardDataToProto, Option.bind_some, fromClipboard, hf, fromClipboard_special,
      ClipboardData.returned]
    rfl
  | image a =>
    have hd := fromClipboard_image Z a
    cases a with
    | rgba width height bytes =>
      have hf : ClipboardFormat.enumValue (imageToProto Z (.rgba width height bytes)).format =
          some .imageRgba := ClipboardFormat.enumValue_value .imageRgba
      simp only [clipboardDataToProto, Option.bind_some, fromClipboard, hf, hd,
        ClipboardData.returned]
      rfl
    | png bytes => rfl
    | svg s =>
      have hf : ClipboardFormat.enumValue (imageToProto Z (.svg s)).format =
          some .imageSvg := ClipboardFormat.enumValue_value .imageSvg
      simp only [clipboardDataToProto, Option.bind_some, fromClipboard, hf, hd,
        ClipboardData.returned, ImageData.bytes, fromUTF8?_toUTF8, Option.getD_some]
  | other => rfl

theorem fromMultiClipboards_create (items : List ClipboardData) :
    fromMultiClipboards Z (createMultiClipboards Z items) =
      items.filterMap (ClipboardData.returned Z) := by
  rw [fromMultiClipboards, createMultiClipboards, List.filterMap_filterMap]
  exact congrArg (items.filterMap ·) (funext (bind_fromClipboard Z))

def FitsI32 (n : ℕ) : Prop := n < 2 ^ 31 ∨ 2 ^ 64 - 2 ^ 31 ≤ n ∧ n < 2 ^ 64

instance (n : ℕ) : Decidable (FitsI32 n) := inferInstanceAs (Decidable (_ ∨ _ ∧ _))

theorem asUsize_asI32_iff {n : ℕ} : asUsize (asI32 n) = n ↔ FitsI32 n := by
  unfold asUsize asI32 FitsI32
  omega

/-- The items whose data, name and sides all get into the message. -/
def ClipboardData.Carried : ClipboardData → Prop
  | .image (.rgba width height _) => FitsI32 width ∧ FitsI32 height
  | .special s d => (Z.compress d).size < d.size ∨ d = s.toUTF8
  | .other => False
  | _ => True

theorem returned_eq_iff (item : ClipboardData) : item.returned Z = some item ↔ item.Carried Z := by
  cases item with
  | text s | rtf s | html s | other => simp [ClipboardData.returned, ClipboardData.Carried]
  | image a =>
    cases a <;> simp [ClipboardData.returned, ClipboardData.Carried, asUsize_asI32_iff]
  | special s d =>
    by_cases h : (Z.compress d).size < d.size
    · simp [ClipboardData.returned, ClipboardData.Carried, h]
    · simp [ClipboardData.returned, ClipboardData.Carried, h, eq_comm]

theorem multi_round_trip_iff (items : List ClipboardData) :
    fromMultiClipboards Z (createMultiClipboards Z items) = items ↔
      ∀ item ∈ items, item.Carried Z := by
  have hall := List.filterMap_eq_map_iff_forall_eq_some
    (f := ClipboardData.returned Z) (g := id) (l := items)
  rw [List.map_id] at hall
  rw [fromMultiClipboards_create, hall]
  exact forall₂_congr fun item _ => returned_eq_iff Z item

end

/-- A compressor that has a short form for one block and stores all else. -/
def Zstd.oneBlock : Zstd where
  compress := fun d =>
    if d.data = Array.replicate 64 0 then ⟨#[1]⟩ else ⟨#[0] ++ d.data⟩
  decompress := fun e => if e.data = #[1] then ⟨Array.replicate 64 0⟩ else ⟨e.data.extract 1⟩
  decompress_compress := by
    intro d hd
    by_cases h : d.data = Array.replicate 64 0
    · rw [if_pos h, if_pos rfl, ← h]
    · rw [if_neg h] at hd
      have hsize : (#[0] ++ d.data).size = d.data.size + 1 := by
        rw [Array.size_append, Nat.add_comm]
        rfl
      change (#[0] ++ d.data).size < d.data.size at hd
      omega

/-- A spreadsheet cell of three bytes comes back as the name of its format. -/
theorem special_loses_data : fromMultiClipboards .oneBlock (createMultiClipboards .oneBlock
      [.text "a", .special "XML Spreadsheet" ⟨#[60, 97, 62]⟩]) =
      [.text "a", .special "XML Spreadsheet" "XML Spreadsheet".toUTF8] ∧
    (⟨#[60, 97, 62]⟩ : ByteArray) ≠ "XML Spreadsheet".toUTF8 :=
  ⟨rfl, by decide +kernel⟩

end CodeDesk.Clipboard
