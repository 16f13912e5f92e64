/-
# The descriptors of a file clipboard

`parse_file_descriptors` of `libs/clipboard/src/platform/unix/filetype.rs`:
the list of files a remote peer offers, as it comes in a format data response.
After a count of four bytes there are 592 bytes for each file: flags,
attributes, mode, time, size and a name of 260 UTF-16 units. The name is a
path below the place of the paste; the back slashes of Windows become slashes
and the zeros at the end are cut. Nothing else is asked of it.

How the `utf16string` crate reads the name is an argument, `utf16`;
`decodeUtf16le` is what it is documented to do.
-/
import Mathlib.Data.Int.Basic
import CodeDesk.Fs.Path

namespace CodeDesk.Clipboard

abbrev Bytes := List UInt8

inductive FileType where
  | file
  | directory
  | symlink
  deriving DecidableEq, Repr

/-- The times of a parsed descriptor are all that of the last write, in
nanoseconds since the epoch. -/
structure FileDescription where
  connId : ℤ
  name : String
  kind : FileType
  lastModified : ℕ
  size : ℕ
  perm : ℕ
  deriving DecidableEq, Repr

def getLe (data : Bytes) (off len : ℕ) : ℕ :=
  ((data.drop off).take len).foldr (fun b acc => b.toNat + 256 * acc) 0

/-! ### Names -/

def utf16Units : Bytes → Option (List ℕ)
  | [] => some []
  | [_] => none
  | lo :: hi :: rest => (utf16Units rest).map ((lo.toNat + 256 * hi.toNat) :: ·)

/-- A unit that is no surrogate is a character, and a pair of surrogates is
one; a surrogate alone is an error. -/
def utf16Chars : List ℕ → Option (List Char)
  | [] => some []
  | [u] => if 0xD800 ≤ u ∧ u < 0xE000 then none else some [Char.ofNat u]
  | u :: v :: rest =>
    if 0xD800 ≤ u ∧ u < 0xDC00 then
      if 0xDC00 ≤ v ∧ v < 0xE000 then
        (utf16Chars rest).map (Char.ofNat (0x10000 + (u - 0xD800) * 1024 + (v - 0xDC00)) :: ·)
      else none
    else if 0xDC00 ≤ u ∧ u < 0xE000 then none
    else (utf16Chars (v :: rest)).map (Char.ofNat u :: ·)

/-- `WStr::from_utf16le` and `to_utf8`, as the characters of the text. -/
def decodeUtf16le (block : Bytes) : Option (List Char) := (utf16Units block).bind utf16Chars

/-- `replace('\\', "/")` and `trim_end_matches('\0')`. -/
def descriptorName (wstr : List Char) : String :=
  let name := wstr.map fun c => if c = '\\' then '/' else c
  String.ofList (name.reverse.dropWhile (· = '\x00')).reverse

/-! ### The list -/

inductive CliprdrError where
  | conversionFailure
  | invalidRequest (description : String)
  | commonError (description : String)
  | fileError (path : List Fs.Component)
  deriving DecidableEq, Repr

section

variable (utf16 : Bytes → Option (List Char)) (connId : ℤ)

/-- The mode where the flags say that there is one, else one after the
attributes. -/
def descriptorPerm (flags attributes perm : ℕ) : ℕ :=
  if flags &&& 0x08 ≠ 0 then perm % 65536
  else if attributes = 0x80 then 0o755
  else if attributes &&& 0x01 ≠ 0 then 0o444
  else if attributes &&& 0x02 ≠ 0 then 0o400
  else if attributes &&& 0x10 ≠ 0 then 0o755
  else 0o644

/-- From 100 ns since 1601 to nanoseconds since 1970. -/
def descriptorTime (flags lastWriteTime : ℕ) : ℕ :=
  if flags &&& 0x20 ≠ 0 ∧ 116444772610000000 ≤ lastWriteTime then
    (lastWriteTime - 116444772610000000) * 100 % 18446744073709551616
  else 0

def parseFileDescriptor (bytes : Bytes) : Except CliprdrError FileDescription :=
  let flags := getLe bytes 0 4
  let attributes := getLe bytes 36 4
  let perm := getLe bytes 52 4
  let lastWriteTime := getLe bytes 56 8
  let fileSizeHigh := getLe bytes 64 4
  let fileSizeLow := getLe bytes 68 4
  match utf16 ((bytes.drop 72).take 520) with
  | none => .error .conversionFailure
  | some wstr =>
    if flags &&& 0x04 = 0 then
      .error (.invalidRequest "file description must have valid attributes")
    else
      .ok {
        connId := connId
        name := descriptorName wstr
        kind := if attributes &&& 0x10 ≠ 0 then .directory else .file
        lastModified := descriptorTime flags lastWriteTime
        size := fileSizeHigh * 4294967296 + fileSizeLow
        perm := descriptorPerm flags attributes perm }

def parseLoop : ℕ → Bytes → Except CliprdrError (List FileDescription)
  | 0, _ => .ok []
  | count + 1, data =>
    match parseFileDescriptor utf16 connId (data.take 592) with
    | .error err => .error err
    | .ok desc =>
      match parseLoop count (data.drop 592) with
      | .error err => .error err
      | .ok files => .ok (desc :: files)

def parseFileDescriptors (pdu : Bytes) : Except CliprdrError (List FileDescription) :=
  if pdu.length < 4 then
    .error (.invalidRequest "file descriptor request with infficient length")
  else
    let count := getLe pdu 0 4
    let data := pdu.drop 4
    if data = [] ∧ count = 0 then .ok []
    else if data.length ≠ 592 * count then
      .error (.invalidRequest "file descriptor request with invalid length")
    else parseLoop utf16 connId count data

end

end CodeDesk.Clipboard
