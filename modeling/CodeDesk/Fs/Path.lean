/-
# Names and paths of a transfer

The path functions of `libs/hbb_common/src/fs.rs` that decide where an entry
of a transfer lives, on a Unix host: the checks on the names a peer sends
(`validateFileNameNoTraversal`, `validateNoSymlinkComponents`) and the join
of the base directory with a name that passed them (`joinValidatedPath`). A
path is the string the code handles; `components`, `parent` and `pushPath` are
the standard library's `Path::components`, `Path::parent` and `PathBuf::push`.
What the file system answers to `symlink_metadata` is an argument.

A check sees the text of a name, the system the components of the path made
from it: `components_pushPath` says what a name adds to the base, and
`segments_suffix` what a suffix does to that.
-/
import Mathlib.Data.List.Basic

namespace CodeDesk.Fs

inductive Component where
  | rootDir
  | curDir
  | parentDir
  | normal (seg : String)
  deriving DecidableEq, Repr

/-- One part between two separators; a part that is empty, or a `.` that is
not the first of a relative path, is no component. -/
def partComponent (part : List Char) : Option Component :=
  if part = [] ∨ part = ['.'] then none
  else if part = ['.', '.'] then some .parentDir
  else some (.normal (String.ofList part))

def components (path : String) : List Component :=
  let parts := path.toList.splitOn '/'
  let lead : List Component :=
    if path.toList.head? = some '/' then [.rootDir]
    else if parts.head? = some ['.'] then [.curDir] else []
  lead ++ parts.filterMap partComponent

def pushPath (base name : String) : String :=
  if name.toList.head? = some '/' then name
  else if base.toList.getLast? = none ∨ base.toList.getLast? = some '/' then base ++ name
  else base ++ "/" ++ name

def parent (k : List Component) : Option (List Component) :=
  match k.getLast? with
  | none => none
  | some .rootDir => none
  | some _ => some k.dropLast

/-- `Path::file_name`, with the code's `unwrap_or("")`. -/
def fileName (path : String) : String :=
  match (components path).getLast? with
  | some (.normal seg) => seg
  | _ => ""

/-- `get_ext`: what follows the last dot. -/
def getExt (name : String) : String :=
  if '.' ∈ name.toList then
    String.ofList (name.toList.reverse.takeWhile (· ≠ '.')).reverse
  else ""

def isCompressedFile (name : String) : Bool :=
  getExt name ∈ ["xz", "gz", "zip", "7z", "rar", "bz2", "tgz", "png", "jpg"]

def validateFileNameNoTraversal (name : String) : Except String Unit :=
  if '\x00' ∈ name.toList then .error "file name contains null bytes"
  else if ['.', '.'] ∈ (name.toList.splitOn '/').filter (· ≠ []) then
    .error "path traversal detected in file name"
  else if name.toList.head? = some '/' then .error "absolute path detected in file name"
  else .ok ()

inductive SymlinkMeta where
  | notFound
  | found (isSymlink : Bool)
  | error (err : String)
  deriving DecidableEq, Repr

/-- The loop of `validate_no_symlink_components` over the components of the
name, from the path reached so far. -/
def symlinkWalk (symlinkMetadata : String → SymlinkMeta) : String → List Component → Except String Unit
  | _, [] => .ok ()
  | current, .normal seg :: rest =>
    match symlinkMetadata (pushPath current seg) with
    | .found true => .error "symlink path component is not allowed"
    | .found false => symlinkWalk symlinkMetadata (pushPath current seg) rest
    | .notFound => symlinkWalk symlinkMetadata (pushPath current seg) rest
    | .error err =>
      .error ("failed to validate path component '" ++ pushPath current seg ++ "': " ++ err)
  | current, .curDir :: rest => symlinkWalk symlinkMetadata current rest
  | _, _ :: _ => .error "invalid file name component"

def validateNoSymlinkComponents (symlinkMetadata : String → SymlinkMeta) (base name : String) :
    Except String Unit :=
  if name = "" then .ok () else symlinkWalk symlinkMetadata base (components name)

/-- `TransferJob::join`: a single file may carry an empty name. -/
def join (p name : String) : String := if name = "" then p else pushPath p name

def joinValidatedPath (symlinkMetadata : String → SymlinkMeta) (base name : String) :
    Except String String :=
  match validateFileNameNoTraversal name with
  | .error err => .error err
  | .ok () =>
    match validateNoSymlinkComponents symlinkMetadata base name with
    | .error err => .error err
    | .ok () => .ok (join base name)

variable {base name path : String} {l : List Char} {c : Char}

theorem joinValidatedPath_ok {symlinkMetadata : String → SymlinkMeta}
    (h : joinValidatedPath symlinkMetadata base name = .ok path) : path = join base name := by
  unfold joinValidatedPath at h
  split at h
  · simp at h
  · split at h
    · simp at h
    · simpa using h.symm

/-! ### The end of a path -/

theorem splitOn_append_suffix {a : Char} {t : List Char} (ht : a ∉ t) (l : List Char) :
    ∃ init last, l.splitOn a = init ++ [last] ∧ (l ++ t).splitOn a = init ++ [last ++ t] := by
  induction l with
  | nil => exact ⟨[], [], rfl, by rw [List.nil_append, List.splitOn_eq_singleton ht]; rfl⟩
  | cons x l ih =>
    obtain ⟨init, last, h, ht'⟩ := ih
    rw [List.cons_append, List.splitOn_cons_eq_if_modifyHead, List.splitOn_cons_eq_if_modifyHead,
      h, ht']
    by_cases hx : (x == a) = true
    · exact ⟨[] :: init, last, by simp [hx]⟩
    · cases init with
      | nil => exact ⟨[], x :: last, by simp [hx]⟩
      | cons y ys => exact ⟨(x :: y) :: ys, last, by simp [hx]⟩

/-- A path whose last character is neither a separator nor a dot ends in a
name with that character. -/
theorem components_concat (hp : path.toList = l ++ [c]) (hsep : c ≠ '/') (hdot : c ≠ '.') :
    ∃ seg, (components path).getLast? = some (.normal (String.ofList (seg ++ [c]))) := by
  have hc : '/' ∉ [c] := fun hmem => hsep (List.mem_singleton.1 hmem).symm
  obtain ⟨init, last, -, h⟩ := splitOn_append_suffix hc l
  have hpart : partComponent (last ++ [c]) = some (.normal (String.ofList (last ++ [c]))) := by
    have h1 : last ++ [c] ≠ ['.'] := by
      intro he
      exact hdot (by simpa using congrArg List.getLast? he)
    have h2 : last ++ [c] ≠ ['.', '.'] := by
      intro he
      exact hdot (by simpa using congrArg List.getLast? he)
    simp [partComponent, h1, h2]
  refine ⟨last, ?_⟩
  rw [components, hp, h, List.filterMap_append, ← List.append_assoc]
  simp [hpart]

theorem components_ne {path' : String} {l' : List Char} {c' : Char}
    (hp : path.toList = l ++ [c]) (hp' : path'.toList = l' ++ [c']) (hsep : c ≠ '/') (hdot : c ≠ '.')
    (hsep' : c' ≠ '/') (hdot' : c' ≠ '.') (hne : c ≠ c') : components path ≠ components path' := by
  intro he
  obtain ⟨seg, h⟩ := components_concat hp hsep hdot
  obtain ⟨seg', h'⟩ := components_concat hp' hsep' hdot'
  rw [he, h'] at h
  simp only [Option.some.injEq, Component.normal.injEq, String.ofList_inj] at h
  exact hne (by simpa using (congrArg List.getLast? h).symm)

theorem parent_eq {k dir : List Component} (h : parent k = some dir) : dir = k.dropLast := by
  unfold parent at h
  split at h
  · cases h
  · cases h
  · exact (Option.some.inj h).symm

/-! ### Components of a join -/

def leadOf (path : List Char) : List Component :=
  if path.head? = some '/' then [.rootDir]
  else if (path.splitOn '/').head? = some ['.'] then [.curDir] else []

/-- The components of the parts of a path; for a relative name, what it adds
to the path it is joined to. -/
def segmentsOf (path : List Char) : List Component := (path.splitOn '/').filterMap partComponent

def segments (name : String) : List Component := segmentsOf name.toList

theorem components_eq (path : String) : components path = leadOf path.toList ++ segments path := rfl

theorem segmentsOf_sep (l n : List Char) :
    segmentsOf (l ++ '/' :: n) = segmentsOf l ++ segmentsOf n := by
  unfold segmentsOf
  rw [List.splitOn_append_cons_self, List.filterMap_append]

theorem leadOf_sep (hl : l ≠ []) (n : List Char) : leadOf (l ++ '/' :: n) = leadOf l := by
  unfold leadOf
  rw [List.splitOn_append_cons_self, List.head?_append_of_ne_nil _ (List.splitOn_ne_nil _ _),
    List.head?_append_of_ne_nil _ hl]

theorem components_pushPath (hb : base ≠ "") (hn : name.toList.head? ≠ some '/') :
    components (pushPath base name) = components base ++ segments name := by
  have hne : base.toList ≠ [] := by simpa using hb
  rw [pushPath, if_neg hn, components_eq, components_eq base, segments, segments, segments]
  by_cases hl : base.toList.getLast? = none ∨ base.toList.getLast? = some '/'
  · rw [if_pos hl, String.toList_append]
    obtain ⟨l, hbl⟩ : ∃ l, base.toList = l ++ ['/'] := by
      rcases hl with hl | hl
      · exact absurd (List.getLast?_eq_none_iff.1 hl) hne
      · exact List.getLast?_eq_some_iff.1 hl
    have hnil : segmentsOf [] = [] := rfl
    rw [hbl, List.append_assoc, List.singleton_append, segmentsOf_sep, segmentsOf_sep l [], hnil,
      List.append_nil, ← List.append_assoc]
    -- what the path starts with stands before its last separator
    rcases l with _ | ⟨c, l⟩
    · rfl
    · rw [leadOf_sep (List.cons_ne_nil c l), leadOf_sep (List.cons_ne_nil c l)]
  · rw [if_neg hl, String.toList_append, String.toList_append, List.append_assoc,
      show "/".toList = ['/'] from rfl, List.singleton_append, segmentsOf_sep, leadOf_sep hne,
      ← List.append_assoc]

theorem pushPath_empty (name : String) : pushPath "" name = name := by
  unfold pushPath
  split
  · rfl
  · simp

/-- A relative path is its parts, after a dot it may start with. -/
theorem components_relative (hn : name.toList.head? ≠ some '/') :
    components name = segments name ∨ components name = .curDir :: segments name := by
  rw [components_eq, leadOf, if_neg hn]
  split
  · exact .inr rfl
  · exact .inl rfl

/-- Without a parent part every component is a part of the name. -/
theorem segments_normal (h : ['.', '.'] ∉ name.toList.splitOn '/') :
    ∀ c ∈ segments name, ∃ seg, c = .normal seg ∧ seg.toList ∈ name.toList.splitOn '/' := by
  intro c hc
  obtain ⟨part, hpart, hsome⟩ := List.mem_filterMap.1 hc
  unfold partComponent at hsome
  split at hsome
  · cases hsome
  · split_ifs at hsome with he
    · exact absurd (he ▸ hpart) h
    · exact ⟨String.ofList part, (Option.some.inj hsome).symm, by rwa [String.toList_ofList]⟩

/-- A suffix of more than two characters makes the last part of a name a
component, and leaves the other parts. -/
theorem segments_suffix (name : String) {t : String} (ht : '/' ∉ t.toList)
    (hl : 2 < t.toList.length) :
    segments (name ++ t) ≠ [] ∧ (['.', '.'] ∉ name.toList.splitOn '/' →
      ['.', '.'] ∉ (name ++ t).toList.splitOn '/') := by
  obtain ⟨init, last, h, h'⟩ := splitOn_append_suffix ht name.toList
  have hne : ∀ part : List Char, part.length ≤ 2 → last ++ t.toList ≠ part := by
    rintro part hlen rfl
    rw [List.length_append] at hlen
    omega
  have hpart : partComponent (last ++ t.toList) =
      some (.normal (String.ofList (last ++ t.toList))) := by
    rw [partComponent, if_neg, if_neg (hne _ (by decide))]
    rintro (he | he)
    · exact hne _ (by decide) he
    · exact hne _ (by decide) he
  rw [segments, segmentsOf, String.toList_append, h', h, List.filterMap_append]
  refine ⟨by simp [hpart], fun hno hmem => ?_⟩
  rcases List.mem_append.1 hmem with hmem | hmem
  · exact hno (List.mem_append_left _ hmem)
  · exact hne _ (by decide) (List.mem_singleton.1 hmem).symm

theorem pushPath_append (hne : name ≠ "") (t : String) :
    pushPath base name ++ t = pushPath base (name ++ t) := by
  have hhead : (name ++ t).toList.head? = name.toList.head? := by
    rw [String.toList_append, List.head?_append_of_ne_nil _ (by simpa using hne)]
  unfold pushPath
  rw [hhead]
  split
  · rfl
  · split
    · rw [String.append_assoc]
    · rw [String.append_assoc, String.append_assoc]

end CodeDesk.Fs
