/-
# The transfer job

`TransferJob` of `libs/hbb_common/src/fs.rs`, as far as both sides of a
transfer share it: the record, the two constructors, the flags that the
overwrite detection keeps, and `confirm`, by which the peer skips a file,
lets it be sent or resumes it at an offset. The type `σ` is that of an open
file; what the operating system answers is the record `Os σ`.

The record has one field the code has not, the history variable `log`: the
file number the job started at and how each file it left behind ended. No
function reads it.
-/
import Mathlib.Data.Int.Basic
import CodeDesk.Fs.Path

namespace CodeDesk.Fs

abbrev Bytes := List UInt8

/-- `n += 1` on an `i32`. -/
def i32Succ (n : ℤ) : ℤ := if n = 2147483647 then -2147483648 else n + 1

/-- `n as usize`: a negative `i32` is sign-extended to 64 bits. -/
def asUsize (n : ℤ) : ℕ := (n % 18446744073709551616).toNat

inductive JobType where
  | generic
  | printer
  deriving DecidableEq, Repr

structure FileEntry where
  name : String
  size : ℕ
  modifiedTime : ℕ
  deriving DecidableEq, Repr

/-- The files of a job. A file number is an `i32`, on the wire and in the job. -/
structure FileList where
  entries : List FileEntry
  small : entries.length < 2147483648

inductive DataSource where
  | filePath (p : String)
  | memoryCursor (data : Bytes)
  deriving DecidableEq, Repr

inductive DataStream (σ : Type) where
  | fileStream (f : σ)
  | bufStream (data : Bytes) (pos : ℕ)
  deriving DecidableEq, Repr

structure FileDigest where
  size : ℕ
  modified : ℕ
  deriving DecidableEq, Repr

/-- How a job left a file behind: read to its end, skipped by a confirm, or
failed with an error. -/
inductive FileEnd where
  | eof
  | skipped
  | failed (err : String)
  deriving DecidableEq, Repr

structure FileLog where
  start : ℤ
  ends : List (ℕ × FileEnd)
  deriving DecidableEq, Repr

structure TransferJob (σ : Type) where
  id : ℤ
  type : JobType
  dataSource : DataSource
  isLastJob : Bool
  isResume : Bool
  fileNum : ℤ
  files : FileList
  dataStream : Option (DataStream σ)
  finishedSize : ℕ
  transferred : ℕ
  enableOverwriteDetection : Bool
  fileConfirmed : Bool
  fileSkipped : Bool
  fileIsWaiting : Bool
  digest : FileDigest
  log : FileLog

inductive ConfirmUnion where
  | skip (s : Bool)
  | offsetBlk (offset : ℕ)
  deriving DecidableEq, Repr

structure SendConfirmRequest where
  id : ℤ
  fileNum : ℤ
  union : Option ConfirmUnion
  deriving DecidableEq, Repr

structure FileTransferBlock where
  id : ℤ
  fileNum : ℤ
  data : Bytes
  compressed : Bool
  deriving DecidableEq, Repr

inductive FileResponse where
  | digest (id fileNum : ℤ) (lastModified fileSize : ℕ) (isResume : Bool)
  | block (b : FileTransferBlock)
  | error (id : ℤ) (err : String) (fileNum : ℤ)
  | done (id fileNum : ℤ)
  deriving DecidableEq, Repr

/-- What comes of sending a message to the peer. -/
abbrev Send := FileResponse → Except String Unit

/-- What the operating system answers to the calls of one moment. -/
structure Os (σ : Type) where
  symlinkMetadata : String → SymlinkMeta
  pathExists : String → Bool
  openFile : String → Except String σ
  /-- `OpenOptions::new().create(true).write(true).open`. -/
  openWrite : String → Except String σ
  seek : σ → ℕ → Except String σ
  /-- Modification time and size of an open file. -/
  metadata : σ → Except String (ℕ × ℕ)
  /-- `read` into a buffer with room for so many bytes. -/
  readFile : σ → ℕ → Except String (Bytes × σ)

namespace TransferJob

variable {σ : Type}

def numFiles (j : TransferJob σ) : ℕ := j.files.entries.length

def newRead (id : ℤ) (type : JobType) (dataSource : DataSource) (fileNum : ℤ) (files : FileList)
    (enableOverwriteDetection : Bool) : TransferJob σ where
  id := id
  type := type
  dataSource := dataSource
  isLastJob := false
  isResume := false
  fileNum := fileNum
  files := files
  dataStream := none
  finishedSize := 0
  transferred := 0
  enableOverwriteDetection := enableOverwriteDetection
  fileConfirmed := false
  fileSkipped := false
  fileIsWaiting := false
  digest := ⟨0, 0⟩
  log := ⟨fileNum, []⟩

def newWrite (id : ℤ) (type : JobType) (dataSource : DataSource) (fileNum : ℤ) (files : FileList)
    (enableOverwriteDetection : Bool) : TransferJob σ :=
  newRead id type dataSource fileNum files enableOverwriteDetection

def logEnd (j : TransferJob σ) (e : FileEnd) : FileLog :=
  { j.log with ends := j.log.ends ++ [(asUsize j.fileNum, e)] }

def setFileConfirmed (j : TransferJob σ) (fileConfirmed : Bool) : TransferJob σ :=
  { j with fileConfirmed := fileConfirmed, fileSkipped := false }

def setFileIsWaiting (j : TransferJob σ) (fileIsWaiting : Bool) : TransferJob σ :=
  { j with fileIsWaiting := fileIsWaiting }

def jobSkipped (j : TransferJob σ) : Bool := j.fileSkipped && j.numFiles == 1

def jobCompleted (j : TransferJob σ) : Bool :=
  !j.enableOverwriteDetection || (!j.fileConfirmed && !j.fileIsWaiting)

def jobError (j : TransferJob σ) : Option String :=
  if j.jobSkipped then some "skipped" else none

def setFileSkipped (j : TransferJob σ) : TransferJob σ :=
  { j with
    dataStream := none
    fileConfirmed := false
    fileIsWaiting := false
    fileNum := i32Succ j.fileNum
    fileSkipped := true
    log := j.logEnd .skipped }

/-- `None` where the path is refused. -/
def resolveEntryPath (os : Os σ) (j : TransferJob σ) (base name : String) : Option String :=
  match j.type with
  | .generic =>
    match joinValidatedPath os.symlinkMetadata base name with
    | .ok path => some path
    | .error _ => none
  | .printer => some (join base name)

def downloadPath (path : String) : String := path ++ ".download"

def digestPath (path : String) : String := path ++ ".digest"

/-- The file `set_stream_offset` seeks in: the partial download if its digest
is there too, else the file itself. -/
def offsetFile (os : Os σ) (path : String) : Except String σ :=
  if os.pathExists (downloadPath path) && os.pathExists (digestPath path) then
    os.openWrite (downloadPath path)
  else if os.pathExists path then os.openFile path
  else .error "not found"

/-- `None` is the panic of `self.files[file_num]`. -/
def setStreamOffset (os : Os σ) (j : TransferJob σ) (fileNum offset : ℕ) : Option (TransferJob σ) :=
  match j.dataSource with
  | .memoryCursor _ => some j
  | .filePath p =>
    match j.files.entries[fileNum]? with
    | none => none
    | some entry =>
      match j.resolveEntryPath os p entry.name with
      | none => some j
      | some path =>
        match offsetFile os path with
        | .error _ => some j
        | .ok f =>
          match os.seek f offset with
          | .error _ => some j
          | .ok f =>
            some { j with
              dataStream := some (.fileStream f)
              transferred := j.transferred + offset
              finishedSize := j.finishedSize + offset }

/-- `None` is a panic. -/
def confirm (os : Os σ) (j : TransferJob σ) (r : SendConfirmRequest) : Option (TransferJob σ) :=
  if j.fileNum ≠ r.fileNum then some j
  else
    match r.union with
    | some (.skip true) => some j.setFileSkipped
    | some (.skip false) => some (j.setFileConfirmed true)
    | some (.offsetBlk offset) =>
      if 0 < offset then (j.setFileConfirmed true).setStreamOffset os (asUsize r.fileNum) offset
      else some (j.setFileConfirmed true)
    | none => some j

variable {os : Os σ} {j j' : TransferJob σ} {offset : ℕ} {r : SendConfirmRequest}

theorem setStreamOffset_cases {n : ℕ} (h : j.setStreamOffset os n offset = some j') :
    j' = j ∨ ∃ p entry path f₀ f, j.dataSource = .filePath p ∧ j.files.entries[n]? = some entry ∧
      j.resolveEntryPath os p entry.name = some path ∧ offsetFile os path = .ok f₀ ∧
      os.seek f₀ offset = .ok f ∧ j' = ({ j with
        dataStream := some (.fileStream f)
        transferred := j.transferred + offset
        finishedSize := j.finishedSize + offset } : TransferJob σ) := by
  unfold setStreamOffset at h
  split at h
  · exact .inl (by simpa using h.symm)
  rename_i p hp
  split at h
  · simp at h
  rename_i entry hentry
  split at h
  · exact .inl (by simpa using h.symm)
  rename_i path hpath
  split at h
  · exact .inl (by simpa using h.symm)
  rename_i f₀ hf₀
  split at h
  · exact .inl (by simpa using h.symm)
  · rename_i f hf
    exact .inr ⟨p, entry, path, f₀, f, hp, hentry, hpath, hf₀, hf, by simpa using h.symm⟩

theorem confirm_offset {p path : String}
    {entry : FileEntry} {f₀ f : σ} (hnum : j.fileNum = r.fileNum)
    (hunion : r.union = some (.offsetBlk offset)) (hpos : 0 < offset)
    (hsource : j.dataSource = .filePath p) (hentry : j.files.entries[asUsize r.fileNum]? = some entry)
    (hpath : j.resolveEntryPath os p entry.name = some path) (hopen : offsetFile os path = .ok f₀)
    (hseek : os.seek f₀ offset = .ok f) :
    j.confirm os r = some { j.setFileConfirmed true with
      dataStream := some (.fileStream f)
      transferred := j.transferred + offset
      finishedSize := j.finishedSize + offset } := by
  have hset : (j.setFileConfirmed true).setStreamOffset os (asUsize r.fileNum) offset =
      some { j.setFileConfirmed true with
        dataStream := some (.fileStream f)
        transferred := j.transferred + offset
        finishedSize := j.finishedSize + offset } := by
    obtain ⟨⟩ := j
    obtain rfl := hsource
    have hpath' := hpath
    simp only [resolveEntryPath] at hpath'
    simp only [setStreamOffset, setFileConfirmed, hentry, resolveEntryPath, hpath', hopen, hseek]
  rw [confirm, if_neg (by simpa using hnum), hunion]
  simpa only [if_pos hpos] using hset

theorem confirm_cases (h : j.confirm os r = some j') : j' = j ∨
      (j.fileNum = r.fileNum ∧ r.union = some (ConfirmUnion.skip true) ∧ j' = j.setFileSkipped) ∨
      (j.fileNum = r.fileNum ∧ ∃ st tr fin, j' = ({ j.setFileConfirmed true with
        dataStream := st, transferred := tr, finishedSize := fin } : TransferJob σ)) := by
  unfold confirm at h
  split_ifs at h with hn
  · exact .inl (by simpa using h.symm)
  have hn : j.fileNum = r.fileNum := by simpa using hn
  split at h
  · rename_i hu
    exact .inr (.inl ⟨hn, hu, by simpa using h.symm⟩)
  · exact .inr (.inr ⟨hn, _, _, _, (Option.some.inj h).symm⟩)
  · split at h
    · rcases setStreamOffset_cases h with rfl | ⟨_, _, _, _, f, _, _, _, _, _, rfl⟩ <;>
        exact .inr (.inr ⟨hn, _, _, _, rfl⟩)
    · exact .inr (.inr ⟨hn, _, _, _, (Option.some.inj h).symm⟩)
  · exact .inl (by simpa using h.symm)

theorem confirm_static (h : j.confirm os r = some j') :
    j'.type = j.type ∧ j'.dataSource = j.dataSource ∧ j'.files = j.files := by
  rcases confirm_cases h with rfl | ⟨-, -, rfl⟩ | ⟨-, st, tr, fin, rfl⟩ <;> exact ⟨rfl, rfl, rfl⟩

end TransferJob

end CodeDesk.Fs
