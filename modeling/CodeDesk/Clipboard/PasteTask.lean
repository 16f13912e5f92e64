/-
# Pasting the files of a remote peer

The paste task of `libs/clipboard/src/platform/unix/macos/paste_task.rs`: it
goes through the list of descriptors, makes the directories and the empty
files at once, and asks the peer for the contents of the others, one block
after the other. A file is received into `<path>.rddownload` and renamed to
`<path>` when it is complete; where something is in the way, a number makes
the name free. Its inputs are the format data response that starts a task
(`handle_format_data_response` of `pasteboard_context.rs`), the responses with
contents, the timeouts of the worker and a cancel.

A path is its components from the moment it goes to the system; up to there
it is the string the code builds. The system is a function `Os` that answers
each call after what the task did so far, so that two calls of one step may
get different answers; the calls are the history variable `log`. The
attributes that show a progress in the Finder, the times of a file and the
contents of the requests are no part of the model.
-/
import Mathlib.Algebra.Ring.Nat
import CodeDesk.Run
import CodeDesk.Clipboard.Descriptor
import CodeDesk.Fs.Job

namespace CodeDesk.Clipboard

open Fs (Component components pushPath parent asUsize)

abbrev Key := List Component

/-- `n as i32`. -/
def asI32 (n : ℕ) : ℤ := ((n : ℤ) + 2147483648) % 4294967296 - 2147483648

inductive Call where
  | exists (path : Key)
  | create (path : Key)
  | createDirAll (path : Key)
  | rename (src dst : Key)
  | openWrite (path : Key)
  | remove (path : Key)
  | write (data : Bytes)
  deriving DecidableEq, Repr

/-- Whether a call succeeds, after the earlier ones. -/
abbrev Os := List Call → Call → Bool

/-! ### File names -/

/-- `Path::file_stem` and `Path::extension` of a name that has both. -/
def splitExtension (seg : String) : Option (String × String) :=
  let rev := seg.toList.reverse
  if '.' ∈ rev then
    let ext := (rev.takeWhile (· ≠ '.')).reverse
    let stem := ((rev.dropWhile (· ≠ '.')).drop 1).reverse
    -- a dot at the start makes no extension
    if stem = [] then none else some (String.ofList stem, String.ofList ext)
  else none

def extension (path : Key) : Option (String × String) :=
  match path.getLast? with
  | some (.normal seg) => splitExtension seg
  | _ => none

def numbered (path : String) (type : FileType) (i : ℕ) : Option Key :=
  match type with
  | .file =>
    match extension (components path) with
    | some (stem, ext) =>
      some ((components path).dropLast ++ [.normal (stem ++ "-" ++ toString i ++ "." ++ ext)])
    | none => some (components (path ++ " (" ++ toString i ++ ")"))
  | .directory => some (components (path ++ " (" ++ toString i ++ ")"))
  | .symlink => none

/-- The loop of `get_first_filename`, for `n` candidates from `i` on. -/
def firstFree (os : Os) (candidate : ℕ → Option Key) : ℕ → ℕ → List Call → Option Key × List Call
  | 0, _, log => (none, log)
  | n + 1, i, log =>
    match candidate i with
    | none => (none, log)
    | some path =>
      if os log (.exists path) then firstFree os candidate n (i + 1) (log ++ [.exists path])
      else (some path, log ++ [.exists path])

def getFirstFilename (os : Os) (path : String) (type : FileType) (log : List Call) :
    Option Key × List Call :=
  if os log (.exists (components path)) then
    firstFree os (numbered path type) 9999998 1 (log ++ [.exists (components path)])
  else (some (components path), log ++ [.exists (components path)])

def getNewFilename (os : Os) (targetDir : String) (file : FileDescription) (log : List Call) :
    Option Key × List Call :=
  let path := pushPath targetDir file.name
  if os log (.exists (components path)) then
    getFirstFilename os path file.kind (log ++ [.exists (components path)])
  else (some (components path), log ++ [.exists (components path)])

/-! ### One task -/

/-- `PasteTaskHandle` with its progress; an empty `downloadFilePath` is the
empty string. -/
structure PasteTaskHandle where
  listIndex : ℤ
  offset : ℕ
  totalSize : ℕ
  currentSize : ℕ
  downloadFileIndex : ℤ
  downloadFileSize : ℕ
  downloadFilePath : Key
  downloadFileCurrentSize : ℕ
  fileHandle : Bool
  error : Option CliprdrError
  isCanceled : Bool
  targetDir : String
  files : List FileDescription
  log : List Call
  deriving DecidableEq, Repr

namespace PasteTaskHandle

variable (os : Os)

def call (h : PasteTaskHandle) (c : Call) : PasteTaskHandle × Bool :=
  ({ h with log := h.log ++ [c] }, os h.log c)

def isFinished (h : PasteTaskHandle) : Bool :=
  h.isCanceled || h.error.isSome || decide (asI32 h.files.length ≤ h.listIndex)

/-- The empty path names no file, so its removal fails before any. -/
def onCancelled (h : PasteTaskHandle) : PasteTaskHandle :=
  if h.downloadFilePath = [] then { h with fileHandle := false }
  else ({ h with fileHandle := false }.call os (.remove h.downloadFilePath)).1

def renameDone (h : PasteTaskHandle) (dst : Key) : PasteTaskHandle :=
  let h' :=
    match h.call os (.rename h.downloadFilePath dst) with
    | (h, true) => (h.call os (.openWrite dst)).1
    | (h, false) => h
  { h' with downloadFilePath := [], downloadFileIndex := -1 }

def onDone (h : PasteTaskHandle) : PasteTaskHandle :=
  if h.fileHandle = false then h
  else if h.downloadFileIndex = -1 then h
  else
    let h := { h with fileHandle := false }
    match h.files[asUsize h.downloadFileIndex]? with
    | none => h
    | some file =>
      match getNewFilename os h.targetDir file h.log with
      | (none, log) => { h with log := log }
      | (some dst, log) => ({ h with log := log }).renameDone os dst

def onError (h : PasteTaskHandle) (err : CliprdrError) : PasteTaskHandle :=
  ({ h with error := some err }).onCancelled os

def onFinished (h : PasteTaskHandle) : PasteTaskHandle :=
  let h := if h.error.isSome then h.onCancelled os else h.onDone os
  if h.currentSize ≠ h.totalSize then
    { h with error := some (.invalidRequest "Failed to download all files") }
  else h

def makeDir (h : PasteTaskHandle) (dir : Key) : PasteTaskHandle × Bool :=
  match h.call os (.exists dir) with
  | (h, true) => (h, true)
  | (h, false) => h.call os (.createDirAll dir)

/-- The partial file of a file of the list, once its path is found. -/
def createDownload (h : PasteTaskHandle) (file : FileDescription) (path : Key) : PasteTaskHandle :=
  match h.call os (.create path) with
  | (h, true) =>
    { h with
      downloadFileIndex := h.listIndex
      downloadFileSize := file.size
      downloadFilePath := path
      downloadFileCurrentSize := 0
      fileHandle := true }
  | (h, false) => { h with error := some (.fileError path) }

def openNewWriter (h : PasteTaskHandle) : PasteTaskHandle × Except CliprdrError Unit :=
  match h.files[asUsize h.listIndex]? with
  | none =>
    (h, .error (.invalidRequest ("Invalid file index: " ++ toString h.listIndex ++
      ", file count: " ++ toString h.files.length)))
  | some file =>
    let original := pushPath h.targetDir file.name
    match getFirstFilename os (original ++ ".rddownload") file.kind h.log with
    | (none, log) =>
      ({ h with log := log }, .error (.commonError ("Failed to get download file path: " ++ original)))
    | (some path, log) =>
      let h := { h with log := log }
      match parent path with
      | none =>
        (h, .error (.commonError ("Failed to get parent of the download file path: " ++ original)))
      | some dir =>
        match h.makeDir os dir with
        | (h, false) => (h, .error (.fileError dir))
        | (h, true) => (h.createDownload os file path, .ok ())

def createEmpty (h : PasteTaskHandle) (file : FileDescription) : PasteTaskHandle :=
  match getNewFilename os h.targetDir file h.log with
  | (none, log) => { h with log := log }
  | (some path, log) => (({ h with log := log }).call os (.create path)).1

/-- The loop of `update_next`, for `n` files from `i` on. It ends at the first
file with contents. -/
def updateLoop : ℕ → ℤ → PasteTaskHandle → PasteTaskHandle × Except CliprdrError Unit
  | 0, _, h => (h, .ok ())
  | n + 1, i, h =>
    match h.files[asUsize i]? with
    | none => (h, .error (.invalidRequest ("Invalid file index: " ++ toString i)))
    | some file =>
      match file.kind with
      | .file =>
        if file.size = 0 then updateLoop n (i + 1) (h.createEmpty os file)
        else ({ h with listIndex := i, offset := 0 }).openNewWriter os
      | .directory =>
        updateLoop n (i + 1) (h.makeDir os (components (pushPath h.targetDir file.name))).1
      | .symlink => updateLoop n (i + 1) h

/-- With no file open the list is at its end. -/
def closeList (h : PasteTaskHandle) : PasteTaskHandle :=
  if h.fileHandle then h
  else
    { h with
      listIndex := asI32 h.files.length
      offset := 0
      downloadFileSize := 0
      downloadFileCurrentSize := 0 }

def updateNext (h : PasteTaskHandle) (size : ℕ) : PasteTaskHandle × Except CliprdrError Unit :=
  if h.isFinished then (h, .ok ())
  else
    let h := { h with currentSize := h.currentSize + size }
    if h.listIndex = -1 ∨ h.downloadFileSize ≤ h.offset + size then
      let h := if h.listIndex = -1 then h else h.onDone os
      match updateLoop os (asI32 h.files.length - (h.listIndex + 1)).toNat (h.listIndex + 1) h with
      | (h, .error err) => (h, .error err)
      | (h, .ok ()) => (h.closeList, .ok ())
    else
      (({ h with
        offset := h.offset + size
        downloadFileCurrentSize := h.downloadFileCurrentSize + size }).closeList, .ok ())

/-- The error of `send_file_contents_request`; what is sent is left out. -/
def sendFileContentsRequest (h : PasteTaskHandle) : Except CliprdrError Unit :=
  if h.isFinished then .ok ()
  else
    match h.files[asUsize h.listIndex]? with
    | none => .error (.invalidRequest ("Invalid file index: " ++ toString h.listIndex))
    | some _ => .ok ()

/-- The loop of writes puts all of the data in the file, or fails. -/
def writeAll (h : PasteTaskHandle) (data : Bytes) : PasteTaskHandle × Bool :=
  if data = [] then (h, true) else h.call os (.write data)

def handleFileContentsResponse (h : PasteTaskHandle) (data : Bytes) :
    PasteTaskHandle × Except CliprdrError Unit :=
  if h.fileHandle then
    match h.writeAll os data with
    | (h, true) => h.updateNext os data.length
    | (h, false) => (h, .error (.fileError h.downloadFilePath))
  else (h, .error (.fileError h.downloadFilePath))

def new (targetDir : String) (files : List FileDescription) : PasteTaskHandle where
  listIndex := -1
  offset := 0
  totalSize := (files.map (·.size)).sum % 18446744073709551616
  currentSize := 0
  downloadFileIndex := -1
  downloadFileSize := 0
  downloadFilePath := []
  downloadFileCurrentSize := 0
  fileHandle := false
  error := none
  isCanceled := false
  targetDir := targetDir
  files := files
  log := []

/-- The end of `PasteTask::start`; an error of the first `update_next` is
dropped. -/
def begin (h : PasteTaskHandle) : PasteTaskHandle :=
  let h := (h.updateNext os 0).1
  if h.isFinished then h.onFinished os
  else
    match h.sendFileContentsRequest with
    | .ok () => h
    | .error err => h.onError os err

end PasteTaskHandle

/-! ### The task and its inputs -/

structure FileContentsResponse where
  connId : ℤ
  msgFlags : ℤ
  streamId : ℤ
  requestedData : Bytes
  deriving DecidableEq, Repr

structure PasteTask where
  handle : Option PasteTaskHandle
  retryCount : ℕ
  deriving DecidableEq, Repr

namespace PasteTask

def init : PasteTask := ⟨none, 0⟩

def start (os : Os) (t : PasteTask) (targetDir : String) (files : List FileDescription) : PasteTask :=
  if t.handle.any fun h => !h.isFinished then t
  else { t with handle := some ((PasteTaskHandle.new targetDir files).begin os) }

def afterResponse (os : Os) (retryCount : ℕ) (h : PasteTaskHandle) : PasteTask :=
  if h.isFinished then ⟨some (h.onFinished os), 0⟩
  else
    match h.sendFileContentsRequest with
    | .ok () => ⟨some h, retryCount⟩
    | .error err => ⟨some (h.onError os err), retryCount⟩

def onRetry (os : Os) (t : PasteTask) (h : PasteTaskHandle) (r : FileContentsResponse) : PasteTask :=
  let retryCount := t.retryCount + 1
  afterResponse os retryCount
    (if 3 < retryCount then
      { h with error := some (.invalidRequest ("Failed to read file contents, stream id: " ++
        toString r.streamId ++ ", msg_flags: " ++ toString r.msgFlags)) }
    else h)

def onResponse (os : Os) (t : PasteTask) (r : FileContentsResponse) : PasteTask :=
  match t.handle with
  | none => t
  | some h =>
    if h.isFinished then t
    else if r.streamId ≠ h.listIndex then t
    else if r.msgFlags ≠ 1 then t.onRetry os h r
    else
      match h.files[asUsize r.streamId]? with
      | none => t
      | some file =>
        if file.connId ≠ r.connId then t
        else
          match h.handleFileContentsResponse os r.requestedData with
          | (h, .ok ()) => afterResponse os t.retryCount h
          | (h, .error err) => afterResponse os t.retryCount (h.onError os err)

/-- A turn of the worker without a response; `late` says that the last request
is more than five seconds old. -/
def onTimeout (os : Os) (t : PasteTask) (late : Bool) : PasteTask :=
  match t.handle with
  | none => t
  | some h =>
    if !h.isFinished && late then
      ⟨some (({ h with
        error := some (.invalidRequest "Failed to read file contents") }).onFinished os), 0⟩
    else t

def cancel (os : Os) (t : PasteTask) : PasteTask :=
  match t.handle with
  | none => t
  | some h => { t with handle := some (({ h with isCanceled := true }).onCancelled os) }

/-- `handle_format_data_response`: `targetDir` is the parent of the path the
paste was observed at. -/
def handleFormatDataResponse (utf16 : Bytes → Option (List Char)) (os : Os) (t : PasteTask)
    (targetDir : Option String) (connId : ℤ) (formatData : Bytes) :
    PasteTask × Except CliprdrError Unit :=
  match targetDir with
  | none => (t, .error (.commonError "failed to get parent path"))
  | some targetDir =>
    if os [] (.exists (components targetDir)) then
      match parseFileDescriptors utf16 connId formatData with
      | .ok files => (t.start os targetDir files, .ok ())
      | .error err => (t, .error err)
    else (t, .error (.commonError "target path does not exist"))

end PasteTask

inductive PasteInput where
  | formatData (os : Os) (targetDir : Option String) (connId : ℤ) (formatData : Bytes)
  | response (os : Os) (r : FileContentsResponse)
  | timeout (os : Os) (late : Bool)
  | cancel (os : Os)

def PasteTask.step (utf16 : Bytes → Option (List Char)) (t : PasteTask) : PasteInput → PasteTask
  | .formatData os targetDir connId formatData =>
    (t.handleFormatDataResponse utf16 os targetDir connId formatData).1
  | .response os r => t.onResponse os r
  | .timeout os late => t.onTimeout os late
  | .cancel os => t.cancel os

end CodeDesk.Clipboard
