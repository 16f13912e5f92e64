/-
# Write jobs

The receiving side of a transfer: `write`, `modify_time` and
`remove_download_file` of `libs/hbb_common/src/fs.rs`. An entry is received
into `<path>.download`; what promotes it to `<path>` is not its end but the
first block of another entry, or of any entry while no stream is open, or a
call of `modify_time`. The digest in `<path>.digest` says what the partial
file is a part of, so that a later job can resume it.

`WriteSys` is one write job with the files of the destination. Its inputs are
the calls on the job in any order, each with what the system answers (`Io`).
Two history variables that no function reads say what the job received:
`cur` is the entry the open stream was opened for, with the blocks written
since, and `closed` are the earlier ones.
-/
import CodeDesk.Files
import CodeDesk.Run
import CodeDesk.Fs.Job

namespace CodeDesk.Fs

open Files

/-- A file of the destination, whatever the spelling of its path. -/
abbrev Key := List Component

abbrev Dir := Key → Option Bytes

inductive Call where
  | remove
  | rename
  | create
  | openWrite
  | openRead
  | seek
  | writeDigest
  | sync
  deriving DecidableEq, Repr

/-- What the system adds to the contents of the files: the answers of
`symlink_metadata`, the paths with something else than a regular file, the
calls it refuses, and a `write_all` that fails after so many bytes. -/
structure Io where
  symlinkMetadata : String → SymlinkMeta
  other : Key → Bool
  refuses : Call → Key → Bool
  writeFails : Option ℕ

def Io.plain : Io := ⟨fun _ => .notFound, fun _ => false, fun _ _ => false, none⟩

def Io.exists (io : Io) (fs : Dir) (path : String) : Bool :=
  (fs (components path)).isSome || io.other (components path)

def Io.open (io : Io) (fs : Dir) (call : Call) (writable : Bool) (path : String) :
    Except String (Handle Key) :=
  if (fs (components path)).isSome && !io.refuses call (components path) then
    .ok ⟨some (components path), 0, writable⟩
  else .error "open failed"

/-- The calls that leave the files as they are, in this destination. -/
def Io.os (io : Io) (fs : Dir) : Os (Handle Key) where
  symlinkMetadata := io.symlinkMetadata
  pathExists := io.exists fs
  openFile := io.open fs .openRead false
  openWrite := io.open fs .openWrite true
  seek := fun h n =>
    if io.refuses .seek (h.loc.getD []) then .error "seek failed" else .ok { h with pos := n }
  metadata := fun h => .ok (0, ((h.loc.bind fs).getD []).length)
  readFile := fun h n =>
    let bs := (((h.loc.bind fs).getD []).drop h.pos).take n
    .ok (bs, { h with pos := h.pos + bs.length })

/-- An entry the job opened: its file, what the partial file held then, the
position, and the bytes of the blocks written since. -/
structure Opening where
  key : Key
  base : Bytes
  off : ℕ
  blocks : List Bytes
  deriving DecidableEq, Repr

/-- What the opened entry holds: the complete concatenation of its blocks,
put over the kept bytes of the partial file. -/
def Opening.content (o : Opening) : Bytes := writeAt 0 o.base o.off o.blocks.flatten

structure WriteSys where
  job : TransferJob (Handle Key)
  fs : Dir
  cur : Option Opening
  closed : List Opening

namespace WriteSys

variable (json : FileDigest → Bytes) (decompress : Bytes → Bytes) (io : Io)

def mapHandle (f : Handle Key → Handle Key) (s : WriteSys) : WriteSys :=
  match s.job.dataStream with
  | some (.fileStream h) => { s with job := { s.job with dataStream := some (.fileStream (f h)) } }
  | _ => s

def removeFile (s : WriteSys) (path : String) : WriteSys × Bool :=
  if (s.fs (components path)).isSome && !io.refuses .remove (components path) then
    (({ s with fs := remove s.fs (components path) }).mapHandle
      (Handle.unlinked (components path)), true)
  else (s, false)

def renameFile (s : WriteSys) (src dst : String) : WriteSys :=
  if (s.fs (components src)).isSome && !io.refuses .rename (components dst) then
    ({ s with fs := rename s.fs (components src) (components dst) }).mapHandle
      (Handle.moved (components src) (components dst))
  else s

/-- The path of the current entry, as `modify_time` and
`remove_download_file` find it: not for a printer job, and only in the list. -/
def currentPath (s : WriteSys) : Option String :=
  match s.job.type, s.job.dataSource with
  | .generic, .filePath p =>
    match s.job.files.entries[asUsize s.job.fileNum]? with
    | some entry => s.job.resolveEntryPath (io.os s.fs) p entry.name
    | none => none
  | _, _ => none

/-- The modification time it also sets is no part of the model. -/
def modifyTime (s : WriteSys) : WriteSys :=
  match s.currentPath io with
  | none => s
  | some path =>
    let s := (s.removeFile io (TransferJob.digestPath path)).1
    s.renameFile io (TransferJob.downloadPath path) path

def removeDownloadFile (s : WriteSys) : WriteSys :=
  match s.currentPath io with
  | none => s
  | some path =>
    let s := (s.removeFile io (TransferJob.downloadPath path)).1
    (s.removeFile io (TransferJob.digestPath path)).1

/-- History: the stream is given up. -/
def closeCur (s : WriteSys) : WriteSys :=
  { s with cur := none, closed := s.closed ++ s.cur.toList }

/-- `File::create` and, where the entry has one, the new digest. -/
def createStream (s : WriteSys) (final path : String) (digest : Option String) :
    WriteSys × Except String Unit :=
  if io.refuses .create (components path) || io.other (components path) then
    (s, .error "create failed")
  else
    let s := { s.closeCur with
      job := { s.job with dataStream := some (.fileStream ⟨some (components path), 0, true⟩) }
      fs := put s.fs (components path) []
      cur := some ⟨components final, [], 0, []⟩ }
    match digest with
    | some dp =>
      if io.refuses .writeDigest (components dp) || io.other (components dp) then (s, .ok ())
      else ({ s with fs := put s.fs (components dp) (json s.job.digest) }, .ok ())
    | none => (s, .ok ())

/-- The stream of a generic job's entry at `path`; an old digest goes first. -/
def reopen (s : WriteSys) (path : String) : WriteSys × Except String Unit :=
  if io.exists s.fs (TransferJob.digestPath path) then
    match s.removeFile io (TransferJob.digestPath path) with
    | (s, false) => (s, .error "remove failed")
    | (s, true) => s.createStream json io path (TransferJob.downloadPath path)
        (some (TransferJob.digestPath path))
  else s.createStream json io path (TransferJob.downloadPath path)
    (some (TransferJob.digestPath path))

def openStream (s : WriteSys) (p : String) (entry : FileEntry) : WriteSys × Except String Unit :=
  match s.job.type with
  | .printer => s.createStream json io p p none
  | .generic =>
    match joinValidatedPath io.symlinkMetadata p entry.name with
    | .error err => (s, .error err)
    | .ok path => s.reopen json io path

def syncFails (s : WriteSys) : Bool :=
  match s.job.dataStream with
  | some (.fileStream h) => io.refuses .sync (h.loc.getD [])
  | _ => false

/-- The branch of `write` that turns to the entry of the block. -/
def openEntry (s : WriteSys) (p : String) (entry : FileEntry) (fileNum : ℤ) :
    WriteSys × Except String Unit :=
  let s := s.modifyTime io
  if s.syncFails io then (s, .error "sync failed")
  else ({ s with job := { s.job with fileNum := fileNum } }).openStream json io p entry

/-- `write_all` on the stream; a file that lost its name still takes bytes,
but nothing of the model can see them. -/
def writeAll (s : WriteSys) (data : Bytes) : WriteSys × Except String Unit :=
  match s.job.dataStream with
  | none => (s, .error "file is None")
  | some (.bufStream buf pos) =>
    ({ s with job := { s.job with
        dataStream := some (.bufStream (writeAt 0 buf pos data) (pos + data.length)) } }, .ok ())
  | some (.fileStream h) =>
    if h.writable then
      let written := match io.writeFails with
        | some n => data.take n
        | none => data
      let fs := match h.loc with
        | some l => put s.fs l (writeAt 0 ((s.fs l).getD []) h.pos written)
        | none => s.fs
      let s := { s with
        fs := fs
        job := { s.job with
          dataStream := some (.fileStream { h with pos := h.pos + written.length }) } }
      match io.writeFails with
      | some _ => (s, .error "write failed")
      | none =>
        ({ s with cur := s.cur.map fun o => { o with blocks := o.blocks ++ [data] } }, .ok ())
    else (s, .error "write failed")

def count (s : WriteSys) (finished transferred : ℕ) : WriteSys :=
  { s with job := { s.job with
    finishedSize := s.job.finishedSize + finished
    transferred := s.job.transferred + transferred } }

def payload (b : FileTransferBlock) : Bytes := if b.compressed then decompress b.data else b.data

/-- The tail of `write`, once the stream is the right one. -/
def writeBlock (s : WriteSys) (b : FileTransferBlock) : WriteSys × Except String Unit :=
  match s.writeAll io (payload decompress b) with
  | (s, .error err) => (s, .error err)
  | (s, .ok ()) => (s.count (payload decompress b).length b.data.length, .ok ())

def turns (s : WriteSys) (b : FileTransferBlock) : Bool :=
  asUsize b.fileNum != asUsize s.job.fileNum || s.job.dataStream.isNone

def write (s : WriteSys) (b : FileTransferBlock) : WriteSys × Except String Unit :=
  if b.id ≠ s.job.id then (s, .error "Wrong id")
  else
    match s.job.dataSource with
    | .filePath p =>
      match s.job.files.entries[asUsize b.fileNum]? with
      | none => (s, .error "Wrong file number")
      | some entry =>
        if s.turns b then
          match s.openEntry json io p entry b.fileNum with
          | (s, .error err) => (s, .error err)
          | (s, .ok ()) => s.writeBlock decompress io b
        else s.writeBlock decompress io b
    | .memoryCursor c =>
      let s := if s.job.dataStream.isNone then
        { s with job := { s.job with dataStream := some (.bufStream c 0) } } else s
      s.writeBlock decompress io b

/-- History: the entry a new stream was opened for by a resume. -/
def resumed (s : WriteSys) : Option Opening :=
  match s.job.dataStream with
  | some (.fileStream h) =>
    if h.writable then
      (s.currentPath io).map fun path => ⟨components path, (h.loc.bind s.fs).getD [], h.pos, []⟩
    else none
  | _ => none

/-- `None` is the panic of `confirm`. -/
def confirm (s : WriteSys) (r : SendConfirmRequest) : Option WriteSys :=
  match s.job.confirm (io.os s.fs) r with
  | none => none
  | some job =>
    let s' := { s with job := job }
    if job.dataStream = s.job.dataStream then some s'
    else some { s'.closeCur with cur := s'.resumed io }

def start (job : TransferJob (Handle Key)) (fs : Dir) : WriteSys := ⟨job, fs, none, []⟩

end WriteSys

inductive WriteInput where
  | write (io : Io) (b : FileTransferBlock)
  | confirm (io : Io) (r : SendConfirmRequest)
  | modifyTime (io : Io)
  | removeDownloadFile (io : Io)
  | setDigest (size modified : ℕ)

/-- One call. A panic is the end of the job's task; its files stay as they are. -/
def WriteSys.step (json : FileDigest → Bytes) (decompress : Bytes → Bytes) (s : WriteSys) :
    WriteInput → WriteSys
  | .write io b => (s.write json decompress io b).1
  | .confirm io r => (s.confirm io r).getD s
  | .modifyTime io => s.modifyTime io
  | .removeDownloadFile io => s.removeDownloadFile io
  | .setDigest size modified => { s with job := { s.job with digest := ⟨size, modified⟩ } }

end CodeDesk.Fs
