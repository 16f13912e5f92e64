/-
# Read jobs and their ticks

The sending side of a transfer: `open_data_stream`, `init_data_stream` and
`read` of `libs/hbb_common/src/fs.rs`, and the timer tick over all jobs,
`handle_read_jobs`. A tick opens (and announces the digest of) the current
file of every job, then reads one block of the first job; if that read has
nothing to give and the flags say that nothing is pending, the job is
finished: a `FileTransferDone` goes out and the job is removed.

`Sys` is the list of read jobs of one connection with what it sent. Its
inputs are new jobs, resumed and cancelled ones, ticks and confirms, in any
order, with whatever the operating system and the connection answer in each
(`Os`, `send`).
-/
import Mathlib.Algebra.Ring.Nat
import CodeDesk.Run
import CodeDesk.Fs.Job

namespace CodeDesk.Fs

variable {σ : Type}

namespace TransferJob

/-- `Ok(true)` says that the job is done. On an open error the job advances
to the next file. -/
def openDataStream (os : Os σ) (j : TransferJob σ) : TransferJob σ × Except String Bool :=
  match j.dataSource with
  | .filePath p =>
    match j.files.entries[asUsize j.fileNum]? with
    | none => ({ j with dataStream := none }, .ok true)
    | some entry =>
      match j.dataStream with
      | some _ => (j, .ok false)
      | none =>
        match os.openFile (join p entry.name) with
        | .ok f =>
          ({ j with
             dataStream := some (.fileStream f)
             fileConfirmed := false
             fileIsWaiting := false }, .ok false)
        | .error err =>
          ({ j with
             fileNum := i32Succ j.fileNum
             fileConfirmed := false
             fileIsWaiting := false
             log := j.logEnd (.failed err) }, .error err)
  | .memoryCursor c =>
    match j.dataStream with
    | some _ => (j, .ok false)
    | none =>
      ({ j with dataSource := .memoryCursor [], dataStream := some (.bufStream c 0) }, .ok false)

def getCurrentDigest (os : Os σ) (j : TransferJob σ) : Except String (ℕ × ℕ) :=
  match j.dataStream with
  | none => .error "file is None"
  | some (.fileStream f) => os.metadata f
  | some (.bufStream _ _) => .error "No digest for buf stream"

def sendCurrentDigest (os : Os σ) (send : Send) (j : TransferJob σ) :
    List FileResponse × Except String Unit :=
  match getCurrentDigest os j with
  | .error err => ([], .error err)
  | .ok (lastModified, fileSize) =>
    match send (.digest j.id j.fileNum lastModified fileSize j.isResume) with
    | .error err => ([], .error err)
    | .ok () => ([.digest j.id j.fileNum lastModified fileSize j.isResume], .ok ())

/-- Overwrite detection asks the peer before the current file is sent. -/
def asksPeer (j : TransferJob σ) : Bool :=
  j.type == .generic && j.enableOverwriteDetection && !j.fileConfirmed && !j.fileIsWaiting

def initDataStream (os : Os σ) (send : Send) (j : TransferJob σ) :
    TransferJob σ × List FileResponse × Except String Unit :=
  match openDataStream os j with
  | (j, .error err) => (j, [], .error err)
  | (j, .ok true) => (j, [], .ok ())
  | (j, .ok false) =>
    if j.asksPeer then
      match sendCurrentDigest os send j with
      | (sent, .error err) => (j, sent, .error err)
      | (sent, .ok ()) => (j.setFileIsWaiting true, sent, .ok ())
    else (j, [], .ok ())

def bufSize : ℕ := 128 * 1024

/-- `DataStream::read` into a buffer with room for `n` bytes. -/
def streamRead (os : Os σ) : DataStream σ → ℕ → Except String (Bytes × DataStream σ)
  | .fileStream f, n =>
    match os.readFile f n with
    | .error err => .error err
    | .ok (bs, f) => .ok (bs.take n, .fileStream f)
  | .bufStream data pos, n =>
    .ok ((data.drop pos).take n, .bufStream data (pos + ((data.drop pos).take n).length))

/-- The loop of `read`: fill the buffer until it is full or the stream ends.
Every round but the last adds a byte, so `bufSize` rounds are enough. -/
def fillBuf (os : Os σ) : ℕ → DataStream σ → Bytes → Except String (Bytes × DataStream σ)
  | 0, st, buf => .ok (buf, st)
  | fuel + 1, st, buf =>
    match streamRead os st (bufSize - buf.length) with
    | .error err => .error err
    | .ok (bs, st) =>
      if bs.length = 0 ∨ buf.length + bs.length = bufSize then .ok (buf ++ bs, st)
      else fillBuf os fuel st (buf ++ bs)

/-- The name that decides whether a block is worth compressing. -/
def blockName (j : TransferJob σ) : String :=
  match j.dataSource with
  | .filePath p =>
    match j.files.entries[asUsize j.fileNum]? with
    | some entry => if j.numFiles = 1 ∧ entry.name = "" then fileName p else entry.name
    | none => ""
  | .memoryCursor _ => ""

def isFilePath (j : TransferJob σ) : Bool :=
  match j.dataSource with
  | .filePath _ => true
  | .memoryCursor _ => false

/-- The block made of the bytes read, compressed if that is shorter. -/
def packBlock (compress : Bytes → Bytes) (j : TransferJob σ) (buf : Bytes) : FileTransferBlock :=
  if j.isFilePath && !isCompressedFile j.blockName && decide ((compress buf).length < buf.length) then
    ⟨j.id, j.fileNum, compress buf, true⟩
  else ⟨j.id, j.fileNum, buf, false⟩

/-- The part of `read` after its early returns: one buffer from the stream. -/
def readBlock (compress : Bytes → Bytes) (os : Os σ) (j : TransferJob σ) :
    TransferJob σ × Except String (Option FileTransferBlock) :=
  match j.dataStream with
  | none => (j, .error "data stream is None")
  | some st =>
    match fillBuf os bufSize st [] with
    | .error err =>
      ({ j with
         fileNum := i32Succ j.fileNum
         dataStream := none
         fileConfirmed := false
         fileIsWaiting := false
         log := j.logEnd (.failed err) }, .error err)
    | .ok (buf, st) =>
      if buf.length = 0 then
        if j.isFilePath then
          ({ j with
             fileNum := i32Succ j.fileNum
             dataStream := none
             fileConfirmed := false
             fileIsWaiting := false
             log := j.logEnd .eof }, .ok (some ⟨j.id, j.fileNum, [], false⟩))
        else ({ j with dataStream := none }, .ok none)
      else
        ({ j with
           dataStream := some st
           finishedSize := j.finishedSize + buf.length
           transferred := j.transferred + (packBlock compress j buf).data.length },
         .ok (some (packBlock compress j buf)))

def read (compress : Bytes → Bytes) (os : Os σ) (j : TransferJob σ) :
    TransferJob σ × Except String (Option FileTransferBlock) :=
  if j.type == .generic && j.enableOverwriteDetection && !j.fileConfirmed then (j, .ok none)
  else if j.isFilePath && decide (j.numFiles ≤ asUsize j.fileNum) then
    ({ j with dataStream := none }, .ok none)
  else readBlock compress os j

end TransferJob

open TransferJob

/-! ### The tick -/

structure JobLog (σ : Type) where
  job : TransferJob σ
  done : Bool
  cancel : Bool
  error : String

def removeJob (id : ℤ) (jobs : List (TransferJob σ)) : List (TransferJob σ) :=
  jobs.eraseP (·.id == id)

def getJob (id : ℤ) (jobs : List (TransferJob σ)) : Option (TransferJob σ) :=
  jobs.find? (·.id == id)

/-- The jobs afterwards, the messages that went out, and the result. -/
def initJobs (os : Os σ) (send : Send) :
    List (TransferJob σ) → List (TransferJob σ) × List FileResponse × Except String Unit
  | [] => ([], [], .ok ())
  | j :: js =>
    if j.isLastJob then
      let (js', sent, res) := initJobs os send js
      (j :: js', sent, res)
    else
      match initDataStream os send j with
      | (j, sent, .ok ()) =>
        let (js', sent', res) := initJobs os send js
        (j :: js', sent ++ sent', res)
      | (j, sent, .error err) =>
        match send (.error j.id err j.fileNum) with
        | .error e => (j :: js, sent, .error e)
        | .ok () =>
          let (js', sent', res) := initJobs os send js
          (j :: js', sent ++ .error j.id err j.fileNum :: sent', res)

/-- What the reading loop of a tick did: the jobs, the message that went out,
the id it pushed to `finished`, the log of the finished job, the result. -/
structure Served (σ : Type) where
  jobs : List (TransferJob σ)
  sent : List FileResponse
  finished : Option ℤ
  jobLog : Option (JobLog σ)
  res : Except String Unit

def sendOne (send : Send) (m : FileResponse) : List FileResponse × Except String Unit :=
  match send m with
  | .ok () => ([m], .ok ())
  | .error err => ([], .error err)

/-- The body of the reading loop on one job, as `match job.read().await`. -/
def serve (compress : Bytes → Bytes) (os : Os σ) (send : Send)
    (j : TransferJob σ) : TransferJob σ × List FileResponse × Option ℤ × Option (JobLog σ) ×
      Except String Unit :=
  match j.read compress os with
  | (j, .error err) =>
    let (sent, res) := sendOne send (.error j.id err j.fileNum)
    (j, sent, none, none, res)
  | (j, .ok (some block)) =>
    let (sent, res) := sendOne send (.block block)
    (j, sent, none, none, res)
  | (j, .ok none) =>
    if j.jobCompleted then
      match j.jobError with
      | some err =>
        let (sent, res) := sendOne send (.error j.id err j.fileNum)
        (j, sent, some j.id, some ⟨j, false, false, err⟩, res)
      | none =>
        let (sent, res) := sendOne send (.done j.id j.fileNum)
        (j, sent, some j.id, some ⟨j, true, false, ""⟩, res)
    else (j, [], none, none, .ok ())

/-- The reading loop: jobs are handled one by one, so it ends with the first
job that is not a stored one. -/
def readFirst (compress : Bytes → Bytes) (os : Os σ) (send : Send) : List (TransferJob σ) → Served σ
  | [] => ⟨[], [], none, none, .ok ()⟩
  | j :: js =>
    if j.isLastJob then
      let r := readFirst compress os send js
      { r with jobs := j :: r.jobs }
    else
      let (j, sent, finished, jobLog, res) := serve compress os send j
      ⟨j :: js, sent, finished, jobLog, res⟩

/-- The result of a tick: the jobs, the messages that went out, the job
removed, and the job log. -/
structure Tick (σ : Type) where
  jobs : List (TransferJob σ)
  sent : List FileResponse
  removed : Option (TransferJob σ)
  res : Except String (Option (JobLog σ))

def handleReadJobs (compress : Bytes → Bytes) (os : Os σ) (send : Send)
    (jobs : List (TransferJob σ)) : Tick σ :=
  match initJobs os send jobs with
  | (jobs, sent, .error err) => ⟨jobs, sent, none, .error err⟩
  | (jobs, sent, .ok ()) =>
    let r := readFirst compress os send jobs
    match r.res with
    | .error err => ⟨r.jobs, sent ++ r.sent, none, .error err⟩
    | .ok () =>
      match r.finished with
      | none => ⟨r.jobs, sent ++ r.sent, none, .ok r.jobLog⟩
      | some jid => ⟨removeJob jid r.jobs, sent ++ r.sent, getJob jid r.jobs, .ok r.jobLog⟩

/-- A confirm goes to the first job with its id; `None` is a panic. -/
def confirmJobs (os : Os σ) (r : SendConfirmRequest) :
    List (TransferJob σ) → Option (List (TransferJob σ))
  | [] => some []
  | j :: js =>
    if j.id = r.id then (j.confirm os r).map (· :: js) else (confirmJobs os r js).map (j :: ·)

def setFinishedSizeOnResume (j : TransferJob σ) : TransferJob σ :=
  if j.isResume && decide (0 < j.fileNum) then
    { j with finishedSize := ((j.files.entries.take (asUsize j.fileNum)).map (·.size)).sum }
  else j

/-- `Data::ResumeJob` for a read job: a stored job becomes an active one. -/
def resumeJobs (jid : ℤ) : List (TransferJob σ) → List (TransferJob σ)
  | [] => []
  | j :: js =>
    if j.id = jid then
      if j.isFilePath then
        setFinishedSizeOnResume { j with isLastJob := false, isResume := true } :: js
      else j :: js
    else j :: resumeJobs jid js

/-- The read jobs of a connection, with the jobs added, what it sent, the
confirms it got and the jobs its ticks removed so far. The connection ends
with the first error of a tick, and with a panic. -/
structure Sys (σ : Type) where
  jobs : List (TransferJob σ)
  added : List (TransferJob σ)
  sent : List FileResponse
  confirms : List SendConfirmRequest
  removed : List (TransferJob σ)
  closed : Bool

inductive Input (σ : Type) where
  /-- A new job, by `Data::SendFiles` or the peer's request, or a stored one,
  by `Data::AddJob`. -/
  | add (isLastJob : Bool) (id : ℤ) (type : JobType) (dataSource : DataSource) (fileNum : ℤ)
      (files : FileList) (enableOverwriteDetection : Bool)
  | resume (id : ℤ)
  | cancel (id : ℤ)
  | tick (os : Os σ) (send : Send)
  | confirm (os : Os σ) (r : SendConfirmRequest)

def Sys.start : Sys σ := ⟨[], [], [], [], [], false⟩

def Sys.step (compress : Bytes → Bytes) (s : Sys σ) (i : Input σ) : Sys σ :=
  if s.closed then s
  else
    match i with
    | .add isLastJob jid type dataSource fileNum files detection =>
      let j := { newRead jid type dataSource fileNum files detection with isLastJob := isLastJob }
      { s with jobs := s.jobs ++ [j], added := s.added ++ [j] }
    | .resume jid => { s with jobs := resumeJobs jid s.jobs }
    | .cancel jid => { s with jobs := removeJob jid s.jobs }
    | .tick os send =>
      let t := handleReadJobs compress os send s.jobs
      { s with
        jobs := t.jobs
        sent := s.sent ++ t.sent
        removed := s.removed ++ t.removed.toList
        closed := !t.res.isOk }
    | .confirm os r =>
      match confirmJobs os r s.jobs with
      | some jobs => { s with jobs := jobs, confirms := s.confirms ++ [r] }
      | none => { s with closed := true }

end CodeDesk.Fs
