/-
# Read jobs in the connection manager

On Windows a connection hands the reading of files to the connection manager
(`start_read_job` and `handle_read_jobs_tick` of `src/ui_cm_interface.rs`) and
relays: the client's confirms and cancels go there as `SendConfirmForRead` and
`CancelRead`, and what comes back goes to the client as long as the id of the
job is in `cm_read_job_ids` (`src/server/connection.rs`). Elsewhere it runs the
job itself (`create_and_start_read_job`, `handle_read_jobs`, `confirm`). The
comments ask to keep the two in sync.

`Direct` is the second way and `Split` the first, with a queue in each direction
between its two processes, for one request of a client. `Split.events` says what
the manager did at a step, as an event of the direct way.

They differ in three ways. An error about a file ends the job in the manager,
while the direct job goes on with the next file. A confirm is applied to the file
the job is at, whatever file it names, and one that names neither skip nor offset
is taken for offset 0. A request that is refused at the start is answered with
another text or file number. Apart from these (`Regular`) the client gets what it
would get from the direct job (`delegated_eq`), whatever the interleaving.
-/
import CodeDesk.Fs.ReadRuns
import CodeDesk.Fs.Share

namespace CodeDesk.Fs.Delegation

open TransferJob (newRead openDataStream getCurrentDigest initDataStream)

variable {σ : Type}

inductive ClientMsg where
  | dir (id : ℤ) (path : String) (entries : List FileEntry)
  | response (r : FileResponse)
  deriving DecidableEq, Repr

/-- `FileTransferSendRequest`, with the result of `can_enable_overwrite_detection`. -/
structure Request where
  id : ℤ
  path : String
  fileNum : ℤ
  overwriteDetection : Bool
  deriving DecidableEq, Repr

def Request.job (q : Request) (files : FileList) : TransferJob σ :=
  newRead q.id .generic (.filePath q.path) q.fileNum files q.overwriteDetection

def checkFileCountLimit (maxFiles fileCount : ℕ) : Option String :=
  if maxFiles < fileCount then
    some ("file transfer rejected: too many files (" ++ toString fileCount ++
      " files exceeds limit of " ++ toString maxFiles ++
      "). Adjust 'file-transfer-max-files' option to increase limit.")
  else none

/-- What happens to a job, and what the operating system says to it. `scan` is
the result of listing the files. -/
inductive Event (σ : Type) where
  | start (scan : Except String FileList)
  | tick (os : Os σ)
  | confirm (os : Os σ) (r : SendConfirmRequest)
  | cancel (id : ℤ)

section

variable (compress : Bytes → Bytes) (maxFiles : ℕ) (q : Request)

/-! ### The job in the connection -/

structure Direct (σ : Type) where
  jobs : List (TransferJob σ) := []
  sent : List ClientMsg := []
  /-- The task has panicked. -/
  closed : Bool := false

namespace Direct

def start (scan : Except String FileList) (d : Direct σ) : Direct σ :=
  match scan with
  | .error err => { d with sent := d.sent ++ [.response (.error q.id err 0)] }
  | .ok files =>
    match checkFileCountLimit maxFiles files.entries.length with
    | some msg => { d with sent := d.sent ++ [.response (.error q.id msg (-1))] }
    | none =>
      { d with
        jobs := d.jobs ++ [q.job files]
        sent := d.sent ++ [.dir q.id q.path files.entries] }

def tick (os : Os σ) (d : Direct σ) : Direct σ :=
  let t := handleReadJobs compress os (fun _ => .ok ()) d.jobs
  { d with jobs := t.jobs, sent := d.sent ++ t.sent.map .response }

def step (d : Direct σ) (e : Event σ) : Direct σ :=
  if d.closed then d
  else
    match e with
    | .start scan => d.start maxFiles q scan
    | .tick os => d.tick compress os
    | .confirm os r =>
      match confirmJobs os r d.jobs with
      | some jobs => { d with jobs := jobs }
      | none => { d with closed := true }
    | .cancel id => { d with jobs := removeJob id d.jobs }

end Direct

/-! ### The job in the manager -/

inductive CmData where
  | readJobInitResult (id : ℤ) (result : Except String (String × List FileEntry))
  | fileBlockFromCM (b : FileTransferBlock)
  | fileReadDone (id fileNum : ℤ)
  | fileReadError (id fileNum : ℤ) (err : String)
  | fileDigestFromCM (id fileNum : ℤ) (lastModified fileSize : ℕ) (isResume : Bool)

def startReadJob (scan : Except String FileList) (jobs : List (TransferJob σ)) :
    List (TransferJob σ) × CmData :=
  match scan with
  | .error err => (jobs, .readJobInitResult q.id (.error ("validation failed: " ++ err)))
  | .ok files =>
    match checkFileCountLimit maxFiles files.entries.length with
    | some msg => (jobs, .readJobInitResult q.id (.error msg))
    | none => (jobs ++ [q.job files], .readJobInitResult q.id (.ok (q.path, files.entries)))

/-- The digest to be sent, if there is one. -/
def initDataStreamForCm (os : Os σ) (j : TransferJob σ) :
    TransferJob σ × Except String (Option (ℕ × ℕ)) :=
  match openDataStream os j with
  | (j, .error err) => (j, .error err)
  | (j, .ok true) => (j, .ok none)
  | (j, .ok false) =>
    if j.asksPeer then
      match getCurrentDigest os j with
      | .error err => (j, .error err)
      | .ok digest => (j.setFileIsWaiting true, .ok (some digest))
    else (j, .ok none)

def digestForCm (j : TransferJob σ) : Option (ℕ × ℕ) → List CmData
  | some (lastModified, fileSize) =>
    [.fileDigestFromCM j.id j.fileNum lastModified fileSize j.isResume]
  | none => []

/-- `match job.read().await` in a tick of the manager, and whether it is the end
of the job. -/
def readForCm (os : Os σ) (j : TransferJob σ) : TransferJob σ × List CmData × Bool :=
  match j.read compress os with
  | (j, .error err) => (j, [.fileReadError j.id j.fileNum err], true)
  | (j, .ok (some block)) => (j, [.fileBlockFromCM block], false)
  | (j, .ok none) =>
    if j.jobCompleted then
      match j.jobError with
      | some err => (j, [.fileReadError j.id j.fileNum err], true)
      | none => (j, [.fileReadDone j.id j.fileNum], true)
    else (j, [], false)

/-- The loop of a tick: the jobs, the messages and the ids in `finished`. An
error of the initialisation goes on with the next job. -/
def tickLoop (os : Os σ) :
    List (TransferJob σ) → List (TransferJob σ) × List CmData × List ℤ
  | [] => ([], [], [])
  | j :: js =>
    if j.isLastJob then
      (j :: (tickLoop os js).1, (tickLoop os js).2)
    else
      match initDataStreamForCm os j with
      | (j, .error err) =>
        (j :: (tickLoop os js).1, .fileReadError j.id j.fileNum err :: (tickLoop os js).2.1,
          j.id :: (tickLoop os js).2.2)
      | (j, .ok digest) =>
        ((readForCm compress os j).1 :: js, digestForCm j digest ++ (readForCm compress os j).2.1,
          if (readForCm compress os j).2.2 then [(readForCm compress os j).1.id] else [])

def handleReadJobsTick (os : Os σ) (jobs : List (TransferJob σ)) :
    List (TransferJob σ) × List CmData :=
  ((tickLoop compress os jobs).2.2.foldl (fun jobs id => removeJob id jobs)
      (tickLoop compress os jobs).1,
    (tickLoop compress os jobs).2.1)

def skip (r : SendConfirmRequest) : Bool := r.union = some (.skip true)

def offsetBlk (r : SendConfirmRequest) : ℕ :=
  match r.union with
  | some (.offsetBlk offset) => offset
  | _ => 0

/-- What `SendConfirmForRead` makes of a confirm for job `j`. -/
def relayed (r : SendConfirmRequest) (j : TransferJob σ) : SendConfirmRequest :=
  ⟨r.id, j.fileNum, if skip r then some (.skip true) else some (.offsetBlk (offsetBlk r))⟩

def confirmForRead (os : Os σ) (r : SendConfirmRequest) :
    List (TransferJob σ) → Option (List (TransferJob σ))
  | [] => some []
  | j :: js =>
    if j.id = r.id then (j.confirm os (relayed r j)).map (· :: js)
    else (confirmForRead os r js).map (j :: ·)

/-! ### The two processes -/

/-- What the connection sends to the manager. `SendConfirmForRead` has the id,
the file number, `skip` and `offset_blk` of the confirm. -/
inductive FsMsg where
  | readFile
  | cancelRead (id : ℤ)
  | sendConfirmForRead (r : SendConfirmRequest)

structure Split (σ : Type) where
  cmReadJobIds : List ℤ
  toCm : List FsMsg
  toConn : List CmData := []
  jobs : List (TransferJob σ) := []
  received : List ClientMsg := []
  /-- The task of the manager has panicked. -/
  closed : Bool := false

inductive Act (σ : Type) where
  /-- A message of the client comes to the connection. -/
  | confirm (r : SendConfirmRequest)
  | cancel (id : ℤ)
  /-- The manager takes the next message of the connection. -/
  | cmReceive (scan : Except String FileList) (os : Os σ)
  | cmTick (os : Os σ)
  /-- The connection takes the next message of the manager. -/
  | connReceive

namespace CmData

def id : CmData → ℤ
  | readJobInitResult id _ => id
  | fileBlockFromCM b => b.id
  | fileReadDone id _ => id
  | fileReadError id _ _ => id
  | fileDigestFromCM id _ _ _ _ => id

def msg : CmData → ClientMsg
  | readJobInitResult id (.error err) => .response (.error id err 0)
  | readJobInitResult id (.ok (path, entries)) => .dir id path entries
  | fileBlockFromCM b => .response (.block b)
  | fileReadDone id fileNum => .response (.done id fileNum)
  | fileReadError id fileNum err => .response (.error id err fileNum)
  | fileDigestFromCM id fileNum lastModified fileSize isResume =>
    .response (.digest id fileNum lastModified fileSize isResume)

def ends : CmData → Bool
  | readJobInitResult _ (.error _) => true
  | fileReadDone _ _ => true
  | fileReadError _ _ _ => true
  | _ => false

end CmData

namespace Split

def start : Split σ := { cmReadJobIds := [q.id], toCm := [.readFile] }

/-- `handle_read_job_init_result`, `handle_file_block_from_cm`,
`handle_file_read_done`, `handle_file_read_error` and
`handle_file_digest_from_cm`. -/
def handle (m : CmData) (s : Split σ) : Split σ :=
  if m.id ∈ s.cmReadJobIds then
    { s with
      received := s.received ++ [m.msg]
      cmReadJobIds := if m.ends then s.cmReadJobIds.filter (· ≠ m.id) else s.cmReadJobIds }
  else s

def handleFs (scan : Except String FileList) (os : Os σ) (s : Split σ) : FsMsg → Split σ
  | .readFile =>
    { s with
      jobs := (startReadJob maxFiles q scan s.jobs).1
      toConn := s.toConn ++ [(startReadJob maxFiles q scan s.jobs).2] }
  | .cancelRead id => { s with jobs := removeJob id s.jobs }
  | .sendConfirmForRead r =>
    match confirmForRead os r s.jobs with
    | some jobs => { s with jobs := jobs }
    | none => { s with closed := true }

def step (s : Split σ) : Act σ → Split σ
  | .confirm r =>
    if r.id ∈ s.cmReadJobIds then { s with toCm := s.toCm ++ [.sendConfirmForRead r] } else s
  | .cancel id =>
    { s with
      cmReadJobIds := s.cmReadJobIds.filter (· ≠ id)
      toCm := s.toCm ++ [.cancelRead id] }
  | .cmReceive scan os =>
    match s.toCm with
    | [] => s
    | m :: rest => if s.closed then s else handleFs maxFiles q scan os { s with toCm := rest } m
  | .cmTick os =>
    if s.closed then s
    else
      { s with
        jobs := (handleReadJobsTick compress os s.jobs).1
        toConn := s.toConn ++ (handleReadJobsTick compress os s.jobs).2 }
  | .connReceive =>
    match s.toConn with
    | [] => s
    | m :: rest => handle m { s with toConn := rest }

/-- What the manager does at a step, as events of the direct job. -/
def events (s : Split σ) : Act σ → List (Event σ)
  | .cmReceive scan os =>
    match s.toCm with
    | [] => []
    | m :: _ =>
      if s.closed then []
      else
        match m with
        | .readFile => [.start scan]
        | .cancelRead id => [.cancel id]
        | .sendConfirmForRead r => [.confirm os r]
  | .cmTick os => if s.closed then [] else [.tick os]
  | _ => []

end Split

def Unfailing (os : Os σ) (j : TransferJob σ) : Prop :=
  (initDataStreamForCm os j).2.isOk = true ∧
    ((initDataStreamForCm os j).1.read compress os).2.isOk = true

/-- No error about the files, and confirms for the file the job is at. -/
def Regular (s : Split σ) : Act σ → Prop
  | .cmReceive scan _ =>
    match s.toCm with
    | .readFile :: _ => ∃ files, scan = .ok files ∧ files.entries.length ≤ maxFiles
    | .sendConfirmForRead r :: _ =>
      ∀ j ∈ getJob r.id s.jobs, j.fileNum = r.fileNum ∧ r.union ≠ none
    | _ => True
  | .cmTick os => ∀ j ∈ s.jobs, Unfailing compress os j
  | _ => True

end

/-! ### One tick -/

variable {compress : Bytes → Bytes} {maxFiles : ℕ} {q : Request} {os : Os σ} {j j' : TransferJob σ}

variable {digest : Option (ℕ × ℕ)} {r : SendConfirmRequest} {jobs : List (TransferJob σ)}
  {s : Split σ}

theorem initDataStream_of_cm (compress : Bytes → Bytes)
    (h : initDataStreamForCm os j = (j', .ok digest)) :
    (∃ out, initDataStream os (fun _ => .ok ()) j = (j', out, .ok ()) ∧
      out.map .response = (digestForCm j' digest).map (·.msg)) ∧
    (digest ≠ none → readForCm compress os j' = (j', [], false)) := by
  unfold initDataStreamForCm at h
  unfold initDataStream
  generalize openDataStream os j = opened at h ⊢
  rcases opened with ⟨j₁, err | _ | _⟩
  · simp at h
  · dsimp only at h ⊢
    by_cases ha : j₁.asksPeer = true
    · rw [if_pos ha] at h ⊢
      unfold TransferJob.sendCurrentDigest
      generalize getCurrentDigest os j₁ = current at h ⊢
      rcases current with err | ⟨lastModified, fileSize⟩
      · simp at h
      obtain ⟨rfl, rfl⟩ :
          j₁.setFileIsWaiting true = j' ∧ some (lastModified, fileSize) = digest := by
        simpa using h
      refine ⟨⟨_, rfl, rfl⟩, fun _ => ?_⟩
      -- the read that follows waits for the confirm
      simp only [TransferJob.asksPeer, Bool.and_eq_true, beq_iff_eq, Bool.not_eq_true'] at ha
      obtain ⟨⟨⟨htype, hdetect⟩, hconfirmed⟩, -⟩ := ha
      simp [readForCm, TransferJob.read, TransferJob.setFileIsWaiting, htype, hdetect, hconfirmed,
        TransferJob.jobCompleted]
    · rw [if_neg ha] at h ⊢
      cases h
      exact ⟨⟨_, rfl, rfl⟩, absurd rfl⟩
  · cases h
    exact ⟨⟨_, rfl, rfl⟩, absurd rfl⟩

theorem serve_of_cm (h : (j.read compress os).2.isOk = true) :
    ∃ out log, serve compress os (fun _ => .ok ()) j = ((readForCm compress os j).1, out,
          if (readForCm compress os j).2.2 then some (readForCm compress os j).1.id else none, log,
          .ok ()) ∧
      out.map .response = (readForCm compress os j).2.1.map (·.msg) := by
  unfold serve readForCm sendOne
  generalize j.read compress os = result at h ⊢
  rcases result with ⟨j₁, err | _ | block⟩
  · cases h
  · dsimp only
    split
    · cases j₁.jobError <;> exact ⟨_, _, rfl, rfl⟩
    · exact ⟨_, _, rfl, rfl⟩
  · exact ⟨_, _, rfl, rfl⟩

theorem readForCm_spec (h : (j.read compress os).2.isOk = true) :
    (readForCm compress os j).1.task = j.task ∧
    (∀ m ∈ (readForCm compress os j).2.1, m.id = j.id) ∧
    ((readForCm compress os j).2.2 = false ∧ (readForCm compress os j).2.1.length ≤ 1 ∧
        (∀ m ∈ (readForCm compress os j).2.1, m.ends = false) ∨
      (readForCm compress os j).2.2 = true ∧
        ∃ m, (readForCm compress os j).2.1 = [m] ∧ m.ends = true) := by
  have htask := read_task compress os j
  unfold readForCm
  rcases hr : j.read compress os with ⟨j₁, err | _ | block⟩
  · rw [hr] at h
    cases h
  · rw [hr] at htask
    have hid : j₁.id = j.id := TransferJob.id_eq_of_task htask
    dsimp only
    split
    · cases j₁.jobError with
      | none | some => exact ⟨htask, by simp [CmData.id, hid], .inr ⟨rfl, _, rfl, rfl⟩⟩
    · exact ⟨htask, nofun, .inl ⟨rfl, by simp, nofun⟩⟩
  · rw [hr] at htask
    have hid : block.id = j.id := (read_names hr).1
    exact ⟨htask, by simp [CmData.id, hid], .inl ⟨rfl, by simp, by simp [CmData.ends]⟩⟩

/-- What a tick of the manager sends for a job: its digest or what was read, not both, and
the job ends with a message that says so. -/
theorem tickData_spec {j₁ j₂ : TransferJob σ} {data : List CmData} {fin : Bool}
    (hi : initDataStreamForCm os j = (j₁, .ok digest)) (hread : (j₁.read compress os).2.isOk = true)
    (hr : readForCm compress os j₁ = (j₂, data, fin)) :
    j₂.task = j₁.task ∧ (digestForCm j₁ digest ++ data).length ≤ 1 ∧
      (∀ m ∈ digestForCm j₁ digest ++ data, m.id = j₁.id) ∧
      (fin = false ∧ (∀ m ∈ digestForCm j₁ digest ++ data, m.ends = false) ∨
        fin = true ∧ ∃ m, digestForCm j₁ digest ++ data = [m] ∧ m.ends = true) := by
  have hspec := readForCm_spec hread
  rw [hr] at hspec
  obtain ⟨htask, hids, hends⟩ := hspec
  cases digest with
  | none =>
    refine ⟨htask, ?_, hids, hends.imp_left fun h => ⟨h.1, h.2.2⟩⟩
    rcases hends with ⟨-, hl, -⟩ | ⟨-, m, rfl, -⟩
    · exact hl
    · exact Nat.le_refl 1
  | some =>
    obtain ⟨rfl, rfl, rfl⟩ : j₁ = j₂ ∧ [] = data ∧ false = fin := by
      simpa using ((initDataStream_of_cm compress hi).2 nofun).symm.trans hr
    simp [digestForCm, CmData.id, CmData.ends]

/-- A tick of the manager and one of the connection do the same to a job none of
whose files fails: the same job is left, the same message goes out, at most one,
and the job is over exactly if the message says so. -/
theorem tick_single (hlast : j.isLastJob = false) (hu : Unfailing compress os j) :
    ∃ jobs data, handleReadJobsTick compress os [j] = (jobs, data) ∧
      (handleReadJobs compress os (fun _ => .ok ()) [j]).jobs = jobs ∧
      (handleReadJobs compress os (fun _ => .ok ()) [j]).sent.map .response = data.map (·.msg) ∧
      data.length ≤ 1 ∧ (∀ m ∈ data, m.id = j.id) ∧
      ((∃ j', jobs = [j'] ∧ j'.task = j.task ∧ ∀ m ∈ data, m.ends = false) ∨
        jobs = [] ∧ ∃ m, data = [m] ∧ m.ends = true) := by
  obtain ⟨hinit, hread⟩ := hu
  rcases hi : initDataStreamForCm os j with ⟨j₁, err | digest⟩
  · rw [hi] at hinit
    cases hinit
  rw [hi] at hread
  obtain ⟨⟨out₁, hdirect, hout₁⟩, -⟩ := initDataStream_of_cm compress hi
  obtain ⟨out₂, log, hserve, hout₂⟩ := serve_of_cm hread
  have htask₁ : j₁.task = j.task := initDataStream_task hdirect
  have hlast₁ : j₁.isLastJob = false := (TransferJob.isLastJob_eq_of_task htask₁).trans hlast
  rcases hr : readForCm compress os j₁ with ⟨j₂, data, fin⟩
  rw [hr] at hserve hout₂
  obtain ⟨htask, hone, hids, hends⟩ := tickData_spec hi hread hr
  have hcm : tickLoop compress os [j] =
      ([j₂], digestForCm j₁ digest ++ data, if fin then [j₂.id] else []) := by
    simp [tickLoop, hlast, hi, hr]
  refine ⟨if fin then [] else [j₂], digestForCm j₁ digest ++ data, ?_, ?_, ?_, hone,
    fun m hm => (hids m hm).trans (TransferJob.id_eq_of_task htask₁), ?_⟩
  · rw [handleReadJobsTick, hcm]
    cases fin <;> simp [removeJob]
  · simp only [handleReadJobs, initJobs, hlast, Bool.false_eq_true, if_false, hdirect, readFirst,
      hlast₁, hserve]
    cases fin <;> simp [removeJob]
  · simp only [handleReadJobs, initJobs, hlast, Bool.false_eq_true, if_false, hdirect, readFirst,
      hlast₁, hserve]
    cases fin <;> simp [hout₁, hout₂]
  · rcases hends with ⟨rfl, hno⟩ | ⟨rfl, hm⟩
    · exact .inl ⟨j₂, rfl, htask.trans htask₁, hno⟩
    · exact .inr ⟨rfl, hm⟩

theorem confirm_relayed (hn : j.fileNum = r.fileNum)
    (hu : r.union ≠ none) : j.confirm os (relayed r j) = j.confirm os r := by
  obtain ⟨id, fileNum, union⟩ := r
  obtain rfl : j.fileNum = fileNum := hn
  rcases union with _ | ⟨_ | _⟩ | offset
  · exact absurd rfl hu
  · rfl
  · rfl
  · rfl

theorem confirmForRead_eq (h : ∀ j ∈ getJob r.id jobs, j.fileNum = r.fileNum ∧ r.union ≠ none) :
    confirmForRead os r jobs = confirmJobs os r jobs := by
  induction jobs with
  | nil => rfl
  | cons j js ih =>
    unfold confirmForRead confirmJobs
    by_cases hid : j.id = r.id
    · have hj := h j (by simp [getJob, hid])
      rw [if_pos hid, if_pos hid, confirm_relayed hj.1 hj.2]
    · rw [if_neg hid, if_neg hid, ih fun i hi => h i (by simpa [getJob, hid] using hi)]

/-! ### The two ways in step -/

/-- Messages that neither start the job nor cancel it. -/
def Calm (q : Request) (ms : List FsMsg) : Prop := ∀ m ∈ ms, m ≠ .readFile ∧ m ≠ .cancelRead q.id

/-- How far the job is, as long as the client has not cancelled it: the manager
has not heard of it, it runs, its last message is on the way to the connection,
or that message has come. -/
inductive Stage (q : Request) (s : Split σ) : Prop where
  | waiting {rest : List FsMsg} (toCm : s.toCm = .readFile :: rest) (calm : Calm q rest)
      (jobs : s.jobs = []) (toConn : s.toConn = []) (ids : s.cmReadJobIds = [q.id])
  | running {j : TransferJob σ} (calm : Calm q s.toCm) (jobs : s.jobs = [j]) (hid : j.id = q.id)
      (hlast : j.isLastJob = false) (toConn : ∀ m ∈ s.toConn, m.ends = false)
      (ids : s.cmReadJobIds = [q.id])
  | ending {before : List CmData} {m : CmData} (calm : Calm q s.toCm) (jobs : s.jobs = [])
      (toConn : s.toConn = before ++ [m]) (hbefore : ∀ m ∈ before, m.ends = false)
      (hm : m.ends = true) (ids : s.cmReadJobIds = [q.id])
  | finished (calm : Calm q s.toCm) (jobs : s.jobs = []) (toConn : s.toConn = [])
      (ids : s.cmReadJobIds = [])

/-- The manager has the jobs of the direct way, and what that has sent has come
to the client or is on its way. -/
structure Sync (q : Request) (s : Split σ) (d : Direct σ) : Prop where
  jobs : d.jobs = s.jobs
  closed : d.closed = s.closed
  sent : d.sent = s.received ++ s.toConn.map (·.msg)
  names : ∀ m ∈ s.toConn, m.id = q.id
  stage : Stage q s

variable {m : FsMsg}

theorem Calm.push {ms : List FsMsg} (h : Calm q ms) (hr : m ≠ .readFile)
    (hc : m ≠ .cancelRead q.id) : Calm q (ms ++ [m]) :=
  List.forall_mem_append.2 ⟨h, List.forall_mem_singleton.2 ⟨hr, hc⟩⟩

namespace Stage

variable {s s' : Split σ}

variable (h : Stage q s)

include h

theorem waiting_or_calm :
    (∃ rest, s.toCm = .readFile :: rest ∧ Calm q rest ∧ s.jobs = [] ∧ s.toConn = [] ∧
      s.cmReadJobIds = [q.id]) ∨ Calm q s.toCm := by
  cases h with
  | waiting toCm calm jobs toConn ids => exact .inl ⟨_, toCm, calm, jobs, toConn, ids⟩
  | running calm | ending calm | finished calm => exact .inr calm

theorem push (hr : m ≠ .readFile) (hc : m ≠ .cancelRead q.id) :
    Stage q { s with toCm := s.toCm ++ [m] } := by
  cases h with
  | waiting toCm calm jobs toConn ids =>
    exact waiting (by rw [toCm, List.cons_append]) (calm.push hr hc) jobs toConn ids
  | running calm jobs hid hlast toConn ids =>
    exact running (calm.push hr hc) jobs hid hlast toConn ids
  | ending calm jobs toConn hbefore hm ids =>
    exact ending (calm.push hr hc) jobs toConn hbefore hm ids
  | finished calm jobs toConn ids => exact finished (calm.push hr hc) jobs toConn ids

theorem pop {rest : List FsMsg} (hm : s.toCm = m :: rest) (hr : m ≠ .readFile)
    (hcm : s'.toCm = rest) (hjobs : s'.jobs.map (·.task) = s.jobs.map (·.task))
    (hconn : s'.toConn = s.toConn) (hids : s'.cmReadJobIds = s.cmReadJobIds) : Stage q s' := by
  have htail : Calm q s.toCm → Calm q s'.toCm := fun h m' hm' =>
    h m' (by rw [hm, ← hcm]; exact List.mem_cons_of_mem _ hm')
  have hnil : s.jobs = [] → s'.jobs = [] := fun h => by
    rw [h, List.map_nil] at hjobs
    exact List.map_eq_nil_iff.1 hjobs
  cases h with
  | waiting toCm =>
    rw [hm] at toCm
    exact absurd (List.cons.inj toCm).1 hr
  | running calm jobs hid hlast toConn ids =>
    rw [jobs, List.map_cons, List.map_nil] at hjobs
    obtain ⟨j', hj', htask⟩ := List.map_eq_singleton_iff.1 hjobs
    exact running (htail calm) hj' ((TransferJob.id_eq_of_task htask).trans hid)
      ((TransferJob.isLastJob_eq_of_task htask).trans hlast) (hconn ▸ toConn) (hids.trans ids)
  | ending calm jobs toConn hbefore hm ids =>
    exact ending (htail calm) (hnil jobs) (hconn.trans toConn) hbefore hm (hids.trans ids)
  | finished calm jobs toConn ids =>
    exact finished (htail calm) (hnil jobs) (hconn.trans toConn) (hids.trans ids)

theorem cancels_other {id : ℤ} {rest : List FsMsg}
    (hm : s.toCm = .cancelRead id :: rest) : id ≠ q.id := by
  rintro rfl
  rcases h.waiting_or_calm with ⟨rest', hread, -⟩ | calm
  · simp [hm] at hread
  · exact (calm (.cancelRead q.id) (by rw [hm]; exact List.mem_cons_self)).2 rfl

theorem idle_or_running :
    s.jobs = [] ∨ ∃ j, Calm q s.toCm ∧ s.jobs = [j] ∧ j.id = q.id ∧ j.isLastJob = false ∧
      (∀ m ∈ s.toConn, m.ends = false) ∧ s.cmReadJobIds = [q.id] := by
  cases h with
  | waiting _ _ jobs | ending _ jobs | finished _ jobs => exact .inl jobs
  | running calm jobs hid hlast toConn ids =>
    exact .inr ⟨_, calm, jobs, hid, hlast, toConn, ids⟩

theorem id_of_mem : ∀ j ∈ s.jobs, j.id = q.id := by
  rcases h.idle_or_running with jobs | ⟨j, -, jobs, hid, -⟩
  · simp [jobs]
  · simpa [jobs] using hid

theorem ids_subset : s.cmReadJobIds = [q.id] ∨ s.cmReadJobIds = [] := by
  cases h with
  | waiting _ _ _ _ ids | running _ _ _ _ _ ids | ending _ _ _ _ _ ids => exact .inl ids
  | finished calm jobs toConn ids => exact .inr ids

end Stage

theorem confirmJobs_task :
    ∀ {jobs jobs' : List (TransferJob σ)}, confirmJobs os r jobs = some jobs' →
      jobs'.map (·.task) = jobs.map (·.task)
  | [], jobs', h => by
    obtain rfl : [] = jobs' := Option.some.inj h
    rfl
  | j :: js, jobs', h => by
    unfold confirmJobs at h
    split at h
    · obtain ⟨j', hc, rfl⟩ := Option.map_eq_some_iff.1 h
      rw [List.map_cons, List.map_cons, confirm_task hc]
    · obtain ⟨js', hc, rfl⟩ := Option.map_eq_some_iff.1 h
      rw [List.map_cons, List.map_cons, confirmJobs_task hc]

/-- What a step of `Split` has to do to stay in step with the direct way. -/
def Follows (compress : Bytes → Bytes) (maxFiles : ℕ) (q : Request) (s' : Split σ) (d : Direct σ)
    (es : List (Event σ)) : Prop :=
  Sync q s' (Run.run (Direct.step compress maxFiles q) d es) ∧
    Run.Meets (Direct.step compress maxFiles q)
      (Run.AddsOne (Direct.step compress maxFiles q) Direct.sent) d es

namespace Sync

variable {s : Split σ} {d : Direct σ}

variable {s' : Split σ} {rest : List FsMsg} {scan : Except String FileList}

theorem follows_nil (h : Sync q s' d) : Follows compress maxFiles q s' d [] := ⟨h, trivial⟩

theorem follows_one {e : Event σ} {d' : Direct σ} (hd : Direct.step compress maxFiles q d e = d')
    (h : Sync q s' d') (out : List ClientMsg) (hout : out.length ≤ 1)
    (hsent : d'.sent = d.sent ++ out) : Follows compress maxFiles q s' d [e] := by
  subst hd
  exact ⟨h, ⟨out, hout, hsent⟩, trivial⟩

section

variable (h : Sync q s d)

include h

theorem push (hr : m ≠ .readFile) (hc : m ≠ .cancelRead q.id) :
    Sync q { s with toCm := s.toCm ++ [m] } d :=
  { h with stage := h.stage.push hr hc }

section

variable (hclosed : s.closed = false)

include hclosed

theorem start {files : FileList} (hm : s.toCm = .readFile :: rest)
    (hfiles : files.entries.length ≤ maxFiles) :
    Follows compress maxFiles q
      (Split.handleFs maxFiles q (.ok files) os { s with toCm := rest } .readFile) d
      [.start (.ok files)] := by
  have hlimit : checkFileCountLimit maxFiles files.entries.length = none :=
    if_neg (Nat.not_lt.2 hfiles)
  have hcm : startReadJob maxFiles q (.ok files) s.jobs =
      (s.jobs ++ [q.job files], .readJobInitResult q.id (.ok (q.path, files.entries))) := by
    simp only [startReadJob, hlimit]
  have hdirect : Direct.step compress maxFiles q d (.start (.ok files)) = { d with
        jobs := d.jobs ++ [q.job files]
        sent := d.sent ++ [.dir q.id q.path files.entries] } := by
    simp [Direct.step, h.closed, hclosed, Direct.start, hlimit]
  rcases h.stage.waiting_or_calm with ⟨rest', toCm, calm, jobs, toConn, ids⟩ | calm
  · obtain rfl := (List.cons.inj (hm.symm.trans toCm)).2
    refine follows_one hdirect ?_ [.dir q.id q.path files.entries] (Nat.le_refl 1) rfl
    simp only [Split.handleFs, hcm]
    refine ⟨by rw [h.jobs], h.closed, ?_, ?_, ?_⟩
    · simp [h.sent, toConn, CmData.msg]
    · simp [toConn, CmData.id]
    · exact .running calm (by rw [jobs]; rfl) rfl rfl (by simp [toConn, CmData.ends]) ids
  · exact absurd rfl (calm .readFile (by rw [hm]; exact List.mem_cons_self)).1

theorem cancelOther {id : ℤ} (hm : s.toCm = .cancelRead id :: rest) : Follows compress maxFiles q
      (Split.handleFs maxFiles q scan os { s with toCm := rest } (.cancelRead id)) d
      [.cancel id] := by
  have hne := h.stage.cancels_other hm
  have hremove : removeJob id s.jobs = s.jobs := by
    refine List.eraseP_of_forall_not fun j hj => ?_
    simpa [h.stage.id_of_mem j hj] using hne.symm
  have hdirect : Direct.step compress maxFiles q d (.cancel id) = d := by
    have hopen : ¬d.closed = true := by simp [h.closed, hclosed]
    unfold Direct.step
    rw [if_neg hopen]
    dsimp only
    rw [h.jobs, hremove, ← h.jobs]
  refine follows_one hdirect ?_ [] (Nat.zero_le 1) (List.append_nil _).symm
  simp only [Split.handleFs, hremove]
  exact { h with stage := h.stage.pop hm nofun rfl rfl rfl rfl }

theorem confirm {r : SendConfirmRequest} (hm : s.toCm = .sendConfirmForRead r :: rest)
    (hr : ∀ j ∈ getJob r.id s.jobs, j.fileNum = r.fileNum ∧ r.union ≠ none) :
    Follows compress maxFiles q
      (Split.handleFs maxFiles q scan os { s with toCm := rest } (.sendConfirmForRead r)) d
      [.confirm os r] := by
  have hcm : confirmForRead os r s.jobs = confirmJobs os r s.jobs := confirmForRead_eq hr
  have hdirect : Direct.step compress maxFiles q d (.confirm os r) =
      match confirmJobs os r s.jobs with
      | some jobs => { d with jobs := jobs }
      | none => { d with closed := true } := by
    simp [Direct.step, h.closed, hclosed, h.jobs]
  cases hj : confirmJobs os r s.jobs <;> simp only [hj] at hdirect <;>
    refine follows_one hdirect ?_ [] (Nat.zero_le 1) (List.append_nil _).symm <;>
    simp only [Split.handleFs, hcm, hj]
  case none =>
    exact ⟨h.jobs, rfl, h.sent, h.names, h.stage.pop hm nofun rfl rfl rfl rfl⟩
  case some =>
    exact ⟨rfl, h.closed, h.sent, h.names, h.stage.pop hm nofun rfl (confirmJobs_task hj) rfl rfl⟩

theorem tick (hu : ∀ j ∈ s.jobs, Unfailing compress os j) : Follows compress maxFiles q
      { s with
        jobs := (handleReadJobsTick compress os s.jobs).1
        toConn := s.toConn ++ (handleReadJobsTick compress os s.jobs).2 } d [.tick os] := by
  have hdirect : Direct.step compress maxFiles q d (.tick os) = { d with
        jobs := (handleReadJobs compress os (fun _ => .ok ()) s.jobs).jobs
        sent := d.sent ++
          (handleReadJobs compress os (fun _ => .ok ()) s.jobs).sent.map .response } := by
    simp [Direct.step, h.closed, hclosed, Direct.tick, h.jobs]
  rcases h.stage.idle_or_running with hnone | ⟨j, calm, jobs, hid, hlast, toConn, ids⟩
  · have hd : Direct.step compress maxFiles q d (.tick os) = d := by
      rw [hdirect, hnone]
      simp only [handleReadJobs, initJobs, readFirst, List.map_nil, List.append_nil]
      rw [← hnone, ← h.jobs]
    refine follows_one hd ?_ [] (Nat.zero_le 1) (List.append_nil _).symm
    have hs : ({ s with
        jobs := (handleReadJobsTick compress os s.jobs).1
        toConn := s.toConn ++ (handleReadJobsTick compress os s.jobs).2 } : Split σ) = s := by
      rw [hnone]
      simp only [handleReadJobsTick, tickLoop, List.foldl_nil, List.append_nil]
      rw [← hnone]
    rwa [hs]
  · obtain ⟨jobs', data, hcm, hjobs, hsent, hlen, hids, hend⟩ :=
      tick_single hlast (hu j (by rw [jobs]; exact List.mem_cons_self))
    rw [jobs] at hdirect ⊢
    rw [hjobs, hsent] at hdirect
    refine follows_one hdirect ?_ (data.map (·.msg)) (by rwa [List.length_map]) rfl
    rw [hcm]
    refine ⟨rfl, h.closed, ?_, ?_, ?_⟩
    · simp [h.sent]
    · exact List.forall_mem_append.2 ⟨h.names, fun m hm => (hids m hm).trans hid⟩
    rcases hend with ⟨j', rfl, htask, hno⟩ | ⟨rfl, m, rfl, hm⟩
    · exact .running calm rfl ((TransferJob.id_eq_of_task htask).trans hid)
        ((TransferJob.isLastJob_eq_of_task htask).trans hlast)
        (List.forall_mem_append.2 ⟨toConn, hno⟩) ids
    · exact .ending calm rfl rfl toConn hm ids

end

theorem receive {m : CmData} {rest : List CmData} (hm : s.toConn = m :: rest) :
    Sync q (Split.handle m { s with toConn := rest }) d := by
  have hid : m.id = q.id := h.names m (by rw [hm]; exact List.mem_cons_self)
  have hids : s.cmReadJobIds = [q.id] → Split.handle m { s with toConn := rest } = { s with
        toConn := rest
        received := s.received ++ [m.msg]
        cmReadJobIds := if m.ends then [] else [q.id] } := by
    intro hids
    simp only [Split.handle, hids, hid, List.mem_singleton, if_true]
    simp
  have hsync : ∀ ids, Stage q { s with
        toConn := rest, received := s.received ++ [m.msg], cmReadJobIds := ids } →
      Sync q { s with
        toConn := rest, received := s.received ++ [m.msg], cmReadJobIds := ids } d := by
    intro ids hstage
    refine ⟨h.jobs, h.closed, ?_, fun m' hm' => h.names m' ?_, hstage⟩
    · simp [h.sent, hm]
    · rw [hm]
      exact List.mem_cons_of_mem _ hm'
  cases h.stage with
  | waiting _ _ _ toConn | finished _ _ toConn =>
    simp [toConn] at hm
  | running calm jobs hj hlast toConn ids =>
    rw [hm] at toConn
    obtain ⟨hno, hrest⟩ := List.forall_mem_cons.1 toConn
    rw [hids ids, hno]
    exact hsync _ (.running calm jobs hj hlast hrest rfl)
  | @ending before last calm jobs toConn hbefore hlast ids =>
    rw [hids ids]
    rw [hm] at toConn
    rcases before with _ | ⟨m', before⟩
    · obtain ⟨rfl, rfl⟩ := List.cons.inj toConn
      rw [hlast]
      exact hsync _ (.finished calm jobs rfl rfl)
    · obtain ⟨rfl, rfl⟩ := List.cons.inj toConn
      obtain ⟨hno, hrest⟩ := List.forall_mem_cons.1 hbefore
      rw [hno]
      exact hsync _ (.ending calm jobs rfl hrest hlast rfl)

theorem step {a : Act σ} (ha : a ≠ .cancel q.id) (hr : Regular compress maxFiles s a) :
    Follows compress maxFiles q (Split.step compress maxFiles q s a) d (Split.events s a) := by
  cases a with
  | confirm r =>
    refine follows_nil ?_
    dsimp only [Split.step]
    split
    · exact h.push (m := .sendConfirmForRead r) nofun nofun
    · exact h
  | cancel id =>
    have hne : id ≠ q.id := fun he => ha (by rw [he])
    have hids : s.cmReadJobIds.filter (· ≠ id) = s.cmReadJobIds := by
      rcases h.stage.ids_subset with hi | hi <;> simp [hi, hne.symm]
    refine follows_nil ?_
    dsimp only [Split.step]
    rw [hids]
    exact h.push (m := .cancelRead id) nofun (by simpa using hne)
  | cmReceive =>
    dsimp only [Split.step, Split.events, Regular] at hr ⊢
    rcases hc : s.toCm with _ | ⟨m, rest⟩
    · exact follows_nil h
    rw [hc] at hr
    split_ifs with hclosed
    · exact follows_nil h
    rw [Bool.not_eq_true] at hclosed
    cases m with
    | readFile =>
      obtain ⟨files, rfl, hfiles⟩ := hr
      exact h.start hclosed hc hfiles
    | cancelRead => exact h.cancelOther hclosed hc
    | sendConfirmForRead => exact h.confirm hclosed hc hr
  | cmTick =>
    dsimp only [Split.step, Split.events]
    split_ifs with hclosed
    · exact follows_nil h
    · exact h.tick (Bool.not_eq_true _ ▸ hclosed) hr
  | connReceive =>
    refine follows_nil ?_
    dsimp only [Split.step]
    rcases hc : s.toConn with _ | ⟨m, rest⟩
    · exact h
    · exact h.receive hc

end

end Sync

/-! ### What the client asked for -/

/-- What the client has asked for when the direct job sees the event. -/
def Event.asks : Event σ → Option FsMsg
  | start _ => some .readFile
  | tick _ => none
  | confirm _ r => some (.sendConfirmForRead r)
  | cancel id => some (.cancelRead id)

def Act.asks (q : Request) : Act σ → Option FsMsg
  | confirm r => if r.id = q.id then some (.sendConfirmForRead r) else none
  | cancel id => some (.cancelRead id)
  | _ => none

namespace Split

variable {s : Split σ}

theorem handle_frame (m : CmData) (s : Split σ) :
    (handle m s).cmReadJobIds ⊆ s.cmReadJobIds ∧ (handle m s).toCm = s.toCm ∧
      (s.cmReadJobIds = [] → (handle m s).received = s.received) := by
  unfold handle
  split
  case isTrue hmem =>
    refine ⟨?_, rfl, fun h => absurd (h ▸ hmem) List.not_mem_nil⟩
    split
    · exact List.filter_subset_self _
    · exact List.Subset.refl _
  case isFalse => exact ⟨List.Subset.refl _, rfl, fun _ => rfl⟩

theorem handleFs_frame (scan : Except String FileList) (os : Os σ) (s : Split σ) (m : FsMsg) :
    (handleFs maxFiles q scan os s m).cmReadJobIds = s.cmReadJobIds ∧
      (handleFs maxFiles q scan os s m).toCm = s.toCm ∧
      (handleFs maxFiles q scan os s m).received = s.received := by
  cases m with
  | readFile | cancelRead => exact ⟨rfl, rfl, rfl⟩
  | sendConfirmForRead =>
    unfold handleFs
    dsimp only
    split <;> exact ⟨rfl, rfl, rfl⟩

/-- No id comes to those the connection expects, and without one nothing is received. -/
theorem step_frame (compress : Bytes → Bytes) (maxFiles : ℕ) (q : Request) (s : Split σ)
    (a : Act σ) :
    (step compress maxFiles q s a).cmReadJobIds ⊆ s.cmReadJobIds ∧
      (s.cmReadJobIds = [] → (step compress maxFiles q s a).received = s.received) := by
  cases a with
  | confirm | cmTick =>
    dsimp only [step]
    split <;> exact ⟨List.Subset.refl _, fun _ => rfl⟩
  | cancel => exact ⟨List.filter_subset_self _, fun _ => rfl⟩
  | cmReceive scan os =>
    dsimp only [step]
    split
    · exact ⟨List.Subset.refl _, fun _ => rfl⟩
    split
    · exact ⟨List.Subset.refl _, fun _ => rfl⟩
    · obtain ⟨hids, -, hreceived⟩ := handleFs_frame scan os _ _
      rw [hids]
      exact ⟨List.Subset.refl _, fun _ => hreceived⟩
  | connReceive =>
    dsimp only [step]
    split
    · exact ⟨List.Subset.refl _, fun _ => rfl⟩
    · obtain ⟨hids, -, hreceived⟩ := handle_frame _ _
      exact ⟨hids, hreceived⟩

variable (is : List (Act σ))

theorem run_ids (s : Split σ) :
    (Run.run (step compress maxFiles q) s is).cmReadJobIds ⊆ s.cmReadJobIds :=
  Run.inv_run (I := fun t => t.cmReadJobIds ⊆ s.cmReadJobIds)
    (fun t a ht => List.Subset.trans (step_frame compress maxFiles q t a).1 ht)
    (List.Subset.refl _) is

/-- As long as the job is expected, what the client asks for joins the queue and
what the manager does leaves it. -/
theorem step_asks (compress : Bytes → Bytes) (maxFiles : ℕ) (a : Act σ)
    (hs : s.cmReadJobIds ⊆ [q.id]) (hq : q.id ∈ s.cmReadJobIds) :
    (events s a).filterMap Event.asks ++ (step compress maxFiles q s a).toCm =
      s.toCm ++ (Act.asks q a).toList := by
  cases a with
  | confirm r =>
    by_cases hr : r.id = q.id
    · simp [events, step, Act.asks, hr, hq]
    · have hno : r.id ∉ s.cmReadJobIds := fun h => hr (List.mem_singleton.1 (hs h))
      simp [events, step, Act.asks, hr, hno]
  | cancel => simp [events, step, Act.asks]
  | cmReceive scan os =>
    dsimp only [events, step, Act.asks]
    rcases hc : s.toCm with _ | ⟨m, rest⟩
    · trivial
    by_cases hclosed : s.closed = true
    · simp [hclosed, hc]
    · dsimp only
      rw [if_neg hclosed, if_neg hclosed, (handleFs_frame scan os _ m).2.1]
      cases m <;> simp [Event.asks]
  | cmTick =>
    dsimp only [events, step, Act.asks]
    split <;> simp [Event.asks]
  | connReceive =>
    dsimp only [events, step, Act.asks]
    split
    · simp
    · rw [(handle_frame _ _).2.1]
      simp

theorem run_asks (hs : s.cmReadJobIds ⊆ [q.id])
    (hq : q.id ∈ (Run.run (step compress maxFiles q) s is).cmReadJobIds) :
    (Run.trace (step compress maxFiles q) events s is).filterMap Event.asks ++
        (Run.run (step compress maxFiles q) s is).toCm =
      s.toCm ++ is.filterMap (Act.asks q) := by
  induction is generalizing s with
  | nil => simp [Run.trace]
  | cons a is ih =>
    have hsub := (step_frame compress maxFiles q s a).1
    have hstep := step_asks compress maxFiles a hs (run_ids (a :: is) s hq)
    have hrest := ih (s := step compress maxFiles q s a) (fun i hi => hs (hsub hi)) hq
    rw [Run.run_cons, Run.trace, List.filterMap_append, List.append_assoc, hrest,
      ← List.append_assoc, hstep, List.append_assoc]
    cases ha : Act.asks q a <;> simp [ha]

/-! ### Runs -/

theorem run_received (h : s.cmReadJobIds = []) :
    (Run.run (step compress maxFiles q) s is).received = s.received := by
  refine (Run.inv_run (I := fun t : Split σ => t.cmReadJobIds = [] ∧ t.received = s.received)
    (fun t a ht => ?_) ⟨h, rfl⟩ is).2
  obtain ⟨hids, hreceived⟩ := step_frame compress maxFiles q t a
  rw [ht.1] at hids
  exact ⟨List.subset_nil.1 hids, (hreceived ht.1).trans ht.2⟩

theorem run_follows {d : Direct σ} (h : Sync q s d) (hc : ∀ a ∈ is, a ≠ .cancel q.id)
    (hm : Run.Meets (step compress maxFiles q) (Regular compress maxFiles) s is) :
    Follows compress maxFiles q (Run.run (step compress maxFiles q) s is) d
      (Run.trace (step compress maxFiles q) events s is) := by
  induction is generalizing s d with
  | nil => exact Sync.follows_nil h
  | cons a is ih =>
    obtain ⟨hsync, hone⟩ := h.step (hc a List.mem_cons_self) hm.1
    obtain ⟨hsync', hone'⟩ := ih hsync (fun b hb => hc b (List.mem_cons_of_mem _ hb)) hm.2
    refine ⟨?_, (Run.meets_append _ _ _ _).2 ⟨hone, hone'⟩⟩
    rwa [Run.run_cons, Run.trace, Run.run_append]

theorem sync_start (q : Request) : Sync q (start q : Split σ) {} :=
  ⟨rfl, rfl, rfl, nofun, .waiting rfl nofun rfl rfl rfl⟩

end Split

section

variable (compress maxFiles q)

def Direct.after (ds : List (Event σ)) : Direct σ := Run.run (Direct.step compress maxFiles q) {} ds

def Split.after (is : List (Act σ)) : Split σ :=
  Run.run (Split.step compress maxFiles q) (Split.start q) is

def Split.did (is : List (Act σ)) : List (Event σ) :=
  Run.trace (Split.step compress maxFiles q) Split.events (Split.start q) is

end

/-- Before the client has cancelled the job, what the direct job has sent has
come to the client or is on its way. -/
theorem Split.follows_after (is : List (Act σ)) (hc : ∀ a ∈ is, a ≠ .cancel q.id)
    (hm : Run.Meets (Split.step compress maxFiles q) (Regular compress maxFiles) (Split.start q)
      is) :
    Follows compress maxFiles q (Split.after compress maxFiles q is) {}
      (Split.did compress maxFiles q is) :=
  Split.run_follows is (Split.sync_start q) hc hm

theorem Follows.exists_take {ds : List (Event σ)} (h : Follows compress maxFiles q s {} ds) :
    ∃ n ≤ ds.length, s.received = (Direct.after compress maxFiles q (ds.take n)).sent :=
  Run.exists_take_of_prefix rfl h.2 ⟨_, h.1.sent.symm⟩

theorem Split.received_cancelled {d : Direct σ} (h : Sync q s d) (is : List (Act σ)) :
    (Run.run (Split.step compress maxFiles q) s (.cancel q.id :: is)).received = s.received := by
  have hids : s.cmReadJobIds.filter (· ≠ q.id) = [] := by
    rcases h.stage.ids_subset with hi | hi <;> simp [hi]
  rw [Run.run_cons]
  exact Split.run_received is hids

/-- Whatever the interleaving, if the files can be read and the confirms name the
file the job is at, the client has got what the direct job sends up to some point
of what the manager did; if it has not cancelled the job, it gets all of it. What
the manager did is what the client asked for, in that order, as far as it is not
on its way. -/
theorem delegated_eq (compress : Bytes → Bytes) (maxFiles : ℕ) (q : Request) (is : List (Act σ))
    (hm : Run.Meets (Split.step compress maxFiles q) (Regular compress maxFiles) (Split.start q)
      is) :
    (∃ n, (Split.after compress maxFiles q is).received =
      (Direct.after compress maxFiles q ((Split.did compress maxFiles q is).take n)).sent) ∧
    ((∀ a ∈ is, a ≠ .cancel q.id) →
      (Direct.after compress maxFiles q (Split.did compress maxFiles q is)).sent =
        (Split.after compress maxFiles q is).received ++
          (Split.after compress maxFiles q is).toConn.map (·.msg)) ∧
    (q.id ∈ (Split.after compress maxFiles q is).cmReadJobIds →
      (Split.did compress maxFiles q is).filterMap Event.asks ++
          (Split.after compress maxFiles q is).toCm =
        .readFile :: is.filterMap (Act.asks q)) := by
  refine ⟨?_, fun hc => (Split.follows_after is hc hm).1.sent,
    fun hq => Split.run_asks is (List.Subset.refl _) hq⟩
  by_cases hc : .cancel q.id ∈ is
  · -- What comes before the first cancel decides what the client has.
    obtain ⟨before, rest, rfl, hbefore⟩ := List.eq_append_cons_of_mem hc
    obtain ⟨hm, -⟩ := (Run.meets_append _ _ _ _).1 hm
    have hf := Split.follows_after before (fun a ha he => hbefore (he ▸ ha)) hm
    obtain ⟨n, hn, hreceived⟩ := hf.exists_take
    have htake : (Split.did compress maxFiles q (before ++ .cancel q.id :: rest)).take n =
        (Split.did compress maxFiles q before).take n := by
      rw [Split.did, Run.trace_append]
      exact List.take_append_of_le_length hn
    refine ⟨n, ?_⟩
    rw [htake, Split.after, Run.run_append]
    exact (Split.received_cancelled hf.1 rest).trans hreceived
  · obtain ⟨n, -, hreceived⟩ :=
      (Split.follows_after is (fun a ha he => hc (he ▸ ha)) hm).exists_take
    exact ⟨n, hreceived⟩

instance decidableRegular (compress : Bytes → Bytes) (maxFiles : ℕ) (s : Split σ) :
    ∀ a, Decidable (Regular compress maxFiles s a)
  | .confirm _ => .isTrue trivial
  | .cancel _ => .isTrue trivial
  | .connReceive => .isTrue trivial
  | .cmTick os => inferInstanceAs (Decidable (∀ j ∈ s.jobs, _ = true ∧ _ = true))
  | .cmReceive scan os => by
    unfold Regular
    dsimp only
    split
    · cases scan with
      | error err => exact .isFalse (by simp)
      | ok files => exact decidable_of_iff (files.entries.length ≤ maxFiles) (by simp)
    · infer_instance
    · infer_instance

def folder : Request := ⟨1, "d", 0, true⟩

def folderOs : Os Bytes :=
  { osWith "d/a" [7, 8] with
    openFile := fun p =>
      if p = "d/a" then .ok [7, 8] else if p = "d/b" then .ok [7, 8, 9]
      else .error "No such file or directory" }

/-- `a` is announced, confirmed and read to its end, `b` is announced and skipped. -/
def wholeFolder : List (Act Bytes) :=
  [.cmReceive (.ok twoFiles) folderOs, .cmTick folderOs, .connReceive, .connReceive,
   .confirm ⟨1, 0, some (.offsetBlk 0)⟩, .cmTick folderOs, .cmReceive (.ok twoFiles) folderOs,
   .cmTick folderOs, .connReceive, .cmTick folderOs, .cmTick folderOs, .connReceive, .connReceive,
   .confirm ⟨1, 1, some (.skip true)⟩, .cmReceive (.ok twoFiles) folderOs, .cmTick folderOs,
   .connReceive]

theorem delegated_eq_wholeFolder : (Split.after id 10 folder wholeFolder).toConn.length = 0 ∧
      (Direct.after id 10 folder (Split.did id 10 folder wholeFolder)).sent =
        (Split.after id 10 folder wholeFolder).received := by
  have hnone : (Split.after id 10 folder wholeFolder).toConn.length = 0 := by decide +kernel
  have h := (delegated_eq id 10 folder wholeFolder (by decide +kernel)).2.1 (by simp [wholeFolder])
  rw [List.length_eq_zero_iff.1 hnone, List.map_nil, List.append_nil] at h
  exact ⟨hnone, h⟩

/-- `a` is announced and skipped, `b` is announced, and a confirm for `a` comes. -/
def staleConfirm : List (Act Bytes) :=
  [.cmReceive (.ok twoFiles) folderOs, .cmTick folderOs, .connReceive, .connReceive,
   .confirm ⟨1, 0, some (.skip true)⟩, .cmReceive (.ok twoFiles) folderOs, .cmTick folderOs,
   .connReceive, .confirm ⟨1, 0, some (.offsetBlk 0)⟩, .cmReceive (.ok twoFiles) folderOs,
   .cmTick folderOs, .connReceive]

def firstFails : List (Act Bytes) :=
  [.cmReceive (.ok twoFiles) (osWith "d/b" [7, 8, 9]), .cmTick (osWith "d/b" [7, 8, 9]),
   .connReceive, .connReceive]

/-- The late confirm for `a` makes the manager send `b`, for which the client has
not decided yet; the direct job ignores it. After a file that cannot be opened
the client of the manager gets no `FileTransferDone`. -/
theorem delegated_differs : let listing := ClientMsg.dir 1 "d" twoFiles.entries
    (Split.after id 10 folder staleConfirm).received =
        [listing, .response (.digest 1 0 0 2 false), .response (.digest 1 1 0 3 false),
          .response (.block ⟨1, 1, [7, 8, 9], false⟩)] ∧
    (Direct.after id 10 folder (Split.did id 10 folder staleConfirm)).sent =
        [listing, .response (.digest 1 0 0 2 false), .response (.digest 1 1 0 3 false)] ∧
    (Split.after id 10 folder firstFails).received =
        [listing, .response (.error 1 "Permission denied" 1)] ∧
    (Direct.after id 10 folder (Split.did id 10 folder firstFails)).sent =
        [listing, .response (.error 1 "Permission denied" 1), .response (.done 1 1)] := by
  decide +kernel

end CodeDesk.Fs.Delegation
