/-
# The exchange about a file before it is sent

A job with overwrite detection announces the digest of a file before it sends
it, and the two ends settle whether the file is skipped, sent, or resumed
where a partial file of an earlier transfer ends. The receiver decides by
`is_write_need_confirmation` of `libs/hbb_common/src/fs.rs`. In a download the
receiver is the client, which confirms by itself (`client/io_loop.rs`). In an
upload it is the connection manager of the host (`ui_cm_interface.rs`): it
answers with a digest of its own, the client confirms, and the confirm comes
back to the host.

Either way both ends call `confirm` with one and the same request
(`Exchange`). The offset in it is the length of the partial file, as far as
the `u32` of the message holds it.
-/
import CodeDesk.Fs.Receiving
import CodeDesk.Fs.Share

namespace CodeDesk.Fs

open TransferJob (downloadPath digestPath)

structure FileTransferDigest where
  id : ℤ
  fileNum : ℤ
  lastModified : ℕ
  fileSize : ℕ
  isUpload : Bool
  isIdentical : Bool
  transferredSize : ℕ
  isResume : Bool
  deriving DecidableEq, Repr

/-- The digest of `send_current_digest`. -/
def FileTransferDigest.announced (id fileNum : ℤ) (lastModified fileSize : ℕ) (isResume : Bool) :
    FileTransferDigest :=
  ⟨id, fileNum, lastModified, fileSize, false, false, 0, isResume⟩

inductive DigestCheckResult where
  | isSame
  | needConfirm (d : FileTransferDigest)
  | noSuchFile
  deriving DecidableEq, Repr

/-- What the check learns from the system beside the contents of the files:
the modification time of a path in seconds and nanoseconds, and the length
that `metadata` reports for something else than a regular file. -/
structure DigestIo where
  io : Io
  modified : Key → Except String (ℕ × ℕ)
  otherLen : Key → ℕ

def DigestIo.readToString (d : DigestIo) (fs : Dir) (path : String) : Option Bytes :=
  if d.io.refuses .openRead (components path) then none else fs (components path)

def DigestIo.len (d : DigestIo) (fs : Dir) (path : String) : ℕ :=
  match fs (components path) with
  | some bs => bs.length
  | none => d.otherLen (components path)

/-! ### The check -/

/-- The first half of `is_write_need_confirmation`: the length of a partial
file that is not empty and whose digest is the announced one. `parse` reads
the digest file, as text and as JSON. -/
def partialSize (parse : Bytes → Option FileDigest) (d : DigestIo) (fs : Dir) (isResume : Bool)
    (path : String) (digest : FileTransferDigest) : Option ℕ :=
  if isResume && d.io.exists fs (digestPath path) && d.io.exists fs (downloadPath path) then
    match (d.readToString fs (digestPath path)).bind parse with
    | some localDigest =>
      if localDigest.modified = digest.lastModified ∧ localDigest.size = digest.fileSize ∧
          0 < d.len fs (downloadPath path) then
        some (d.len fs (downloadPath path))
      else none
    | none => none
  else none

def isWriteNeedConfirmation (parse : Bytes → Option FileDigest) (d : DigestIo) (fs : Dir)
    (isResume : Bool) (path : String) (digest : FileTransferDigest) :
    Except String DigestCheckResult :=
  match partialSize parse d fs isResume path digest with
  | some transferredSize =>
    .ok (.needConfirm ⟨digest.id, digest.fileNum, digest.lastModified, digest.fileSize, false, true,
      transferredSize, false⟩)
  | none =>
    match fs (components path) with
    | none => .ok .noSuchFile
    | some bs =>
      match d.modified (components path) with
      | .error err => .error err
      | .ok (secs, nanos) =>
        .ok (.needConfirm ⟨digest.id, digest.fileNum, secs, bs.length, false,
          secs == digest.lastModified && nanos == 0 && digest.fileSize == bs.length, 0, false⟩)

/-! ### The handlers -/

/-- `as _`, to the `u32` of `offset_blk`. -/
def asU32 (n : ℕ) : ℕ := n % 4294967296

/-- What the client confirms about a file that is there, from the job's
default strategy, or resuming it whatever the strategy. There is nothing to
confirm where it has to ask the user. -/
def chooseConfirm (overwriteStrategy : Option Bool) (isResume : Bool) (digest : FileTransferDigest) :
    Option ConfirmUnion :=
  if digest.isIdentical && isResume && decide (0 < digest.transferredSize) then
    some (.offsetBlk (asU32 digest.transferredSize))
  else overwriteStrategy.map fun overwrite => if overwrite then .offsetBlk 0 else .skip true

def WriteSys.setDigest (s : WriteSys) (digest : FileTransferDigest) : WriteSys :=
  { s with job := { s.job with digest := ⟨digest.fileSize, digest.lastModified⟩ } }

/-- A digest reaches the write job of a client, which confirms to itself and to
the peer. `None` is the panic of `confirm`. -/
def WriteSys.onDigest (parse : Bytes → Option FileDigest) (d : DigestIo)
    (overwriteStrategy : Option Bool) (isSupportResume : Bool) (s : WriteSys)
    (digest : FileTransferDigest) : Option (WriteSys × Option SendConfirmRequest) :=
  match s.job.files.entries[asUsize digest.fileNum]?, s.job.dataSource with
  | some file, .filePath p =>
    let s := s.setDigest digest
    let union : Option ConfirmUnion :=
      match isWriteNeedConfirmation parse d s.fs (isSupportResume && s.job.isResume)
          (join p file.name) digest with
      | .ok .isSame => some (.skip true)
      | .ok (.needConfirm digest) => chooseConfirm overwriteStrategy s.job.isResume digest
      | .ok .noSuchFile => some (.offsetBlk 0)
      | .error _ => none
    match union with
    | none => some (s, none)
    | some union =>
      (s.confirm d.io ⟨digest.id, digest.fileNum, some union⟩).map fun s =>
        (s, some ⟨digest.id, digest.fileNum, some union⟩)
  | _, _ => some (s, none)

inductive CheckReply where
  | confirm (r : SendConfirmRequest)
  | digest (d : FileTransferDigest)
  | error (id : ℤ) (err : String) (fileNum : ℤ)
  deriving DecidableEq, Repr

/-- `ipc::FS::CheckDigest`, on the write job of the connection manager. -/
def WriteSys.checkDigest (parse : Bytes → Option FileDigest) (d : DigestIo) (s : WriteSys)
    (digest : FileTransferDigest) : WriteSys × Option CheckReply :=
  match s.job.files.entries[asUsize digest.fileNum]?, s.job.dataSource with
  | some file, .filePath p =>
    match isWriteNeedConfirmation parse d s.fs digest.isResume (join p file.name) digest with
    | .ok .isSame =>
      (s.setDigest digest, some (.confirm ⟨digest.id, digest.fileNum, some (.skip true)⟩))
    | .ok (.needConfirm digest') =>
      (s.setDigest digest, some (.digest { digest' with isUpload := true }))
    | .ok .noSuchFile =>
      (s.setDigest digest, some (.confirm ⟨digest.id, digest.fileNum, some (.offsetBlk 0)⟩))
    | .error err => (s, some (.error digest.id err digest.fileNum))
  | _, _ => (s, none)

section
variable {σ : Type}

/-- What a client confirms about a digest of the peer for its read job. -/
def TransferJob.answerDigest (overwriteStrategy : Option Bool) (j : TransferJob σ)
    (digest : FileTransferDigest) : Option SendConfirmRequest :=
  match j.files.entries[asUsize digest.fileNum]?, j.dataSource with
  | some _, .filePath _ => (chooseConfirm overwriteStrategy j.isResume digest).map fun union =>
      ⟨digest.id, digest.fileNum, some union⟩
  | _, _ => none

def Sys.onDigest (compress : Bytes → Bytes) (os : Os σ) (overwriteStrategy : Option Bool)
    (s : Sys σ) (digest : FileTransferDigest) : Sys σ × Option SendConfirmRequest :=
  match (getJob digest.id s.jobs).bind (·.answerDigest overwriteStrategy digest) with
  | none => (s, none)
  | some r => (s.step compress (.confirm os r), some r)

/-- The exchange about the file announced by `digest`, up to the confirm of
both ends: the sender's connection calls the system `os` in it, the receiver
`d` for its check and `io` for its confirm. -/
inductive Exchange (compress : Bytes → Bytes) (parse : Bytes → Option FileDigest)
    (digest : FileTransferDigest) (os : Os σ) (d : DigestIo) (s : Sys σ) (r : WriteSys) :
    Io → SendConfirmRequest → Sys σ → WriteSys → Prop
  | download (overwriteStrategy : Option Bool) (isSupportResume : Bool) (req : SendConfirmRequest)
      (r' : WriteSys) :
      r.onDigest parse d overwriteStrategy isSupportResume digest = some (r', some req) →
      Exchange compress parse digest os d s r d.io req (s.step compress (.confirm os req)) r'
  | upload (overwriteStrategy : Option Bool) (io : Io) (req : SendConfirmRequest)
      (digest' : FileTransferDigest) (s' : Sys σ) (r₁ r' : WriteSys) :
      r.checkDigest parse d digest = (r₁, some (.digest digest')) →
      s.onDigest compress os overwriteStrategy digest' = (s', some req) →
      r₁.confirm io req = some r' →
      Exchange compress parse digest os d s r io req s' r'

end

/-! ### What is confirmed -/

section
variable {parse : Bytes → Option FileDigest} {d : DigestIo} {fs : Dir} {isResume : Bool}
  {path : String} {digest : FileTransferDigest} {n : ℕ}

theorem partialSize_some (h : partialSize parse d fs isResume path digest = some n) :
    0 < n ∧ n = d.len fs (downloadPath path) ∧ ∃ content,
      fs (components (digestPath path)) = some content ∧
        parse content = some ⟨digest.fileSize, digest.lastModified⟩ := by
  unfold partialSize at h
  split_ifs at h
  split at h
  · rename_i localDigest hlocal
    split_ifs at h with hsame
    obtain ⟨hmodified, hsize, hpos⟩ := hsame
    obtain ⟨content, hread, hparse⟩ := Option.bind_eq_some_iff.1 hlocal
    cases h
    refine ⟨hpos, rfl, content, ?_, ?_⟩
    · unfold DigestIo.readToString at hread
      split at hread
      · cases hread
      · exact hread
    · rw [hparse, ← hmodified, ← hsize]
  · cases h

theorem partialSize_of {content held : Bytes}
    (hread : d.io.refuses .openRead (components (digestPath path)) = false)
    (hdigest : fs (components (digestPath path)) = some content)
    (hparse : parse content = some ⟨digest.fileSize, digest.lastModified⟩)
    (hheld : fs (components (downloadPath path)) = some held) (hne : held ≠ []) :
    partialSize parse d fs true path digest = some held.length := by
  have hpos : 0 < held.length := List.length_pos_iff.2 hne
  simp [partialSize, Io.exists, DigestIo.readToString, DigestIo.len, hread, hdigest, hparse, hheld,
    hpos]

theorem needConfirm_resumes {digest' : FileTransferDigest}
    (h : isWriteNeedConfirmation parse d fs isResume path digest = .ok (.needConfirm digest'))
    (hpos : 0 < digest'.transferredSize) :
    partialSize parse d fs isResume path digest = some digest'.transferredSize ∧
      digest'.id = digest.id ∧ digest'.fileNum = digest.fileNum := by
  unfold isWriteNeedConfirmation at h
  split at h
  · rename_i n hn
    cases h
    exact ⟨hn, rfl, rfl⟩
  · split at h
    · cases h
    · split at h
      · cases h
      · cases h
        exact absurd hpos (Nat.lt_irrefl 0)

theorem chooseConfirm_offset {strategy : Option Bool} {offset : ℕ}
    (h : chooseConfirm strategy isResume digest = some (.offsetBlk offset)) (hpos : 0 < offset) :
    0 < digest.transferredSize ∧ offset = asU32 digest.transferredSize := by
  unfold chooseConfirm at h
  split_ifs at h with hresume
  · simp only [Bool.and_eq_true, decide_eq_true_eq] at hresume
    exact ⟨hresume.2, by simpa using h.symm⟩
  · obtain ⟨overwrite, -, hunion⟩ := Option.map_eq_some_iff.1 h
    split_ifs at hunion
    simp only [ConfirmUnion.offsetBlk.injEq] at hunion
    omega

end

section
variable {σ : Type} {compress : Bytes → Bytes} {parse : Bytes → Option FileDigest}
  {digest : FileTransferDigest} {os : Os σ} {d : DigestIo} {s s' : Sys σ} {r r' : WriteSys} {io : Io}
  {req : SendConfirmRequest} {p : String} {files : FileList} {e : FileEntry} {offset : ℕ}

/-- What the receiver of a digest finds to resume. -/
def Resumable (parse : Bytes → Option FileDigest) (d : DigestIo) (p : String) (e : FileEntry)
    (digest : FileTransferDigest) (fs : Dir) (offset : ℕ) : Prop :=
  ∃ isResume n, partialSize parse d fs isResume (join p e.name) digest = some n ∧ offset = asU32 n

theorem Sys.onDigest_confirms {strategy : Option Bool}
    (h : s.onDigest compress os strategy digest = (s', some req))
    (hreq : req.union = some (.offsetBlk offset)) (hpos : 0 < offset) :
    s' = s.step compress (.confirm os req) ∧
      req = ⟨digest.id, digest.fileNum, some (.offsetBlk offset)⟩ ∧ 0 < digest.transferredSize ∧
      offset = asU32 digest.transferredSize := by
  unfold Sys.onDigest at h
  split at h
  · simp at h
  rename_i r₁ hanswer
  cases h
  obtain ⟨j, -, hj⟩ := Option.bind_eq_some_iff.1 hanswer
  unfold TransferJob.answerDigest at hj
  split at hj
  · obtain ⟨union, hunion, rfl⟩ := Option.map_eq_some_iff.1 hj
    cases hreq
    obtain ⟨hsize, hoffset⟩ := chooseConfirm_offset hunion hpos
    exact ⟨rfl, rfl, hsize, hoffset⟩
  · cases hj

variable (hr : WriteSys.Receives p files r) (he : files.entries[asUsize digest.fileNum]? = some e)

include hr he

theorem onDigest_resumes {strategy : Option Bool} {supports : Bool}
    (h : r.onDigest parse d strategy supports digest = some (r', some req))
    (hreq : req.union = some (.offsetBlk offset)) (hpos : 0 < offset) :
    req = ⟨digest.id, digest.fileNum, some (.offsetBlk offset)⟩ ∧
      (r.setDigest digest).confirm d.io req = some r' ∧
      Resumable parse d p e digest r.fs offset := by
  rw [WriteSys.onDigest, hr.list, he, hr.source] at h
  simp only at h
  split at h
  · simp at h
  rename_i union hunion
  obtain ⟨r₁, hconfirm, heq⟩ := Option.map_eq_some_iff.1 h
  cases heq
  cases hreq
  refine ⟨rfl, hconfirm, ?_⟩
  split at hunion
  · cases hunion
  · rename_i digest' hcheck
    obtain ⟨hsize, hoffset⟩ := chooseConfirm_offset hunion hpos
    exact ⟨_, _, (needConfirm_resumes hcheck hsize).1, hoffset⟩
  · cases hunion
    omega
  · cases hunion

theorem onDigest_of_partial (strategy : Option Bool) {supports : Bool} {n : ℕ}
    (hresume : r.job.isResume = true)
    (h : partialSize parse d r.fs supports (join p e.name) digest = some n) :
    r.onDigest parse d strategy supports digest = ((r.setDigest digest).confirm d.io
        ⟨digest.id, digest.fileNum, some (.offsetBlk (asU32 n))⟩).map fun r =>
          (r, some ⟨digest.id, digest.fileNum, some (.offsetBlk (asU32 n))⟩) := by
  have hpos := (partialSize_some h).1
  have hcheck : isWriteNeedConfirmation parse d (r.setDigest digest).fs
      (supports && (r.setDigest digest).job.isResume) (join p e.name) digest =
      .ok (.needConfirm ⟨digest.id, digest.fileNum, digest.lastModified, digest.fileSize, false, true,
        n, false⟩) := by
    have hboth : (supports && (r.setDigest digest).job.isResume) = supports := by
      rw [show (r.setDigest digest).job.isResume = true from hresume, Bool.and_true]
    rw [isWriteNeedConfirmation, hboth, show (r.setDigest digest).fs = r.fs from rfl, h]
  have hchoose : ∀ m t : ℕ, chooseConfirm strategy (r.setDigest digest).job.isResume
      ⟨digest.id, digest.fileNum, m, t, false, true, n, false⟩ = some (.offsetBlk (asU32 n)) := by
    intro m t
    simp [chooseConfirm, show (r.setDigest digest).job.isResume = true from hresume, hpos]
  rw [WriteSys.onDigest, hr.list, he, hr.source]
  simp only [hcheck, hchoose]

theorem checkDigest_resumes {digest' : FileTransferDigest}
    (h : r.checkDigest parse d digest = (r', some (.digest digest')))
    (hpos : 0 < digest'.transferredSize) :
    r' = r.setDigest digest ∧ digest'.id = digest.id ∧ digest'.fileNum = digest.fileNum ∧
      Resumable parse d p e digest r.fs (asU32 digest'.transferredSize) := by
  rw [WriteSys.checkDigest, hr.list, he, hr.source] at h
  simp only at h
  split at h
  · simp at h
  · rename_i digest'' hcheck
    cases h
    obtain ⟨hsize, hid, hnum⟩ := needConfirm_resumes hcheck hpos
    exact ⟨rfl, hid, hnum, _, _, hsize, rfl⟩
  · simp at h
  · simp at h

/-- Both ends confirm the same offset, and it comes from the partial file. -/
theorem Exchange.confirmed (h : Exchange compress parse digest os d s r io req s' r')
    (hreq : req.union = some (.offsetBlk offset)) (hpos : 0 < offset) :
    req = ⟨digest.id, digest.fileNum, some (.offsetBlk offset)⟩ ∧
      s' = s.step compress (.confirm os req) ∧
      (r.setDigest digest).confirm io req = some r' ∧
      Resumable parse d p e digest r.fs offset := by
  cases h with
  | download strategy supports _ _ hon =>
    obtain ⟨heq, hconfirm, hresume⟩ := onDigest_resumes hr he hon hreq hpos
    exact ⟨heq, rfl, hconfirm, hresume⟩
  | upload strategy _ _ digest' _ r₁ _ hcheck hon hconfirm =>
    obtain ⟨rfl, heq, hsize, hoffset⟩ := Sys.onDigest_confirms hon hreq hpos
    obtain ⟨rfl, hid, hnum, hresume⟩ := checkDigest_resumes hr he hcheck hsize
    refine ⟨by rw [heq, hid, hnum], rfl, hconfirm, hoffset ▸ hresume⟩

end

end CodeDesk.Fs
