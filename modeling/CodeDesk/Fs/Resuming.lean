/-
# What a read job sends after a resume

A confirm with an offset puts a read job on its current file behind that many
bytes (`AtFile.confirm`). From then on the job sends the rest of the file in
the blocks of `fileBlocks` and nothing else in between, whatever happens on
its connection and whatever is confirmed about other files; behind them all
its blocks are of later files. `Resumed` follows the job through every run.

The second part holds whether or not anything fails: a job only moves to the
next file, and only from a file of its list (`Moves`), so it does not come
back.
-/
import CodeDesk.Fs.Sending

namespace CodeDesk.Fs

open TransferJob

variable {σ : Type} {compress : Bytes → Bytes} {os : Os σ}
  {send : Send} {j j' : TransferJob σ} {js : List (TransferJob σ)}
  {id : ℤ} {left : σ → Bytes} {p : String} {files : FileList} {data : FileEntry → Bytes} {k : ℕ}
  {e : FileEntry} {f : σ} {rest : Bytes}

/-! ### Jobs do not come back to a file -/

/-- `j'` is `j` at the same file or, from a file of the list, at the next. -/
structure Moves (j j' : TransferJob σ) : Prop where
  task : j'.task = j.task
  num : j'.fileNum = j.fileNum ∨ (asUsize j.fileNum < j.numFiles ∧ j'.fileNum = i32Succ j.fileNum)

theorem Moves.kept (h : Kept j j') : Moves j j' := ⟨h.task, .inl h.fileNum⟩

theorem openDataStream_moves (os : Os σ) (j : TransferJob σ) : Moves j (openDataStream os j).1 := by
  unfold openDataStream
  split <;> rename_i hsrc
  · split
    · exact ⟨rfl, .inl rfl⟩
    rename_i entry hentry
    split
    · exact ⟨rfl, .inl rfl⟩
    · split
      · exact ⟨rfl, .inl rfl⟩
      · exact ⟨rfl, .inr ⟨(List.getElem?_eq_some_iff.1 hentry).1, rfl⟩⟩
  · split
    · exact ⟨rfl, .inl rfl⟩
    · refine ⟨?_, .inl rfl⟩
      simp only [TransferJob.task, isFilePath, hsrc]

theorem initDataStream_moves {out : List FileResponse} {res : Except String Unit}
    (h : initDataStream os send j = (j', out, res)) : Moves j j' := by
  have hm := openDataStream_moves os j
  unfold initDataStream at h
  split at h <;> rename_i hopen <;> rw [hopen] at hm <;> repeat' split at h
  all_goals
    obtain ⟨rfl, -, -⟩ := by simpa using h
    exact { hm with }

theorem read_moves (hp : j.isFilePath = true) {res : Except String (Option FileTransferBlock)}
    (h : j.read compress os = (j', res)) : Moves j j' := by
  unfold TransferJob.read at h
  split at h
  · obtain ⟨rfl, -⟩ := Prod.mk.inj h
    exact .kept (Kept.refl _)
  split_ifs at h with hnum
  · obtain ⟨rfl, -⟩ := Prod.mk.inj h
    exact ⟨rfl, .inl rfl⟩
  · have hlt : asUsize j.fileNum < j.numFiles := by simpa [hp] using hnum
    cases readBlock_spec h with
    | kept _ hk => exact .kept hk
    | failed _ hl | eof hl => exact ⟨hl.task, .inr ⟨hlt, hl.fileNum⟩⟩

structure Past (files : FileList) (k : ℕ) (j : TransferJob σ) : Prop where
  isFilePath : j.isFilePath = true
  list : j.files = files
  lt : (k : ℤ) < j.fileNum
  le : j.fileNum ≤ files.entries.length

def FileTransferBlock.Past (files : FileList) (k : ℕ) (b : FileTransferBlock) : Prop :=
  (k : ℤ) < b.fileNum ∧ b.fileNum ≤ files.entries.length

/-- The confirm is about an entry of the list that has not the number `k`. -/
def SendConfirmRequest.Other (files : FileList) (k : ℕ) (r : SendConfirmRequest) : Prop :=
  ∃ n : ℕ, r.fileNum = n ∧ n ≠ k ∧ n < files.entries.length

namespace Past

theorem moves (h : Past files k j) (hm : Moves j j') : Past files k j' := by
  have hsmall := files.small
  have hlist : j'.files = files := (files_eq_of_task hm.task).trans h.list
  refine ⟨(congrArg Task.isFilePath hm.task).trans h.isFilePath, hlist, ?_, ?_⟩
  all_goals
    have hlt := h.lt
    have hle := h.le
    rcases hm.num with hsame | ⟨hin, hnext⟩
    · omega
    · rw [numFiles, h.list, asUsize] at hin
      rw [hnext, i32Succ, if_neg (by omega)]
      omega

theorem initOne (h : Past files k j) (os : Os σ) (send : Send) :
    Past files k (Fs.initOne os send j).1 := by
  unfold Fs.initOne
  split
  · exact h
  · split <;> rename_i hi <;> exact h.moves (initDataStream_moves hi)

theorem serve {out : List FileResponse} {fin : Option ℤ} {log : Option (JobLog σ)}
    {res : Except String Unit} (hsend : ∀ m, send m = .ok ()) (h : Past files k j)
    (hserve : Fs.serve compress os send j = (j', out, fin, log, res)) :
    Past files k j' ∧ ∀ b, FileResponse.block b ∈ out → b.Past files k := by
  unfold Fs.serve at hserve
  simp only [sendOne_of_ok hsend] at hserve
  split at hserve <;> rename_i hread
  · obtain ⟨rfl, rfl, -⟩ := by simpa using hserve
    exact ⟨h.moves (read_moves h.isFilePath hread), nofun⟩
  · obtain ⟨rfl, rfl, -⟩ := by simpa using hserve
    refine ⟨h.moves (read_moves h.isFilePath hread), fun b hb => ?_⟩
    obtain rfl : b = _ := by simpa using hb
    rw [FileTransferBlock.Past, (read_names hread).2]
    exact ⟨h.lt, h.le⟩
  · have hj := h.moves (read_moves h.isFilePath hread)
    repeat' split at hserve
    all_goals
      obtain ⟨rfl, rfl, -⟩ := by simpa using hserve
      exact ⟨hj, nofun⟩

theorem confirm {r : SendConfirmRequest} (h : Past files k j) (hc : j.confirm os r = some j')
    (hr : r.Other files k) : Past files k j' := by
  obtain ⟨n, hrn, -, hlt⟩ := hr
  have hsmall := files.small
  rcases confirm_spec hc with hk | ⟨hn, -, hl⟩
  · exact h.moves (.kept hk)
  · refine h.moves ⟨hl.task, .inr ⟨?_, hl.fileNum⟩⟩
    rwa [hn, hrn, asUsize_natCast (by omega), numFiles, h.list]

end Past

theorem initOne_no_block (os : Os σ) (send : Send) (j : TransferJob σ)
    (b : FileTransferBlock) : FileResponse.block b ∉ (initOne os send j).2 := by
  have hinit : FileResponse.block b ∉ (initDataStream os send j).2.1 := by
    intro hm
    obtain ⟨_, _, he⟩ := initDataStream_sends rfl _ hm
    cases he
  unfold initOne
  split
  · simp
  · split <;> rename_i hi <;> rw [hi] at hinit
    · exact hinit
    · simpa using hinit

theorem initJobs_past (os : Os σ) (hsend : ∀ m, send m = .ok ()) (hjs : ∀ j ∈ js, Past files k j) :
    (∀ j ∈ (initJobs os send js).1, Past files k j) ∧
      ∀ b, FileResponse.block b ∉ (initJobs os send js).2.1 := by
  rw [initJobs_eq hsend]
  constructor
  · intro j hj
    obtain ⟨i, hi, rfl⟩ := List.mem_map.1 hj
    exact (hjs i hi).initOne os send
  · intro b hb
    obtain ⟨i, -, hi⟩ := List.mem_flatMap.1 hb
    exact initOne_no_block os send i b hi

theorem handleReadJobs_past (compress : Bytes → Bytes) (os : Os σ) (hsend : ∀ m, send m = .ok ())
    (hjs : ∀ j ∈ js, Past files k j) :
    (∀ j ∈ (handleReadJobs compress os send js).jobs, Past files k j) ∧
      ∀ b, FileResponse.block b ∈ (handleReadJobs compress os send js).sent → b.Past files k := by
  obtain ⟨hinit, hblocks⟩ := initJobs_past os hsend hjs
  rcases readFirst_cases compress os send (initJobs os send js).1 with
    ⟨hall, -⟩ | ⟨pre, j, post, hsplit, hpre, hj⟩
  · rw [handleReadJobs_idle hsend compress hall]
    exact ⟨hinit, fun b hb => absurd hb (hblocks b)⟩
  · obtain ⟨j', out, fin, log, hserve, -⟩ := serve_share hsend compress os j
    rw [handleReadJobs_served hsend hsplit hpre hj hserve]
    rw [hsplit] at hinit
    obtain ⟨hj', hout⟩ := (hinit j (by simp)).serve hsend hserve
    have hjobs : ∀ i ∈ pre ++ j' :: post, Past files k i :=
      List.forall_mem_append.2 ⟨fun i hi => hinit i (by simp [hi]),
        List.forall_mem_cons.2 ⟨hj', fun i hi => hinit i (by simp [hi])⟩⟩
    constructor
    · cases fin with
      | none => exact hjobs
      | some => exact fun l hl => hjobs l (List.mem_of_mem_eraseP hl)
    · intro b hb
      exact hout b ((List.mem_append.1 hb).resolve_left (hblocks b))

/-! ### The resumed file -/

/-- The read job is at the entry with number `k` of its list. -/
structure AtFile (p : String) (id : ℤ) (files : FileList) (k : ℕ) (j : TransferJob σ) : Prop where
  id : j.id = id
  type : j.type = .generic
  active : j.isLastJob = false
  source : j.dataSource = .filePath p
  list : j.files = files
  num : j.fileNum = k

/-- The sender can seek in the file of the entry, which holds `content`: its
path is accepted, which needs that no part of it is a symbolic link, and it
has not itself a partial file with a digest beside it. -/
structure Seekable (left : σ → Bytes) (p : String) (e : FileEntry) (content : Bytes) (os : Os σ) :
    Prop where
  path : joinValidatedPath os.symlinkMetadata p e.name = .ok (join p e.name)
  alone : (os.pathExists (downloadPath (join p e.name)) &&
    os.pathExists (digestPath (join p e.name))) = false
  there : os.pathExists (join p e.name) = true
  seeks : ∀ n, ∃ f f', os.openFile (join p e.name) = .ok f ∧ os.seek f n = .ok f' ∧
    left f' = content.drop n

/-- The job reads the entry on the stream `f`, and the peer has confirmed it. -/
structure Picked (p : String) (id : ℤ) (files : FileList) (k : ℕ) (e : FileEntry) (f : σ)
    (j : TransferJob σ) : Prop extends AtFile p id files k j where
  entry : files.entries[k]? = some e
  confirmed : j.fileConfirmed = true
  stream : j.dataStream = some (.fileStream f)

theorem AtFile.confirm {content : Bytes} (h : AtFile p id files k j)
    (he : files.entries[k]? = some e) (hs : Seekable left p e content os) {n : ℕ} (hn : 0 < n)
    {r : SendConfirmRequest} (hr : r.fileNum = k) (hu : r.union = some (.offsetBlk n)) :
    ∃ f j', j.confirm os r = some j' ∧ Picked p id files k e f j' ∧ left f = content.drop n := by
  have hsmall := files.small
  have hlt := (List.getElem?_eq_some_iff.1 he).1
  obtain ⟨f₀, f, hopen, hseek, hleft⟩ := hs.seeks n
  have hfile : offsetFile os (join p e.name) = .ok f₀ := by
    rw [offsetFile, hs.alone, if_neg nofun, if_pos hs.there, hopen]
  have hpath : j.resolveEntryPath os p e.name = some (join p e.name) := by
    simp only [resolveEntryPath, h.type, hs.path]
  have hentry : j.files.entries[asUsize r.fileNum]? = some e := by
    rw [hr, asUsize_natCast (by omega), h.list, he]
  refine ⟨f, _, confirm_offset (h.num.trans hr.symm) hu hn h.source hentry hpath hfile hseek, ?_, hleft⟩
  exact ⟨{ h with }, he, rfl, rfl⟩

theorem Picked.reads (h : Picked p id files k e f j) :
    Reads p j f ∧ j.blockName = sentName p files e := by
  have hsmall := files.small
  have hlt := (List.getElem?_eq_some_iff.1 h.entry).1
  have hnum : asUsize j.fileNum = k := by rw [h.num, asUsize_natCast (by omega)]
  refine ⟨⟨h.active, h.source, ?_, ?_, h.stream⟩, ?_⟩
  · rwa [hnum, numFiles, h.list]
  · rw [h.confirmed, Bool.not_true, Bool.and_false]
  · simp only [blockName, sentName, h.source, h.list, hnum, h.entry, numFiles]

/-! ### A whole run -/

/-- An input after the resume of the entry with number `k`: a tick without an
error, a confirm about another entry of the list, or something about another
id. -/
def Continues (left : σ → Bytes) (p : String) (id : ℤ) (files : FileList)
    (data : FileEntry → Bytes) (k : ℕ) : Input σ → Prop
  | .tick os send => Serves left p files data os ∧ ∀ m, send m = .ok ()
  | .confirm _ r => r.id = id → r.Other files k
  | i => i.Elsewhere id

/-- Where a job stands that had `rest` of the entry with number `k` left after
it sent `before`: it sends the blocks of `rest`, or it has sent them and is
past the entry. -/
inductive Resumed (compress : Bytes → Bytes) (left : σ → Bytes) (p : String) (id : ℤ)
    (files : FileList) (k : ℕ) (e : FileEntry) (rest : Bytes) (before : List FileResponse)
    (s : Sys σ) : Prop
  | reading (j : TransferJob σ) (f : σ) (ps : List FileTransferBlock) :
      (s.share id).jobs = [j] → (s.share id).sent = before ++ ps.map .block →
      Picked p id files k e f j →
      ps ++ fileBlocks compress id k (sentName p files e) (left f) =
        fileBlocks compress id k (sentName p files e) rest →
      Resumed compress left p id files k e rest before s
  | past (later : List FileResponse) :
      (s.share id).sent = before ++
        ((fileBlocks compress id k (sentName p files e) rest).map .block ++ later) →
      (∀ j ∈ (s.share id).jobs, Past files k j) →
      (∀ b, FileResponse.block b ∈ later → b.Past files k) →
      Resumed compress left p id files k e rest before s

theorem Picked.tick (compress : Bytes → Bytes) (hs : Serves left p files data os)
    (hsend : ∀ m, send m = .ok ()) (h : Picked p id files k e f j) :
    ∃ j' b, handleReadJobs compress os send [j] = ⟨[j'], [.block b], none, .ok none⟩ ∧
      ((∃ f', Picked p id files k e f' j' ∧ fileBlocks compress id k (sentName p files e) (left f) =
            b :: fileBlocks compress id k (sentName p files e) (left f')) ∨
        (Past files k j' ∧ fileBlocks compress id k (sentName p files e) (left f) = [b])) := by
  obtain ⟨hreads, hname⟩ := h.reads
  by_cases hrest : left f = []
  · have htick := tick_eof compress hs hsend hreads hrest
    refine ⟨_, _, htick, .inr ⟨⟨?_, h.list, ?_, ?_⟩, ?_⟩⟩
    · simp only [isFilePath, h.source]
    all_goals
      have hsmall := files.small
      have hlt := (List.getElem?_eq_some_iff.1 h.entry).1
    · simp only [h.num, i32Succ_natCast (show k < 2147483647 by omega)]
      omega
    · simp only [h.num, i32Succ_natCast (show k < 2147483647 by omega)]
      omega
    · rw [hrest, fileBlocks_nil, h.id, h.num]
  · obtain ⟨f', hleft, htick⟩ := tick_chunk compress hs hsend hreads hrest
    refine ⟨_, _, htick, .inl ⟨f', ⟨{ h with }, h.entry, h.confirmed, rfl⟩, ?_⟩⟩
    rw [fileBlocks_cons hrest, hleft, h.id, h.num, hname]

namespace Resumed

variable {before : List FileResponse} {s : Sys σ} {i : Input σ}

variable (h : Resumed compress left p id files k e rest before s)

include h

theorem congr {s' : Sys σ}
    (hs : s'.share id = s.share id) : Resumed compress left p id files k e rest before s' := by
  cases h with
  | reading j f ps hjobs hsent hp hps =>
    exact reading j f ps (hs ▸ hjobs) (hs ▸ hsent) hp hps
  | past later hsent hjobs hlater => exact past later (hs ▸ hsent) (hs ▸ hjobs) hlater

theorem tick (hs : Serves left p files data os) (hsend : ∀ m, send m = .ok ())
    (hc : s.closed = false) :
    Resumed compress left p id files k e rest before (s.step compress (.tick os send)) := by
  obtain ⟨-, hshare⟩ := Sys.share_tick hsend compress os id hc
  cases h with
  | reading j f ps hjobs hsent hp hps =>
    rcases hshare with hshare | hshare
    · obtain ⟨j', b, htick, hnext⟩ := hp.tick compress hs hsend
      have hsent' : ((s.step compress (.tick os send)).share id).sent =
          before ++ (ps ++ [b]).map .block := by
        simp [hshare, Share.tick, hjobs, htick, hsent]
      have hjobs' : ((s.step compress (.tick os send)).share id).jobs = [j'] := by
        simp [hshare, Share.tick, hjobs, htick]
      rcases hnext with ⟨f', hp', hblocks⟩ | ⟨hpast, hblocks⟩
      · refine reading j' f' (ps ++ [b]) hjobs' hsent' hp' ?_
        rw [← hps, hblocks, List.append_assoc]
        rfl
      · refine past [] ?_ (by simpa [hjobs'] using hpast) (by simp)
        rw [hsent', ← hps, hblocks, List.append_nil]
    · refine reading j f ps ?_ ?_ hp hps
      · simp [hshare, Share.wait, hjobs, hp.reads.1.init os send]
      · simp [hshare, Share.wait, hjobs, hp.reads.1.init os send, hsent]
  | past later hsent hjobs hlater =>
    rcases hshare with hshare | hshare
    · obtain ⟨hjobs', hblocks⟩ := handleReadJobs_past compress os hsend hjobs
      refine past (later ++ (handleReadJobs compress os send (s.share id).jobs).sent) ?_ ?_ ?_
      · rw [hshare, Share.tick, hsent]
        simp
      · rwa [hshare]
      · intro b hb
        exact (List.mem_append.1 hb).elim (hlater b) (hblocks b)
    · obtain ⟨hjobs', hblocks⟩ := initJobs_past os hsend hjobs
      refine past (later ++ (initJobs os send (s.share id).jobs).2.1) ?_ ?_ ?_
      · rw [hshare, Share.wait, hsent]
        simp
      · rwa [hshare]
      · intro b hb
        exact (List.mem_append.1 hb).elim (hlater b) fun hb => absurd hb (hblocks b)

theorem confirm {r : SendConfirmRequest} (hr : r.id = id) (hother : r.Other files k)
    (hc : s.closed = false) :
    Resumed compress left p id files k e rest before (s.step compress (.confirm os r)) := by
  have hshare := Sys.share_confirm compress os hr hc
  cases h with
  | reading j f ps hjobs hsent hp hps =>
    refine reading j f ps ?_ (by rw [hshare]; exact hsent) hp hps
    -- the job is at another file and takes no notice
    have hj : j.confirm os r = some j := by
      obtain ⟨n, hn, hne, -⟩ := hother
      rw [TransferJob.confirm, if_pos (by rw [hp.num, hn]; omega)]
    rw [hshare, hjobs]
    simp [confirmJobs, hp.id, hr, hj]
  | past later hsent hjobs hlater =>
    refine past later (by rw [hshare]; exact hsent) ?_ hlater
    rw [hshare]
    cases hcj : confirmJobs os r (s.share id).jobs with
    | none => exact hjobs
    | some => exact confirmJobs_forall (fun j j' hj _ hc => hj.confirm hc hother) hjobs hcj

theorem step (hi : Continues left p id files data k i) :
    Resumed compress left p id files k e rest before (s.step compress i) := by
  cases hc : s.closed with
  | true =>
    have hs : s.step compress i = s := by rw [Sys.step.eq_def, if_pos hc]
    rwa [hs]
  | false =>
    cases i with
    | tick => exact h.tick hi.1 hi.2 hc
    | add | resume | cancel => exact h.congr (Sys.share_elsewhere compress hi)
    | confirm os r =>
      by_cases hr : r.id = id
      · exact h.confirm hr (hi hr) hc
      · exact h.congr (Sys.share_elsewhere (i := .confirm os r) compress hr)

end Resumed

theorem Picked.sent_of_ticks (compress : Bytes → Bytes) {s : Sys σ} {is : List (Input σ)}
    (h : Picked p id files k e f j)
    (hjobs : s.jobs = [j]) (hc : s.closed = false)
    (hlen : is.length = (fileBlocks compress id k (sentName p files e) (left f)).length)
    (hticks : ∀ i ∈ is, ∃ os send, i = .tick os send ∧ Serves left p files data os ∧
      ∀ m, send m = .ok ()) :
    (Run.run (Sys.step compress) s is).sent =
      s.sent ++ (fileBlocks compress id k (sentName p files e) (left f)).map .block := by
  induction is generalizing s j f with
  | nil => simp [fileBlocks] at hlen
  | cons i is ih =>
    obtain ⟨os, send, rfl, hs, hsend⟩ := hticks i List.mem_cons_self
    obtain ⟨j', b, htick, hnext⟩ := h.tick compress hs hsend
    have hsent : (s.step compress (.tick os send)).sent = s.sent ++ [.block b] := by
      simp [Sys.step, hc, hjobs, htick]
    rw [Run.run_cons]
    rcases hnext with ⟨f', h', hblocks⟩ | ⟨-, hblocks⟩
    · rw [hblocks] at hlen ⊢
      rw [ih h' ?_ ?_ (by simpa using hlen) fun i hi => hticks i (List.mem_cons_of_mem _ hi), hsent,
        List.append_assoc]
      · rfl
      · simp [Sys.step, hc, hjobs, htick]
      · simp [Sys.step, hc, hjobs, htick, Except.isOk, Except.toBool]
    · rw [hblocks] at hlen ⊢
      obtain rfl : is = [] := by simpa using hlen
      exact hsent

end CodeDesk.Fs
