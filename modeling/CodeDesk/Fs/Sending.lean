/-
# What a read job sends

A job without overwrite detection whose files can be opened and read sends,
tick by tick, a fixed list of blocks, whatever pieces the system reads in:
each file in chunks of the buffer's size and an empty block at its end
(`jobBlocks`), and then `FileTransferDone`. `Sends j ms` says that the blocks
`ms` are still to come; `Stage` follows the job through every run of its
connection.
-/
import CodeDesk.Chunks
import CodeDesk.Fs.Share

namespace CodeDesk.Fs

open TransferJob Chunks

variable {σ : Type} {compress : Bytes → Bytes} {os : Os σ}
  {send : Send} {j j' : TransferJob σ} {id : ℤ}

/-! ### Reading a file -/

/-- The files can be opened and read, and nothing fails: `left f` is what an
open file has left. A read may give less than it is asked for, but nothing
only at the end. -/
structure Serves (left : σ → Bytes) (p : String) (files : FileList) (data : FileEntry → Bytes)
    (os : Os σ) : Prop where
  opens : ∀ e ∈ files.entries, ∃ f, os.openFile (join p e.name) = .ok f ∧ left f = data e
  reads : ∀ f n, 0 < n → ∃ bs f', os.readFile f n = .ok (bs, f') ∧ bs.length ≤ n ∧
    left f = bs ++ left f' ∧ (bs = [] → left f = [])

variable {left : σ → Bytes} {p : String} {files : FileList} {data : FileEntry → Bytes}

theorem fillBuf_serves (hs : Serves left p files data os) : ∀ (fuel : ℕ) (f : σ) (buf : Bytes),
    buf.length < bufSize → bufSize ≤ fuel + buf.length →
    ∃ f', fillBuf os fuel (.fileStream f) buf =
        .ok (buf ++ (left f).take (bufSize - buf.length), .fileStream f') ∧
      left f' = (left f).drop (bufSize - buf.length)
  | 0, _, _, hlt, hfuel => by omega
  | fuel + 1, f, buf, hlt, hfuel => by
    obtain ⟨bs, f', hread, hlen, hleft, hend⟩ := hs.reads f (bufSize - buf.length) (by omega)
    have hstream : streamRead os (.fileStream f) (bufSize - buf.length) =
        .ok (bs, .fileStream f') := by
      simp only [streamRead, hread, List.take_of_length_le hlen]
    rw [fillBuf, hstream]
    simp only
    split
    · rename_i hstop
      refine ⟨f', ?_⟩
      rcases hstop with h0 | hfull
      · have hbs : bs = [] := List.length_eq_zero_iff.1 h0
        rw [hend hbs, hbs, List.nil_append] at hleft
        rw [hend hbs, hbs, ← hleft, List.take_nil, List.drop_nil]
        exact ⟨rfl, rfl⟩
      · rw [hleft, List.take_left' (by omega), List.drop_left' (by omega)]
        exact ⟨rfl, rfl⟩
    · have hbuf : (buf ++ bs).length = buf.length + bs.length := List.length_append
      obtain ⟨f'', hfill, hleft'⟩ := fillBuf_serves hs fuel f' (buf ++ bs) (by omega) (by omega)
      refine ⟨f'', ?_, ?_⟩
      · rw [hfill, hleft, hbuf, List.append_assoc, List.take_append, List.take_of_length_le hlen,
          Nat.sub_sub]
      · rw [hleft', hleft, hbuf, List.drop_append, List.drop_of_length_le hlen, List.nil_append,
          Nat.sub_sub]

def pack (compress : Bytes → Bytes) (id fileNum : ℤ) (name : String) (chunk : Bytes) :
    FileTransferBlock :=
  if !isCompressedFile name && decide ((compress chunk).length < chunk.length) then
    ⟨id, fileNum, compress chunk, true⟩
  else ⟨id, fileNum, chunk, false⟩

def fileBlocks (compress : Bytes → Bytes) (id fileNum : ℤ) (name : String) (rest : Bytes) :
    List FileTransferBlock :=
  (chunks bufSize rest).map (pack compress id fileNum name) ++ [⟨id, fileNum, [], false⟩]

theorem fileBlocks_cons {fileNum : ℤ} {name : String} {rest : Bytes} (hr : rest ≠ []) :
    fileBlocks compress id fileNum name rest = pack compress id fileNum name (rest.take bufSize) ::
        fileBlocks compress id fileNum name (rest.drop bufSize) := by
  rw [fileBlocks, chunks_cons hr (by decide)]
  rfl

theorem fileBlocks_nil (fileNum : ℤ) (name : String) :
    fileBlocks compress id fileNum name [] = [⟨id, fileNum, [], false⟩] := by
  rw [fileBlocks, chunks_nil]
  rfl

/-- The job is on an open file of its list and has not to ask the peer. -/
structure Reads (p : String) (j : TransferJob σ) (f : σ) : Prop where
  active : j.isLastJob = false
  source : j.dataSource = .filePath p
  num : asUsize j.fileNum < j.numFiles
  passes : (j.type == .generic && j.enableOverwriteDetection && !j.fileConfirmed) = false
  stream : j.dataStream = some (.fileStream f)

variable {f : σ}

theorem initJobs_single (hactive : j.isLastJob = false)
    (hopen : openDataStream os j = (j', .ok false)) (hasks : j'.asksPeer = false)
    (send : Send) : initJobs os send [j] = ([j'], [], .ok ()) := by
  simp [initJobs, initDataStream, hactive, hopen, hasks]

theorem Reads.init (h : Reads p j f) (os : Os σ) (send : Send) :
    initJobs os send [j] = ([j], [], .ok ()) := by
  obtain ⟨e, he⟩ : ∃ e, j.files.entries[asUsize j.fileNum]? = some e :=
    ⟨_, List.getElem?_eq_getElem h.num⟩
  have hopen : openDataStream os j = (j, .ok false) := by
    simp only [openDataStream, h.source, he, h.stream]
  have hasks : j.asksPeer = false := by
    rw [asksPeer, h.passes, Bool.false_and]
  exact initJobs_single h.active hopen hasks send

theorem Reads.read (h : Reads p j f) : j.read compress os = readBlock compress os j := by
  have hnum : decide (j.numFiles ≤ asUsize j.fileNum) = false := by simpa using h.num
  rw [TransferJob.read, h.passes, hnum, Bool.and_false]
  rfl

theorem tick_block (hsend : ∀ m, send m = .ok ()) (h : Reads p j f) {b : FileTransferBlock}
    (hread : readBlock compress os j = (j', .ok (some b))) :
    handleReadJobs compress os send [j] = ⟨[j'], [.block b], none, .ok none⟩ := by
  have hserve : serve compress os send j = (j', [.block b], none, none, .ok ()) := by
    simp only [serve, h.read, hread, sendOne_of_ok hsend]
  have hinit := h.init os send
  have hjs : (initJobs os send [j]).1 = [] ++ j :: [] := by rw [hinit]; rfl
  rw [handleReadJobs_served hsend hjs (by simp) h.active hserve, hinit]
  rfl

section

variable (compress) (hs : Serves left p files data os) (hsend : ∀ m, send m = .ok ())
  (h : Reads p j f)

include hs hsend h

theorem tick_chunk (hrest : left f ≠ []) :
    ∃ f', left f' = (left f).drop bufSize ∧ handleReadJobs compress os send [j] =
        ⟨[{ j with
            dataStream := some (.fileStream f')
            finishedSize := j.finishedSize + ((left f).take bufSize).length
            transferred := j.transferred +
              (pack compress j.id j.fileNum j.blockName ((left f).take bufSize)).data.length }],
          [.block (pack compress j.id j.fileNum j.blockName ((left f).take bufSize))], none,
          .ok none⟩ := by
  obtain ⟨f', hfill, hleft⟩ := fillBuf_serves hs bufSize f [] (by decide) (by simp)
  simp only [List.length_nil, Nat.sub_zero, List.nil_append] at hfill hleft
  have hne : ((left f).take bufSize).length ≠ 0 := by
    have hpos : 0 < (left f).length := List.length_pos_iff.2 hrest
    rw [List.length_take]
    have hbuf : 0 < bufSize := by decide
    omega
  refine ⟨f', hleft, tick_block hsend h ?_⟩
  simp only [readBlock, h.stream, hfill, if_neg hne, packBlock, pack, isFilePath, h.source,
    Bool.true_and]

theorem tick_eof (hrest : left f = []) :
    handleReadJobs compress os send [j] = ⟨[{ j with
          fileNum := i32Succ j.fileNum
          dataStream := none
          fileConfirmed := false
          fileIsWaiting := false
          log := j.logEnd .eof }],
        [.block ⟨j.id, j.fileNum, [], false⟩], none, .ok none⟩ := by
  obtain ⟨f', hfill, -⟩ := fillBuf_serves hs bufSize f [] (by decide) (by simp)
  rw [hrest, List.take_nil, List.append_nil] at hfill
  refine tick_block hsend h ?_
  simp [readBlock, h.stream, hfill, isFilePath, h.source]

end

/-! ### A job without overwrite detection -/

/-- The name by which `read` decides whether to compress a file. -/
def sentName (p : String) (files : FileList) (e : FileEntry) : String :=
  if files.entries.length = 1 ∧ e.name = "" then fileName p else e.name

/-- The blocks of the entries `es`, the first of them with number `k`. -/
def blocksFrom (compress : Bytes → Bytes) (id : ℤ) (p : String) (files : FileList)
    (data : FileEntry → Bytes) : ℕ → List FileEntry → List FileTransferBlock
  | _, [] => []
  | k, e :: es => fileBlocks compress id k (sentName p files e) (data e) ++
      blocksFrom compress id p files data (k + 1) es

def jobBlocks (compress : Bytes → Bytes) (id : ℤ) (p : String) (files : FileList)
    (data : FileEntry → Bytes) : List FileTransferBlock :=
  blocksFrom compress id p files data 0 files.entries

def bytesOf (data : FileEntry → Bytes) (es : List FileEntry) : ℕ := (es.map data).flatten.length

theorem bytesOf_cons (data : FileEntry → Bytes) (e : FileEntry) (es : List FileEntry) :
    bytesOf data (e :: es) = (data e).length + bytesOf data es := by
  rw [bytesOf, List.map_cons, List.flatten_cons, List.length_append]
  rfl

structure Plain (p : String) (id : ℤ) (files : FileList) (j : TransferJob σ) : Prop where
  id : j.id = id
  active : j.isLastJob = false
  source : j.dataSource = .filePath p
  list : j.files = files
  detection : j.enableOverwriteDetection = false
  skipped : j.fileSkipped = false

/-- The job `j` has the blocks of the index still to send: it will open the
next file, or it reads one. What it has read and will read is `total`. -/
inductive Sends (compress : Bytes → Bytes) (left : σ → Bytes) (p : String) (id : ℤ)
    (files : FileList) (data : FileEntry → Bytes) (total : ℕ) (j : TransferJob σ) :
    List FileTransferBlock → Prop
  | opening (past es : List FileEntry) : Plain p id files j → files.entries = past ++ es →
      j.fileNum = past.length → j.dataStream = none → j.finishedSize + bytesOf data es = total →
      Sends compress left p id files data total j
        (blocksFrom compress id p files data past.length es)
  | reading (past es : List FileEntry) (e : FileEntry) (f : σ) : Plain p id files j →
      files.entries = past ++ e :: es → j.fileNum = past.length →
      j.dataStream = some (.fileStream f) →
      j.finishedSize + (left f).length + bytesOf data es = total →
      Sends compress left p id files data total j
        (fileBlocks compress id past.length (sentName p files e) (left f) ++
          blocksFrom compress id p files data (past.length + 1) es)

variable {total : ℕ} {past es : List FileEntry} {e : FileEntry}

theorem asUsize_natCast {n : ℕ} (h : n < 2147483648) : asUsize n = n := by
  unfold asUsize
  omega

theorem i32Succ_natCast {n : ℕ} (h : n < 2147483647) : i32Succ n = (n + 1 : ℕ) := by
  rw [i32Succ, if_neg (by omega)]
  rfl

theorem entry_at (hes : files.entries = past ++ e :: es) :
    past.length < 2147483647 ∧ past.length < files.entries.length ∧
      files.entries[asUsize (past.length : ℤ)]? = some e := by
  have hsmall := files.small
  have hlen : files.entries.length = past.length + (es.length + 1) := by
    rw [hes, List.length_append, List.length_cons]
  refine ⟨by omega, by omega, ?_⟩
  rw [asUsize_natCast (by omega), hes, List.getElem?_append_right (by omega), Nat.sub_self]
  rfl

theorem Plain.reads (h : Plain p id files j) (hes : files.entries = past ++ e :: es)
    (hnum : j.fileNum = past.length) (hstream : j.dataStream = some (.fileStream f)) :
    Reads p j f ∧ j.blockName = sentName p files e := by
  obtain ⟨-, hlt, hget⟩ := entry_at hes
  refine ⟨⟨h.active, h.source, ?_, ?_, hstream⟩, ?_⟩
  · have hsmall := files.small
    rwa [numFiles, h.list, hnum, asUsize_natCast (by omega)]
  · rw [h.detection, Bool.and_false, Bool.false_and]
  · simp only [blockName, sentName, h.source, h.list, hnum, hget, numFiles]

theorem Plain.opens (hs : Serves left p files data os) (h : Plain p id files j) (send : Send)
    (hes : files.entries = past ++ e :: es)
    (hnum : j.fileNum = past.length) (hstream : j.dataStream = none) :
    ∃ f j', initJobs os send [j] = ([j'], [], .ok ()) ∧ Plain p id files j' ∧
      j'.fileNum = past.length ∧ j'.dataStream = some (.fileStream f) ∧ left f = data e ∧
      j'.finishedSize + (left f).length + bytesOf data es =
        j.finishedSize + bytesOf data (e :: es) := by
  obtain ⟨-, -, hget⟩ := entry_at hes
  have hmem : e ∈ files.entries := by simp [hes]
  obtain ⟨f, hopen, hleft⟩ := hs.opens e hmem
  have hget' : j.files.entries[asUsize j.fileNum]? = some e := by rw [h.list, hnum, hget]
  have hasks : ({ j with
      dataStream := some (.fileStream f)
      fileConfirmed := false
      fileIsWaiting := false } : TransferJob σ).asksPeer = false := by
    simp [asksPeer, h.detection]
  refine ⟨f, _, initJobs_single h.active ?_ hasks send, { h with }, hnum, rfl, hleft, ?_⟩
  · simp only [openDataStream, h.source, hget', hstream, hopen]
  · rw [bytesOf_cons, hleft, Nat.add_assoc]

theorem Plain.past_end (h : Plain p id files j) (os : Os σ) (send : Send)
    (hnum : j.fileNum = files.entries.length) (hstream : j.dataStream = none) :
    initJobs os send [j] = ([j], [], .ok ()) := by
  have hget : j.files.entries[asUsize j.fileNum]? = none := by
    rw [h.list, hnum, asUsize_natCast files.small]
    exact List.getElem?_eq_none (Nat.le_refl _)
  have hopen : openDataStream os j = ({ j with dataStream := none }, .ok true) := by
    simp only [openDataStream, h.source, hget]
  rw [← hstream] at hopen
  have hopen : openDataStream os j = (j, .ok true) := hopen
  simp [initJobs, initDataStream, h.active, hopen]

namespace Sends

variable {ms : List FileTransferBlock} {m : FileTransferBlock}

theorem reading_tick (hs : Serves left p files data os) (hsend : ∀ m, send m = .ok ())
    (h : Plain p id files j) (hes : files.entries = past ++ e :: es) (hnum : j.fileNum = past.length)
    (hstream : j.dataStream = some (.fileStream f))
    (htotal : j.finishedSize + (left f).length + bytesOf data es = total)
    (hms : fileBlocks compress id past.length (sentName p files e) (left f) ++
      blocksFrom compress id p files data (past.length + 1) es = m :: ms) :
    ∃ j', handleReadJobs compress os send [j] = ⟨[j'], [.block m], none, .ok none⟩ ∧
      Sends compress left p id files data total j' ms := by
  obtain ⟨hreads, hname⟩ := h.reads hes hnum hstream
  by_cases hrest : left f = []
  · rw [hrest, fileBlocks_nil, List.singleton_append, List.cons.injEq] at hms
    obtain ⟨rfl, rfl⟩ := hms
    have htick := tick_eof compress hs hsend hreads hrest
    have hm : (⟨j.id, j.fileNum, [], false⟩ : FileTransferBlock) = ⟨id, past.length, [], false⟩ := by
      rw [h.id, hnum]
    rw [hm] at htick
    refine ⟨_, htick, ?_⟩
    have hpast : past.length + 1 = (past ++ [e]).length := by rw [List.length_append]; rfl
    have hnum' : i32Succ j.fileNum = ((past ++ [e]).length : ℕ) := by
      rw [hnum, i32Succ_natCast (entry_at hes).1, hpast]
    rw [hpast]
    refine opening _ _ { h with } ?_ hnum' rfl ?_
    · rw [hes, List.append_assoc]
      rfl
    · rwa [hrest] at htotal
  · rw [fileBlocks_cons hrest, List.cons_append, List.cons.injEq] at hms
    obtain ⟨rfl, rfl⟩ := hms
    obtain ⟨f', hleft, htick⟩ := tick_chunk compress hs hsend hreads hrest
    have hm : pack compress j.id j.fileNum j.blockName ((left f).take bufSize) =
        pack compress id past.length (sentName p files e) ((left f).take bufSize) := by
      rw [h.id, hnum, hname]
    rw [hm] at htick
    refine ⟨_, htick, ?_⟩
    rw [← hleft]
    refine reading _ _ _ _ { h with } hes hnum rfl ?_
    show j.finishedSize + ((left f).take bufSize).length + (left f').length + bytesOf data es = total
    rw [hleft, List.length_take, List.length_drop]
    omega

theorem wait (hs : Serves left p files data os) (send : Send)
    (h : Sends compress left p id files data total j ms) :
    ∃ j', initJobs os send [j] = ([j'], [], .ok ()) ∧
      Sends compress left p id files data total j' ms := by
  cases h with
  | opening past es hp hes hnum hstream htotal =>
    cases es with
    | nil =>
      rw [List.append_nil] at hes
      refine ⟨j, hp.past_end os send (by rw [hnum, hes]) hstream, ?_⟩
      exact opening past [] hp (by rw [hes, List.append_nil]) hnum hstream htotal
    | cons e es =>
      obtain ⟨f, j', hinit, hp', hnum', hstream', hleft, hsize⟩ := hp.opens hs send hes hnum hstream
      refine ⟨j', hinit, ?_⟩
      rw [blocksFrom, ← hleft]
      exact reading _ _ _ _ hp' hes hnum' hstream' (hsize.trans htotal)
  | reading past es e f hp hes hnum hstream htotal =>
    exact ⟨j, (hp.reads hes hnum hstream).1.init os send,
      reading past es e f hp hes hnum hstream htotal⟩

theorem tick_cons (hs : Serves left p files data os) (hsend : ∀ m, send m = .ok ())
    (h : Sends compress left p id files data total j (m :: ms)) :
    ∃ j', handleReadJobs compress os send [j] = ⟨[j'], [.block m], none, .ok none⟩ ∧
      Sends compress left p id files data total j' ms := by
  generalize hms : m :: ms = bs at h
  cases h with
  | opening past es hp hes hnum hstream htotal =>
    cases es with
    | nil => cases hms
    | cons e es =>
      -- the tick opens the file and reads it
      obtain ⟨f, j', hinit, hp', hnum', hstream', hleft, hsize⟩ := hp.opens hs send hes hnum hstream
      have hinit' := (hp'.reads hes hnum' hstream').1.init os send
      rw [handleReadJobs, hinit.trans hinit'.symm, ← handleReadJobs]
      refine reading_tick hs hsend hp' hes hnum' hstream' (hsize.trans htotal) ?_
      rw [hms, hleft]
      rfl
  | reading past es e f hp hes hnum hstream htotal =>
    exact reading_tick hs hsend hp hes hnum hstream htotal hms.symm

theorem tick_nil (os : Os σ) (hsend : ∀ m, send m = .ok ())
    (h : Sends compress left p id files data total j []) :
    ∃ log, handleReadJobs compress os send [j] =
        ⟨[], [.done id files.entries.length], some j, .ok log⟩ ∧
      j.id = id ∧ j.finishedSize = total := by
  generalize hms : [] = bs at h
  cases h with
  | opening past es hp hes hnum hstream htotal =>
    cases es with
    | cons =>
      rw [blocksFrom, fileBlocks] at hms
      simp at hms
    | nil =>
      rw [List.append_nil] at hes
      have hinit := hp.past_end os send (by rw [hnum, hes]) hstream
      have hread : j.read compress os = (j, .ok none) := by
        have hnum' : decide (j.numFiles ≤ asUsize j.fileNum) = true := by
          have hsmall := files.small
          rw [hes] at hsmall
          rw [numFiles, hp.list, hnum, asUsize_natCast hsmall, hes]
          simp
        have hr : j.read compress os = ({ j with dataStream := none }, .ok none) := by
          simp [TransferJob.read, hp.detection, isFilePath, hp.source, hnum']
        rwa [← hstream] at hr
      have hdone : j.jobCompleted = true := by simp [jobCompleted, hp.detection]
      have herr : j.jobError = none := by simp [jobError, jobSkipped, hp.skipped]
      have hserve : serve compress os send j =
          (j, [.done j.id j.fileNum], some j.id, some ⟨j, true, false, ""⟩, .ok ()) := by
        simp [serve, hread, hdone, herr, sendOne_of_ok hsend]
      have hjs : (initJobs os send [j]).1 = [] ++ j :: [] := by rw [hinit]; rfl
      refine ⟨some ⟨j, true, false, ""⟩, ?_, hp.id, htotal⟩
      rw [handleReadJobs_served hsend hjs (by simp) hp.active hserve, hinit]
      simp [removeJob, getJob, hp.id, hnum, hes]
  | reading => simp [fileBlocks] at hms

end Sends

/-! ### A whole run -/

/-- An input of a run that drives the jobs of `id`: a tick without an error,
or something about another id. -/
def Drives (left : σ → Bytes) (p : String) (id : ℤ) (files : FileList) (data : FileEntry → Bytes) :
    Input σ → Prop
  | .tick os send => Serves left p files data os ∧ ∀ m, send m = .ok ()
  | i => i.Elsewhere id

/-- Where the job stands: it sent some of its blocks and the others are to
come, or it sent them all and is removed. -/
inductive Stage (compress : Bytes → Bytes) (left : σ → Bytes) (p : String) (id : ℤ)
    (files : FileList) (data : FileEntry → Bytes) (s : Sys σ) : Prop
  | sending (j : TransferJob σ) (ps ms : List FileTransferBlock) :
      s.share id = ⟨[j], ps.map .block, []⟩ →
      Sends compress left p id files data (bytesOf data files.entries) j ms →
      ps ++ ms = jobBlocks compress id p files data → Stage compress left p id files data s
  | finished (j : TransferJob σ) :
      s.share id = ⟨[], (jobBlocks compress id p files data).map .block ++
        [.done id files.entries.length], [j]⟩ →
      j.finishedSize = bytesOf data files.entries → Stage compress left p id files data s

namespace Stage

variable {s : Sys σ} {i : Input σ}

section

variable (h : Stage compress left p id files data s)

include h

theorem congr {s' : Sys σ}
    (hs : s'.share id = s.share id) : Stage compress left p id files data s' := by
  cases h with
  | sending j ps ms hshare hsends hps => exact sending j ps ms (hs.trans hshare) hsends hps
  | finished j hshare hsize => exact finished j (hs.trans hshare) hsize

theorem tick (hs : Serves left p files data os) (hsend : ∀ m, send m = .ok ())
    (hc : s.closed = false) :
    Stage compress left p id files data (s.step compress (.tick os send)) := by
  obtain ⟨-, hshare'⟩ := Sys.share_tick hsend compress os id hc
  cases h with
  | sending j ps ms hshare hsends hps =>
    rw [hshare] at hshare'
    rcases hshare' with hshare' | hshare'
    · cases ms with
      | nil =>
        obtain ⟨log, htick, hid, hsize⟩ := hsends.tick_nil os hsend
        rw [List.append_nil] at hps
        refine finished j ?_ hsize
        simp [hshare', Share.tick, htick, hps]
      | cons m ms =>
        obtain ⟨j', htick, hsends'⟩ := hsends.tick_cons hs hsend
        refine sending j' (ps ++ [m]) ms ?_ hsends' (by rw [List.append_assoc]; exact hps)
        simp [hshare', Share.tick, htick]
    · obtain ⟨j', hinit, hsends'⟩ := hsends.wait hs send
      refine sending j' ps ms ?_ hsends' hps
      simp [hshare', Share.wait, hinit]
  | finished j hshare hsize =>
    rw [hshare] at hshare'
    refine finished j ?_ hsize
    rcases hshare' with hshare' | hshare'
    · simp [hshare', Share.tick, handleReadJobs, initJobs, readFirst]
    · simp [hshare', Share.wait, initJobs]

theorem step (hi : Drives left p id files data i) :
    Stage compress left p id files data (s.step compress i) := by
  cases hc : s.closed with
  | true =>
    have hs : s.step compress i = s := by rw [Sys.step.eq_def, if_pos hc]
    rwa [hs]
  | false =>
    cases i with
    | tick => exact h.tick hi.1 hi.2 hc
    | add | resume | cancel | confirm => exact h.congr (Sys.share_elsewhere compress hi)

end

theorem add (compress : Bytes → Bytes) (left : σ → Bytes) (p : String) (files : FileList)
    (data : FileEntry → Bytes) (hc : s.closed = false) (hnew : s.share id = ⟨[], [], []⟩) :
    Stage compress left p id files data
      (s.step compress (.add false id .generic (.filePath p) 0 files false)) := by
  simp only [Sys.share, Share.mk.injEq] at hnew
  refine sending (newRead id .generic (.filePath p) 0 files false) [] _ ?_
    (.opening [] files.entries ⟨rfl, rfl, rfl, rfl, rfl, rfl⟩ rfl rfl rfl ?_) rfl
  · simp only [Sys.step, hc, Bool.false_eq_true, ↓reduceIte, Sys.share, List.filter_append, hnew]
    simp [newRead]
  · simp [newRead]

/-- Once `FileTransferDone` is sent, so are all blocks, in order. -/
theorem all_sent {n : ℤ} (h : Stage compress left p id files data s)
    (hdone : FileResponse.done id n ∈ s.sent) :
    ∃ j, s.share id = ⟨[], (jobBlocks compress id p files data).map .block ++
        [.done id files.entries.length], [j]⟩ ∧
      j.finishedSize = bytesOf data files.entries := by
  cases h with
  | sending j ps ms hshare =>
    have hmem : FileResponse.done id n ∈ (s.share id).sent :=
      List.mem_filter.2 ⟨hdone, by simp [FileResponse.jobId]⟩
    rw [hshare] at hmem
    simp at hmem
  | finished j hshare hsize => exact ⟨j, hshare, hsize⟩

end Stage

theorem Sys.sent_subset_run (compress : Bytes → Bytes) (s : Sys σ) (is : List (Input σ)) :
    s.sent ⊆ (Run.run (Sys.step compress) s is).sent := by
  refine Run.inv_run (I := fun t : Sys σ => s.sent ⊆ t.sent) (fun t i ht => ?_) (List.Subset.refl _) is
  unfold Sys.step
  split
  · exact ht
  cases i with
  | tick => exact List.Subset.trans ht (List.subset_append_left _ _)
  | add | resume | cancel => exact ht
  | confirm =>
    simp only
    split <;> exact ht

theorem Sends.done_of_ticks {s : Sys σ} {ms : List FileTransferBlock} {is : List (Input σ)}
    (h : Sends compress left p id files data total j ms) (hjobs : s.jobs = [j])
    (hc : s.closed = false) (hlen : ms.length < is.length)
    (hticks : ∀ i ∈ is, ∃ os send, i = .tick os send ∧ Serves left p files data os ∧
      ∀ m, send m = .ok ()) :
    FileResponse.done id files.entries.length ∈ (Run.run (Sys.step compress) s is).sent := by
  induction ms generalizing s j is with
  | nil =>
    cases is with
    | nil => simp at hlen
    | cons i is =>
      obtain ⟨os, send, rfl, hs, hsend⟩ := hticks i List.mem_cons_self
      obtain ⟨log, htick, -, -⟩ := h.tick_nil os hsend
      refine Sys.sent_subset_run compress _ is ?_
      simp [Sys.step, hc, hjobs, htick]
  | cons m ms ih =>
    cases is with
    | nil => simp at hlen
    | cons i =>
      obtain ⟨os, send, rfl, hs, hsend⟩ := hticks i List.mem_cons_self
      obtain ⟨j', htick, h'⟩ := h.tick_cons hs hsend
      rw [Run.run_cons]
      refine ih h' ?_ ?_ (by simpa using hlen) fun k hk => hticks k (List.mem_cons_of_mem _ hk)
      · simp [Sys.step, hc, hjobs, htick]
      · simp [Sys.step, hc, hjobs, htick, Except.isOk, Except.toBool]

end CodeDesk.Fs
