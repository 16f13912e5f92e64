/-
# Receiving files on a system that refuses nothing

What the calls of a write job leave in the destination when nothing fails
(`Io.Clean`). A call of `modify_time` promotes the partial file of the
current entry (`promoted`); the first block of an entry does so too and opens
the entry anew, and each block makes the partial file longer (`On`). Between
two entries a job is described by what its next promotion would leave
(`Ready`), so that receiving an entry is one step on directories: its bytes
stand at the final path and its two helper files are gone (`received`).
-/
import CodeDesk.Fs.Containment

namespace CodeDesk.Fs

open Files TransferJob

/-- Nothing stands in the way of receiving these files under `p`. -/
structure Io.Clean (io : Io) (p : String) (files : FileList) : Prop where
  refuses : ∀ call k, io.refuses call k = false
  regular : ∀ e ∈ files.entries, io.other (tempKey p e) = false ∧ io.other (digestKey p e) = false
  paths : ∀ e ∈ files.entries, joinValidatedPath io.symlinkMetadata p e.name = .ok (join p e.name)
  writes : io.writeFails = none

/-- The directory after an entry is received: `data` at its path, and neither
a partial file nor a digest. -/
def received (p : String) (dir : Dir) (e : FileEntry) (data : Bytes) : Dir :=
  remove (remove (put dir (finalKey p e) data) (tempKey p e)) (digestKey p e)

def TransferJob.withStream {σ : Type} (j : TransferJob σ) (st : Option (DataStream σ)) :
    TransferJob σ :=
  { j with dataStream := st }

namespace WriteSys

variable {json : FileDigest → Bytes} {decompress : Bytes → Bytes} {io : Io} {p : String}
  {files : FileList} {s : WriteSys} {e : FileEntry} {id : ℤ}

def promoted (p : String) (s : WriteSys) : Dir :=
  match s.job.files.entries[asUsize s.job.fileNum]? with
  | some e => rename (remove s.fs (digestKey p e)) (tempKey p e) (finalKey p e)
  | none => s.fs

/-! ### The calls -/

/-- From `s` to `s'` only the files and the handle of the stream change. -/
def Follows (s s' : WriteSys) : Prop := s'.job.withStream none = s.job.withStream none

variable {s' : WriteSys}

theorem Follows.withStream (h : Follows s s')
    (st : Option (DataStream (Handle Key))) : s'.job.withStream st = s.job.withStream st :=
  congrArg (·.withStream st) h

theorem Follows.field {α : Type} (h : Follows s s')
    (g : TransferJob (Handle Key) → α) : g (s'.job.withStream none) = g (s.job.withStream none) :=
  congrArg g h

theorem Follows.receives (h : Follows s s') (hs : Receives p files s) : Receives p files s' :=
  ⟨(h.field (·.type)).trans hs.type, (h.field (·.dataSource)).trans hs.source,
    (h.field (·.files)).trans hs.list⟩

theorem follows_mapHandle (f : Handle Key → Handle Key) (fs : Dir) :
    Follows s ({ s with fs := fs }.mapHandle f) := by
  unfold mapHandle
  split <;> rfl

theorem asUsize_of_entry {k : ℕ} (he : files.entries[k]? = some e) : asUsize (k : ℤ) = k := by
  have hlt := (List.getElem?_eq_some_iff.1 he).1
  have hsmall := files.small
  unfold asUsize
  omega

section

variable (json decompress) (hc : io.Clean p files)

include hc

theorem removeFile_clean (path : String) :
    (s.removeFile io path).1.fs = remove s.fs (components path) ∧
      Follows s (s.removeFile io path).1 := by
  unfold removeFile
  split_ifs with habsent
  · exact ⟨(mapHandle_frame _ _).2.2.2.2.1, follows_mapHandle _ _⟩
  · refine ⟨?_, rfl⟩
    have hnone : s.fs (components path) = none := by simpa [hc.refuses] using habsent
    rw [remove, ← hnone, Function.update_eq_self]

theorem renameFile_clean (src dst : String) :
    (s.renameFile io src dst).fs = rename s.fs (components src) (components dst) ∧
      Follows s (s.renameFile io src dst) := by
  unfold renameFile
  split_ifs with habsent
  · exact ⟨(mapHandle_frame _ _).2.2.2.2.1, follows_mapHandle _ _⟩
  · have hnone : s.fs (components src) = none := by simpa [hc.refuses] using habsent
    exact ⟨(rename_absent hnone).symm, rfl⟩

theorem currentPath_clean (h : Receives p files s) :
    s.currentPath io = (files.entries[asUsize s.job.fileNum]?).map fun e => join p e.name := by
  rw [currentPath, h.type, h.source, h.list]
  cases he : files.entries[asUsize s.job.fileNum]? with
  | none => rfl
  | some e =>
    have hpath := hc.paths e (List.mem_of_getElem? he)
    simp only [Option.map_some, resolveEntryPath, h.type]
    rw [show (io.os s.fs).symlinkMetadata = io.symlinkMetadata from rfl, hpath]

theorem modifyTime_clean (h : Receives p files s) :
    (s.modifyTime io).fs = s.promoted p ∧ Follows s (s.modifyTime io) := by
  rw [modifyTime, promoted, currentPath_clean hc h, h.list]
  cases files.entries[asUsize s.job.fileNum]? with
  | none => exact ⟨rfl, rfl⟩
  | some e =>
    obtain ⟨hfs, hjob⟩ := removeFile_clean (s := s) hc (digestPath (join p e.name))
    obtain ⟨hfs', hjob'⟩ := renameFile_clean (s := (s.removeFile io (digestPath (join p e.name))).1)
      hc (downloadPath (join p e.name)) (join p e.name)
    refine ⟨?_, hjob'.trans hjob⟩
    rwa [hfs] at hfs'

def reopened (p : String) (dir : Dir) (e : FileEntry) (digest : Bytes) (got : Bytes) : Dir :=
  put (put dir (digestKey p e) digest) (tempKey p e) got

section

variable (he : e ∈ files.entries)

include he

theorem entryOpens_clean : entryOpens io p e = true:= by
  obtain ⟨htemp, hdigest⟩ := hc.regular e he
  simp [entryOpens, hc.paths e he, hc.refuses, htemp, hdigest, Except.isOk, Except.toBool]

theorem createStream_clean :
    ∃ s', s.createStream json io (join p e.name) (downloadPath (join p e.name))
        (some (digestPath (join p e.name))) = (s', .ok ()) ∧
      s'.fs = put (put s.fs (tempKey p e) []) (digestKey p e) (json s.job.digest) ∧
      s'.job = s.job.withStream (some (.fileStream ⟨some (tempKey p e), 0, true⟩)) := by
  have hcreate : (io.refuses .create (tempKey p e) || io.other (tempKey p e)) = false := by
    rw [hc.refuses, (hc.regular e he).1]
    rfl
  have hdigest : (io.refuses .writeDigest (digestKey p e) || io.other (digestKey p e)) = false := by
    rw [hc.refuses, (hc.regular e he).2]
    rfl
  rw [createStream, if_neg (by simpa [tempKey] using hcreate)]
  simp only
  rw [if_neg (by simpa [digestKey] using hdigest)]
  exact ⟨_, rfl, rfl, rfl⟩

theorem reopen_clean : ∃ s', s.reopen json io (join p e.name) = (s', .ok ()) ∧
      s'.fs = put (put s.fs (tempKey p e) []) (digestKey p e) (json s.job.digest) ∧
      s'.job = s.job.withStream (some (.fileStream ⟨some (tempKey p e), 0, true⟩)) := by
  unfold reopen
  split
  · rename_i hex
    obtain ⟨hfs, hjob⟩ := removeFile_clean (s := s) hc (digestPath (join p e.name))
    have hgone := removeFile_digest (entryOpens_clean hc he) hex
    rcases hr : s.removeFile io (digestPath (join p e.name)) with ⟨s₁, b⟩
    rw [hr] at hfs hjob hgone
    obtain rfl : b = true := hgone
    obtain ⟨s', hs', hfs', hjob'⟩ := createStream_clean (s := s₁) json hc he
    refine ⟨s', hs', ?_, hjob'.trans (hjob.withStream _)⟩
    have hdigest : s₁.job.digest = s.job.digest := hjob.field (·.digest)
    have hne := tempKey_ne_digestKey p e e
    rw [hfs', show s₁.fs = remove s.fs (digestKey p e) from hfs, hdigest, put_comm hne, put_comm hne, put_remove]
  · exact createStream_clean json hc he

theorem openStream_clean (htype : s.job.type = .generic) :
    s.openStream json io p e = s.reopen json io (join p e.name) := by
  rw [openStream, htype]
  simp only
  rw [hc.paths e he]

theorem openEntry_clean (h : Receives p files s) (n : ℤ) :
    ∃ s', s.openEntry json io p e n = (s', .ok ()) ∧
      s'.fs = reopened p (s.promoted p) e (json s.job.digest) [] ∧
      s'.job = { s.job with
        fileNum := n
        dataStream := some (.fileStream ⟨some (tempKey p e), 0, true⟩) } := by
  obtain ⟨hfs, hjob⟩ := modifyTime_clean hc h
  have hsync : (s.modifyTime io).syncFails io = false := by
    unfold syncFails
    split
    · exact hc.refuses _ _
    · rfl
  have htype : (s.modifyTime io).job.type = .generic := (hjob.receives h).type
  have hdigest : (s.modifyTime io).job.digest = s.job.digest := hjob.field (·.digest)
  set t : WriteSys := { s.modifyTime io with job := { (s.modifyTime io).job with fileNum := n } }
  obtain ⟨s', hs', hfs', hjob'⟩ := reopen_clean (s := t) json hc he
  refine ⟨s', ?_, ?_, hjob'.trans ?_⟩
  · rw [← hs', ← openStream_clean (s := t) json hc he htype]
    simp [openEntry, hsync, t]
  · rw [hfs', hfs, hdigest, reopened, put_comm (tempKey_ne_digestKey p e e)]
  · exact hjob.field fun j => { j.withStream (some (.fileStream ⟨some (tempKey p e), 0, true⟩)) with
      fileNum := n }

end

theorem writeAll_clean {k : Key} {got : Bytes} (data : Bytes)
    (hstream : s.job.dataStream = some (.fileStream ⟨some k, got.length, true⟩))
    (hk : s.fs k = some got) :
    ∃ s', s.writeAll io data = (s', .ok ()) ∧ s'.fs = put s.fs k (got ++ data) ∧
      s'.job = s.job.withStream (some (.fileStream ⟨some k, (got ++ data).length, true⟩)) := by
  have happend : writeAt 0 got got.length data = got ++ data := by
    simpa using writeAt_append (0 : UInt8) [] 0 got data
  rw [writeAll, hstream]
  simp only [↓reduceIte, hc.writes, hk, Option.getD_some, happend]
  refine ⟨_, rfl, rfl, ?_⟩
  rw [List.length_append]
  rfl

theorem writeBlock_clean {k : Key} {got : Bytes} (b : FileTransferBlock)
    (hstream : s.job.dataStream = some (.fileStream ⟨some k, got.length, true⟩))
    (hk : s.fs k = some got) :
    ∃ s', s.writeBlock decompress io b = (s', .ok ()) ∧
      s'.fs = put s.fs k (got ++ payload decompress b) ∧
      s'.job = { s.job with
        dataStream := some (.fileStream ⟨some k, (got ++ payload decompress b).length, true⟩)
        finishedSize := s.job.finishedSize + (payload decompress b).length
        transferred := s.job.transferred + b.data.length } := by
  obtain ⟨s₁, hs₁, hfs, hjob⟩ := writeAll_clean hc (payload decompress b) hstream hk
  rw [writeBlock, hs₁]
  refine ⟨_, rfl, hfs, ?_⟩
  show ({ s₁.job with
      finishedSize := s₁.job.finishedSize + (payload decompress b).length
      transferred := s₁.job.transferred + b.data.length } : TransferJob (Handle Key)) = _
  rw [hjob]
  rfl

/-! ### From entry to entry -/

/-- The job will open the entry with number `k` anew, and what it has
received before that stands in `dir` once it does. -/
structure Ready (p : String) (id : ℤ) (files : FileList) (k : ℕ) (dir : Dir) (s : WriteSys) : Prop
    extends Receives p files s where
  id : s.job.id = id
  dir : s.promoted p = dir
  turns : s.job.dataStream = none ∨ asUsize s.job.fileNum ≠ k

/-- The job writes the entry `e` with number `k`, of which it has `got`. -/
structure On (p : String) (id : ℤ) (files : FileList) (k : ℕ) (dir : Dir) (e : FileEntry)
    (got : Bytes) (s : WriteSys) : Prop extends Receives p files s where
  id : s.job.id = id
  num : s.job.fileNum = k
  entry : files.entries[k]? = some e
  stream : s.job.dataStream = some (.fileStream ⟨some (tempKey p e), got.length, true⟩)
  fs : ∃ digest, s.fs = reopened p dir e digest got

variable {k : ℕ} {dir : Dir} {got : Bytes} {b : FileTransferBlock}

theorem On.writeBlock (h : On p id files k dir e got s) (b : FileTransferBlock) :
    ∃ s', s.writeBlock decompress io b = (s', .ok ()) ∧
      On p id files k dir e (got ++ payload decompress b) s' ∧
      s'.job.finishedSize = s.job.finishedSize + (payload decompress b).length := by
  obtain ⟨digest, hfs⟩ := h.fs
  obtain ⟨s', hs', hfs', hjob'⟩ := writeBlock_clean decompress hc b h.stream
    (by rw [hfs]; exact put_same)
  refine ⟨s', hs', ⟨⟨?_, ?_, ?_⟩, ?_, ?_, h.entry, ?_, digest, ?_⟩, ?_⟩
  case refine_7 => rw [hfs', hfs, reopened, reopened, put_put]
  all_goals rw [hjob']
  exacts [h.type, h.source, h.list, h.id, h.num]

theorem Ready.write (h : Ready p id files k dir s) (he : files.entries[k]? = some e)
    (hid : b.id = id) (hnum : b.fileNum = k) :
    ∃ s', s.write json decompress io b = (s', .ok ()) ∧
      On p id files k dir e (payload decompress b) s' ∧
      s'.job.finishedSize = s.job.finishedSize + (payload decompress b).length := by
  have hk := asUsize_of_entry he
  have hturns : s.turns b = true := by
    rcases h.turns with hnone | hne
    · simp [WriteSys.turns, hnone]
    · have hne : asUsize b.fileNum ≠ asUsize s.job.fileNum := by rw [hnum, hk]; exact hne.symm
      simp [WriteSys.turns, hne]
  obtain ⟨s₁, hs₁, hfs₁, hjob₁⟩ :=
    openEntry_clean json hc (List.mem_of_getElem? he) h.toReceives b.fileNum
  have hon : On p id files k dir e [] s₁ := by
    refine ⟨⟨?_, ?_, ?_⟩, ?_, ?_, he, ?_, json s.job.digest, by rw [hfs₁, h.dir]⟩ <;> rw [hjob₁]
    exacts [h.type, h.source, h.list, h.id, hnum, rfl]
  obtain ⟨s', hs', hon', hsize⟩ := hon.writeBlock decompress hc b
  refine ⟨s', ?_, hon', by rw [hsize, hjob₁]⟩
  have hget : s.job.files.entries[asUsize b.fileNum]? = some e := by rw [h.list, hnum, hk, he]
  rw [WriteSys.write, if_neg (by rw [hid, h.id]; simp), h.source]
  simp [hget, hturns, hs₁, hs']

theorem On.write (h : On p id files k dir e got s) (hid : b.id = id) (hnum : b.fileNum = k) :
    ∃ s', s.write json decompress io b = (s', .ok ()) ∧
      On p id files k dir e (got ++ payload decompress b) s' ∧
      s'.job.finishedSize = s.job.finishedSize + (payload decompress b).length := by
  obtain ⟨s', hs', hon', hsize⟩ := h.writeBlock decompress hc b
  refine ⟨s', ?_, hon', hsize⟩
  have hget : s.job.files.entries[asUsize b.fileNum]? = some e := by
    rw [h.list, hnum, asUsize_of_entry h.entry, h.entry]
  have hturns : s.turns b = false := by simp [WriteSys.turns, hnum, h.num, h.stream]
  rw [WriteSys.write, if_neg (by rw [hid, h.id]; simp), h.source]
  simp [hget, hturns, hs']

end

theorem On.promoted (ha : PathsApart p files) (h : On p id files k dir e got s) :
    s.promoted p = received p dir e got := by
  obtain ⟨digest, hfs⟩ := h.fs
  have hmem : e ∈ files.entries := List.mem_of_getElem? h.entry
  obtain ⟨hft, hfd⟩ := ha e hmem e hmem
  have htd := tempKey_ne_digestKey p e e
  have hcur : s.job.files.entries[asUsize s.job.fileNum]? = some e := by
    rw [h.list, h.num, asUsize_of_entry h.entry, h.entry]
  have hsrc : remove s.fs (digestKey p e) (tempKey p e) = some got := by
    rw [remove_other htd, hfs]
    exact put_same
  rw [WriteSys.promoted, hcur]
  funext l
  show rename (remove s.fs (digestKey p e)) (tempKey p e) (finalKey p e) l = received p dir e got l
  by_cases hl : l = finalKey p e
  · subst hl
    rw [rename_dst hsrc hft.symm, received, remove_other hfd, remove_other hft, put_same]
  · by_cases hlt : l = tempKey p e
    · subst hlt
      rw [rename_src hsrc hft.symm, received, remove_other htd, remove_same]
    · rw [rename_other hlt hl]
      by_cases hld : l = digestKey p e
      · subst hld
        rw [remove_same, received, remove_same]
      · rw [remove_other hld, hfs, received, remove_other hld, remove_other hlt, put_other hl,
          reopened, put_other hlt, put_other hld]

theorem On.ready (ha : PathsApart p files) (h : On p id files k dir e got s) :
    Ready p id files (k + 1) (received p dir e got) s := by
  refine ⟨h.toReceives, h.id, h.promoted ha, .inr ?_⟩
  rw [h.num, asUsize_of_entry h.entry]
  omega

end WriteSys

end CodeDesk.Fs
