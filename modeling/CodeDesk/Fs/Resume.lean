/-
# A resumed transfer

The receiver of a resumed file and the two ends together. A confirm at the
length of the partial file puts the write job at its end (`confirm_on`), the
blocks of the rest complete it, and whatever the job is asked to do about
other entries afterwards keeps it (`Holds`). So the destination is the source
once all blocks and `FileTransferDone` have arrived: `resume_exact`.

Two things have to be so that the code does not look after. The confirm
takes effect only if the write job is at the file the digest is about. It is
for the first file after the job was resumed, but for a later one the job is
still at the file before: it takes no notice, while the sender seeks, and
only the rest of the file is stored (`resume_drops_start`). And the offset
of the confirm is a `u32`.
-/
import CodeDesk.Fs.Delivery
import CodeDesk.Fs.Digest
import CodeDesk.Fs.Resuming

namespace CodeDesk.Fs

open Files Chunks
open TransferJob (bufSize downloadPath digestPath offsetFile confirm_offset)

def FileResponse.block? : FileResponse → Option FileTransferBlock
  | .block b => some b
  | _ => none

theorem mem_of_block? {ms : List FileResponse} {b : FileTransferBlock}
    (h : b ∈ ms.filterMap (·.block?)) : .block b ∈ ms := by
  obtain ⟨m, hm, hb⟩ := List.mem_filterMap.1 h
  cases m with
  | block b' =>
    cases hb
    exact hm
  | digest | error | done => cases hb

def WriteInput.block? : WriteInput → Option FileTransferBlock
  | .write _ b => some b
  | _ => none

/-- A call on a write job after the resume of the entry with number `k`: a
block on a system that refuses nothing, a confirm about another entry of the
list, or a digest. -/
def WriteInput.Later (p : String) (files : FileList) (k : ℕ) : WriteInput → Prop
  | .write io _ => io.Clean p files
  | .confirm _ r => r.Other files k
  | .setDigest _ _ => True
  | .modifyTime _ => False
  | .removeDownloadFile _ => False

/-- No other entry has the path of the entry with number `k`. -/
def OnlyOne (p : String) (files : FileList) (k : ℕ) : Prop :=
  ∀ n e e', n ≠ k → files.entries[k]? = some e → files.entries[n]? = some e' →
    finalKey p e' ≠ finalKey p e

namespace WriteSys

variable {json : FileDigest → Bytes} {decompress : Bytes → Bytes} {io : Io} {p : String}
  {files : FileList} {s s' : WriteSys} {e : FileEntry} {id : ℤ} {k : ℕ} {dir : Dir}
  {got data : Bytes} {b : FileTransferBlock} {r : SendConfirmRequest}

/-! ### The confirm -/

theorem confirm_job (h : s.confirm io r = some s') :
    s.job.confirm (io.os s.fs) r = some s'.job ∧ s'.fs = s.fs := by
  unfold WriteSys.confirm at h
  split at h
  · cases h
  rename_i job hjob
  split at h <;> cases h <;> exact ⟨hjob, rfl⟩

theorem confirm_of_job {job : TransferJob (Handle Key)}
    (h : s.job.confirm (io.os s.fs) r = some job) : ∃ s', s.confirm io r = some s' := by
  rw [WriteSys.confirm, h]
  simp only
  split <;> exact ⟨_, rfl⟩

theorem confirm_other (h : s.job.fileNum ≠ r.fileNum) : s.confirm io r = some s := by
  have hjob : s.job.confirm (io.os s.fs) r = some s.job := by
    rw [TransferJob.confirm, if_pos h]
  simp [WriteSys.confirm, hjob]

variable {held content : Bytes} {i : WriteInput} {ws : List WriteInput}

section

variable (hc : io.Clean p files) (hs : Receives p files s) (he : files.entries[k]? = some e)
  (hnum : s.job.fileNum = k) (hheld : s.fs (tempKey p e) = some held)
  (hdigest : s.fs (digestKey p e) = some content) (hr : r.fileNum = k)

include hc hs he hnum hheld hdigest hr

theorem confirm_seeks {n : ℕ} (hunion : r.union = some (.offsetBlk n)) (hpos : 0 < n) :
    s.job.confirm (io.os s.fs) r = some { s.job.setFileConfirmed true with
      dataStream := some (.fileStream ⟨some (tempKey p e), n, true⟩)
      transferred := s.job.transferred + n
      finishedSize := s.job.finishedSize + n } := by
  have hpath : s.job.resolveEntryPath (io.os s.fs) p e.name = some (join p e.name) := by
    simp only [TransferJob.resolveEntryPath, hs.type,
      show (io.os s.fs).symlinkMetadata = io.symlinkMetadata from rfl,
      hc.paths e (List.mem_of_getElem? he)]
  have hopen : offsetFile (io.os s.fs) (join p e.name) = .ok ⟨some (tempKey p e), 0, true⟩ := by
    have htemp : (s.fs (components (downloadPath (join p e.name)))).isSome = true :=
      Option.isSome_of_eq_some hheld
    have hdig : (s.fs (components (digestPath (join p e.name)))).isSome = true :=
      Option.isSome_of_eq_some hdigest
    have hboth : ((io.os s.fs).pathExists (downloadPath (join p e.name)) &&
        (io.os s.fs).pathExists (digestPath (join p e.name))) = true := by
      simp [Io.os, Io.exists, htemp, hdig]
    rw [offsetFile, if_pos hboth]
    simp [Io.os, Io.open, htemp, hc.refuses, tempKey]
  have hseek : (io.os s.fs).seek ⟨some (tempKey p e), 0, true⟩ n =
      .ok ⟨some (tempKey p e), n, true⟩ := by
    simp [Io.os, hc.refuses]
  have hentry : s.job.files.entries[asUsize r.fileNum]? = some e := by
    rw [hr, asUsize_of_entry he, hs.list, he]
  exact confirm_offset (hnum.trans hr.symm) hunion hpos hs.source hentry hpath hopen hseek

theorem confirm_on (hid : s.job.id = id) (hunion : r.union = some (.offsetBlk held.length))
    (hpos : 0 < held.length) (h : s.confirm io r = some s') : On p id files k s.fs e held s' := by
  obtain ⟨hjob, hfs⟩ := confirm_job h
  have hjob' := (confirm_seeks hc hs he hnum hheld hdigest hr hunion hpos).symm.trans hjob
  rw [Option.some.injEq] at hjob'
  refine ⟨⟨hjob' ▸ hs.type, hjob' ▸ hs.source, hjob' ▸ hs.list⟩, hjob' ▸ hid, hjob' ▸ hnum, he,
    hjob' ▸ rfl, content, ?_⟩
  -- the two files are there already
  rw [hfs, reopened, put, put, ← hheld, ← hdigest, Function.update_eq_self, Function.update_eq_self]

end

/-! ### What the job holds -/

/-- The entry with number `k` is complete with `data`: the job is still on
it, or it is past it and its path has the data. -/
inductive Holds (p : String) (id : ℤ) (files : FileList) (k : ℕ) (dir : Dir) (e : FileEntry)
    (data : Bytes) (s : WriteSys) : Prop
  | on : On p id files k dir e data s → Holds p id files k dir e data s
  | past : Receives p files s → (k : ℤ) < s.job.fileNum → s.job.fileNum ≤ files.entries.length →
      s.fs (finalKey p e) = some data → ¬s.OnFile (finalKey p e) →
      Holds p id files k dir e data s

theorem asUsize_ne {n : ℤ} (hlt : (k : ℤ) < n)
    (hle : n ≤ files.entries.length) : asUsize n ≠ k := by
  have hsmall := files.small
  unfold asUsize
  omega

variable (json decompress)

theorem On.aside (h : On p id files k dir e got s) (hi : i.Later p files k) (hb : i.block? = none) :
    On p id files k dir e got (s.step json decompress i) := by
  cases i with
  | write => cases hb
  | confirm io r =>
    have hne : s.job.fileNum ≠ r.fileNum := by
      obtain ⟨n, hn, hne, -⟩ := hi
      rw [h.num, hn]
      omega
    simpa only [WriteSys.step, confirm_other hne, Option.getD_some] using h
  | setDigest =>
    exact { h with }
  | modifyTime | removeDownloadFile => exact hi.elim

variable (ha : PathsApart p files)

include ha

theorem On.write_past (hc : io.Clean p files) (h : On p id files k dir e data s)
    (hb : b.Past files k) : Holds p id files k dir e data (s.write json decompress io b).1 := by
  have hmem : e ∈ files.entries := List.mem_of_getElem? h.entry
  have hne := asUsize_ne hb.1 hb.2
  by_cases hid : b.id = id
  · obtain ⟨n, hn⟩ : ∃ n : ℕ, b.fileNum = n := ⟨b.fileNum.toNat, by have := hb.1; omega⟩
    have hsmall := files.small
    have hasU : asUsize b.fileNum = n := by rw [hn, asUsize_natCast (by have := hb.2; omega)]
    cases he' : files.entries[n]? with
    | none =>
      have hsame : (s.write json decompress io b).1 = s := by
        rw [WriteSys.write, if_neg (by rw [hid, h.id]; simp), h.source]
        simp only [h.list, hasU, he']
      rw [hsame]
      exact .on h
    | some e' =>
      have hready : Ready p id files n (received p dir e data) s := by
        refine ⟨h.toReceives, h.id, h.promoted ha, .inr ?_⟩
        rw [h.num, asUsize_of_entry h.entry]
        exact fun heq => hne (hasU.trans heq.symm)
      obtain ⟨s', hs', hon, -⟩ := hready.write json decompress hc he' hid hn
      obtain ⟨hft, hfd⟩ := ha e hmem e' (List.mem_of_getElem? he')
      obtain ⟨hft', hfd'⟩ := ha e hmem e hmem
      rw [hs']
      obtain ⟨digest, hfs⟩ := hon.fs
      have hnum := hn.trans hon.num.symm
      refine .past hon.toReceives (hnum ▸ hb.1) (hnum ▸ hb.2) ?_ ?_
      · rw [hfs, reopened, put_other hft, put_other hfd, received, remove_other hfd',
          remove_other hft', put_same]
      · rintro ⟨hd, hstream, hloc⟩
        cases hon.stream.symm.trans hstream
        exact hft (Option.some.inj hloc).symm
  · have hsame : (s.write json decompress io b).1 = s := by
      rw [WriteSys.write, if_pos (by rw [h.id]; exact hid)]
    rw [hsame]
    exact .on h

variable (hone : OnlyOne p files k)

include hone

section

variable (he : files.entries[k]? = some e)

include he

theorem step_keeps (h : Receives p files s) (hoff : ¬s.OnFile (finalKey p e))
    (hi : ∀ n ∈ s.numbers i, n ≠ k) :
    Receives p files (s.step json decompress i) ∧
      (s.step json decompress i).fs (finalKey p e) = s.fs (finalKey p e) ∧
      ¬(s.step json decompress i).OnFile (finalKey p e) := by
  have hframe := frame_step json decompress s i
  have hcover : ¬Covers (s.accesses i) (finalKey p e) := by
    rintro ⟨a, hacc, path, hpath, hkey⟩
    obtain ⟨n, hn, e', he', hfor, -⟩ := accesses_at h i a hacc
    obtain ⟨suf, hsuf, rfl⟩ := hfor path hpath
    have hapart := ha e (List.mem_of_getElem? he) e' (List.mem_of_getElem? he')
    simp only [suffixes, List.mem_cons, List.not_mem_nil, or_false] at hsuf
    rcases hsuf with rfl | rfl | rfl
    · rw [String.append_empty] at hkey
      exact hone n e e' (hi n hn) he he' hkey.symm
    · exact hapart.1 hkey
    · exact hapart.2 hkey
  exact ⟨h.frame hframe, hframe.fs _ hcover hoff, fun hon => (hframe.stream _ hon).elim hoff hcover⟩

variable (h : Holds p id files k dir e data s)

include h

theorem Holds.step (hi : i.Later p files k) (hb : ∀ b, i.block? = some b → b.Past files k) :
    Holds p id files k dir e data (s.step json decompress i) := by
  have hsmall := files.small
  cases h with
  | on h =>
    cases i with
    | write io b => exact h.write_past json decompress ha hi (hb b rfl)
    | confirm | setDigest => exact .on (h.aside json decompress hi rfl)
    | modifyTime | removeDownloadFile => exact hi.elim
  | past hr hlt hle hdata hoff =>
    have hcur := asUsize_ne hlt hle
    cases i with
    | write io b =>
      obtain ⟨hblt, hble⟩ := hb b rfl
      obtain ⟨hr', hfs, hoff'⟩ := step_keeps json decompress ha hone he hr hoff (i := .write io b) (by
        simpa [numbers] using ⟨hcur, asUsize_ne hblt hble⟩)
      rcases (effect_write json decompress io s b).num with hn | hn
      · exact .past hr' (hn ▸ hlt) (hn ▸ hle) (hfs.trans hdata) hoff'
      · exact .past hr' (hn ▸ hblt) (hn ▸ hble) (hfs.trans hdata) hoff'
    | confirm io r =>
      obtain ⟨n, hn, hne, hnlt⟩ := hi
      obtain ⟨hr', hfs, hoff'⟩ := step_keeps json decompress ha hone he hr hoff (i := .confirm io r) (by
        rw [numbers, hn, asUsize_natCast (by omega)]
        simpa using hne)
      have hnum : (k : ℤ) < (s.step json decompress (.confirm io r)).job.fileNum ∧
          (s.step json decompress (.confirm io r)).job.fileNum ≤ files.entries.length := by
        simp only [WriteSys.step]
        cases hc : s.confirm io r with
        | none => exact ⟨hlt, hle⟩
        | some =>
          rcases TransferJob.confirm_spec (confirm_job hc).1 with hkept | ⟨hcur, -, hleft⟩
          · rw [Option.getD_some, hkept.fileNum]
            exact ⟨hlt, hle⟩
          · rw [Option.getD_some, hleft.fileNum, hcur, hn, i32Succ_natCast (by omega)]
            omega
      exact .past hr' hnum.1 hnum.2 (hfs.trans hdata) hoff'
    | setDigest => exact .past { hr with } hlt hle hdata hoff
    | modifyTime | removeDownloadFile => exact hi.elim

theorem Holds.run (hws : ∀ w ∈ ws, w.Later p files k)
    (hblocks : ∀ b ∈ ws.filterMap (·.block?), b.Past files k) :
    Holds p id files k dir e data (Run.run (WriteSys.step json decompress) s ws) := by
  refine Run.inv_run_of_mem (fun s w hw h => ?_) h
  exact h.step json decompress ha hone he (hws w hw) fun b hb =>
    hblocks b (List.mem_filterMap.2 ⟨w, hw, hb⟩)

theorem Holds.done (hc : io.Clean p files) :
    (s.step json decompress (.modifyTime io)).fs (finalKey p e) = some data := by
  cases h with
  | on h =>
    obtain ⟨hft, hfd⟩ := ha e (List.mem_of_getElem? he) e (List.mem_of_getElem? he)
    show (s.modifyTime io).fs (finalKey p e) = some data
    rw [(modifyTime_clean hc h.toReceives).1, h.promoted ha, received, remove_other hfd,
      remove_other hft, put_same]
  | past hr hlt hle hdata hoff =>
    have hnum : ∀ n ∈ s.numbers (.modifyTime io), n ≠ k := by
      simpa [numbers] using asUsize_ne hlt hle
    rw [(step_keeps json decompress ha hone he hr hoff hnum).2.1, hdata]

end

/-- The blocks of the rest, with calls about other entries in between, and
then further calls. -/
theorem On.follow (h : On p id files k dir e got s) {bs later : List FileTransferBlock}
    (hws : ∀ w ∈ ws, w.Later p files k) (hblocks : ws.filterMap (·.block?) = bs ++ later)
    (hbs : ∀ b ∈ bs, b.id = id ∧ b.fileNum = k) (hlater : ∀ b ∈ later, b.Past files k) :
    Holds p id files k dir e (got ++ (bs.map (payload decompress)).flatten)
      (Run.run (WriteSys.step json decompress) s ws) := by
  induction ws generalizing s got bs with
  | nil =>
    obtain ⟨rfl, -⟩ := List.append_eq_nil_iff.1 hblocks.symm
    simpa using Holds.on h
  | cons w ws ih =>
    obtain ⟨hw, hws'⟩ := List.forall_mem_cons.1 hws
    cases bs with
    | nil =>
      have hall := (Holds.on h).run json decompress ha hone h.entry hws fun b hb =>
        hlater b (by rwa [hblocks] at hb)
      simpa using hall
    | cons b bs =>
      have hb := hbs b List.mem_cons_self
      cases w with
      | write io b' =>
        obtain ⟨rfl, hrest⟩ : b' = b ∧ ws.filterMap (·.block?) = bs ++ later := by
          simpa [WriteInput.block?] using hblocks
        obtain ⟨s', hs', hon, -⟩ := h.write json decompress hw hb.1 hb.2
        have hstep : s.step json decompress (.write io b') = s' := congrArg Prod.fst hs'
        have hrun := ih hon hws' hrest fun c hc => hbs c (List.mem_cons_of_mem _ hc)
        rwa [Run.run_cons, hstep, List.map_cons, List.flatten_cons, ← List.append_assoc]
      | confirm | setDigest => exact ih (h.aside json decompress hw rfl) hws' hblocks hbs
      | modifyTime | removeDownloadFile => exact hw.elim

end WriteSys

/-! ### The two ends together -/

section
variable {σ : Type} {compress : Bytes → Bytes} {parse : Bytes → Option FileDigest} {left : σ → Bytes}
  {id : ℤ} {src dst : String} {files : FileList} {k : ℕ} {e : FileEntry} {content held : Bytes}
  {digest : FileTransferDigest} {j : TransferJob σ} {r : WriteSys} {os : Os σ}
  {d : DigestIo} {io : Io} {req : SendConfirmRequest} {offset : ℕ}

theorem Resumable.offset_eq (h : Resumable parse d dst e digest r.fs offset)
    (hheld : r.fs (tempKey dst e) = some held) :
    offset = asU32 held.length ∧ ∃ content, r.fs (digestKey dst e) = some content := by
  obtain ⟨isResume, n, hpartial, rfl⟩ := h
  obtain ⟨-, hlen, content, hcontent, -⟩ := partialSize_some hpartial
  refine ⟨?_, content, hcontent⟩
  rw [hlen, DigestIo.len, show r.fs (components _) = some held from hheld]

theorem AtFile.picked (hj : AtFile src id files k j) (he : files.entries[k]? = some e)
    (hseek : Seekable left src e content os) (hpos : 0 < offset)
    (hreq : req = ⟨id, k, some (.offsetBlk offset)⟩) :
    ∃ j' f, confirmJobs os req [j] = some [j'] ∧ Picked src id files k e f j' ∧
      left f = content.drop offset := by
  subst hreq
  obtain ⟨f, j', hconfirm, hpicked, hleft⟩ :=
    hj.confirm he hseek hpos (r := ⟨id, k, some (.offsetBlk offset)⟩) rfl rfl
  refine ⟨j', f, ?_, hpicked, hleft⟩
  rw [confirmJobs, if_pos hj.id, hconfirm]
  rfl

/-- The receiver's end of the transfer: the blocks of the rest, those of later
entries, and the end of the job. -/
theorem WriteSys.On.finished {decompress : Bytes → Bytes} (json : FileDigest → Bytes) {name : String}
    {dir : Dir} {got rest : Bytes} {ws : List WriteInput} {later : List FileResponse}
    (hapart : PathsApart dst files) (hone : OnlyOne dst files k) (hentry : files.entries[k]? = some e)
    (hinverse : ∀ c, compress c ≠ [] → decompress (compress c) = c)
    (hcompress : isCompressedFile name = false → ∀ c ∈ chunks bufSize rest, compress c ≠ [])
    (h : On dst id files k dir e got r)
    (hlater : ∀ b, FileResponse.block b ∈ later → b.Past files k)
    (hws : ∀ w ∈ ws, w.Later dst files k)
    (hblocks : ws.filterMap (·.block?) =
      ((fileBlocks compress id k name rest).map FileResponse.block ++ later).filterMap (·.block?))
    (hclean : io.Clean dst files) :
    (Run.run (WriteSys.step json decompress) r (ws ++ [.modifyTime io])).fs (finalKey dst e) =
      some (got ++ rest) := by
  have hfilter : ((fileBlocks compress id k name rest).map FileResponse.block ++ later).filterMap
      (·.block?) = fileBlocks compress id k name rest ++ later.filterMap (·.block?) := by
    rw [List.filterMap_append, List.filterMap_map]
    congr 1
    exact List.filterMap_some
  rw [hfilter] at hblocks
  have hholds := h.follow json decompress hapart hone hws hblocks
    (fun b hb => fileBlocks_mem hb) (fun b hb => hlater b (mem_of_block? hb))
  rw [fileBlocks_payload, flatten_arrives hinverse hcompress] at hholds
  rw [Run.run_append]
  exact hholds.done json decompress hapart hone hentry hclean

end

/-- **A resumed transfer completes the file.** The exchange about the
announced digest confirms an offset. Then the sender goes on behind exactly
the bytes the receiver has, alone in as many ticks as the rest has blocks.
Once it has sent `FileTransferDone`, a write job that got its blocks in order,
and then the end of the job, has the whole file at its path, whatever was
confirmed about other entries. That is so if the write job is at this entry
too, with a partial file shorter than 4 GiB, and nothing fails. -/
theorem resume_exact {σ : Type} (compress decompress : Bytes → Bytes) (json : FileDigest → Bytes)
    (parse : Bytes → Option FileDigest) (left : σ → Bytes) (id : ℤ) (src dst : String)
    (files : FileList) (data : FileEntry → Bytes) (k : ℕ) (e : FileEntry) (held : Bytes)
    (lastModified fileSize : ℕ) (hinverse : ∀ c, compress c ≠ [] → decompress (compress c) = c)
    (hentry : files.entries[k]? = some e) (hapart : PathsApart dst files)
    (hone : OnlyOne dst files k) (s : Sys σ) (j : TransferJob σ) (hopen : s.closed = false)
    (hjobs : (s.share id).jobs = [j]) (hj : AtFile src id files k j) (r : WriteSys)
    (hr : WriteSys.Receives dst files r) (hrid : r.job.id = id)
    (hheld : r.fs (tempKey dst e) = some held) (hpre : held <+: data e) (os : Os σ) (d : DigestIo)
    (io : Io) (req : SendConfirmRequest) (offset : ℕ) (s' : Sys σ) (r' : WriteSys)
    (hx : Exchange compress parse (.announced id k lastModified fileSize j.isResume) os d s r io req
      s' r')
    (hreq : req.union = some (.offsetBlk offset)) (hpos : 0 < offset)
    (hnum : r.job.fileNum = k) (hsmall : held.length < 4294967296)
    (hseek : Seekable left src e (data e) os) (hclean : io.Clean dst files)
    (hcompress : isCompressedFile (sentName src files e) = false →
      ∀ c ∈ chunks bufSize ((data e).drop held.length), compress c ≠ []) :
    let blocks := fileBlocks compress id k (sentName src files e) ((data e).drop held.length)
    (∃ j' f, (s'.share id).jobs = [j'] ∧ j'.dataStream = some (.fileStream f) ∧
      left f = (data e).drop held.length) ∧
    (∀ is : List (Input σ), s.jobs = [j] → is.length = blocks.length →
      (∀ i ∈ is, ∃ os send, i = .tick os send ∧ Serves left src files data os ∧
        ∀ m, send m = .ok ()) →
      (Run.run (Sys.step compress) s' is).sent = s.sent ++ blocks.map .block) ∧
    ∀ is, (∀ i ∈ is, Continues left src id files data k i) →
      ∃ ms, ((Run.run (Sys.step compress) s' is).share id).sent = (s.share id).sent ++ ms ∧
        (ms <+: blocks.map .block ∨ blocks.map .block <+: ms) ∧
        ∀ n, FileResponse.done id n ∈ ms → ∀ (ws : List WriteInput) (io' : Io),
          (∀ w ∈ ws, w.Later dst files k) → io'.Clean dst files →
          ws.filterMap (·.block?) = ms.filterMap (·.block?) →
          (Run.run (WriteSys.step json decompress) r' (ws ++ [.modifyTime io'])).fs
            (finalKey dst e) = some (data e) := by
  intro blocks
  set rest := (data e).drop held.length with hrest
  have hdata : held ++ rest = data e := by
    obtain ⟨tail, htail⟩ := hpre
    rw [hrest, ← htail, List.drop_left]
  -- both ends confirm the length of the partial file
  have hget : files.entries[asUsize (k : ℤ)]? = some e := by
    rw [WriteSys.asUsize_of_entry hentry, hentry]
  obtain ⟨heq, rfl, hconfirm, hresume⟩ := hx.confirmed hr hget hreq hpos
  obtain ⟨hoffset, content, hcontent⟩ := hresume.offset_eq hheld
  rw [asU32, Nat.mod_eq_of_lt hsmall] at hoffset
  subst hoffset
  have hreq' : req = ⟨id, k, some (.offsetBlk held.length)⟩ := heq
  have hon : WriteSys.On dst id files k r.fs e held r' :=
    WriteSys.confirm_on (s := r.setDigest _) hclean { hr with } hentry hnum hheld
      hcontent (by rw [hreq']) hrid hreq hpos hconfirm
  obtain ⟨j', f, hjobs', hpicked, hleft⟩ := hj.picked hentry hseek hpos hreq'
  have hshare := Sys.share_confirm compress os (show req.id = id by rw [hreq']) hopen
  rw [hjobs, hjobs', Option.getD_some] at hshare
  refine ⟨⟨j', f, by rw [hshare], hpicked.stream, hleft⟩, ?_, ?_⟩
  · intro is halone hlen hticks
    have hstep : s.step compress (.confirm os req) =
        { s with jobs := [j'], confirms := s.confirms ++ [req] } := by
      rw [Sys.step.eq_def, if_neg (by simp [hopen]), halone]
      simp only [hjobs']
    rw [hstep]
    have hsent := hpicked.sent_of_ticks compress
      (s := { s with jobs := [j'], confirms := s.confirms ++ [req] }) rfl hopen
      (by rw [hleft]; exact hlen) hticks
    rwa [hleft] at hsent
  · intro is his
    have hstart : Resumed compress left src id files k e rest (s.share id).sent
        (s.step compress (.confirm os req)) := by
      refine .reading j' f [] (by rw [hshare]) (by rw [hshare]; simp) hpicked ?_
      rw [hleft, List.nil_append]
    have hrun := Run.inv_run_of_mem (fun _ i hi h => h.step (his i hi)) hstart
    cases hrun with
    | reading j₁ f₁ ps hjobs₁ hsent₁ hp₁ hps =>
      refine ⟨ps.map .block, hsent₁, .inl (.map _ ⟨_, hps⟩), fun n hdone => ?_⟩
      simp at hdone
    | past later hsent₁ hjobs₁ hlater =>
      refine ⟨_, hsent₁, .inr (List.prefix_append _ _), ?_⟩
      intro n hdone ws io' hws hio' hblocks
      have hfinal := hon.finished json hapart hone hentry hinverse hcompress hlater hws hblocks hio'
      rwa [hdata] at hfinal

/-! ### A download of two files, both resumed -/

def albumFiles : FileList := ⟨[⟨"a", 3, 7⟩, ⟨"b", 3, 7⟩], by decide⟩

def albumData (e : FileEntry) : Bytes := if e.name = "a" then [1, 2, 3] else [4, 5, 6]

/-- The directory `d` with the two files; of an open file the model keeps the
bytes left. -/
def albumOs : Os Bytes where
  symlinkMetadata := fun _ => .notFound
  pathExists := fun path => path == "d/a" || path == "d/b"
  openFile := fun path =>
    if path = "d/a" then .ok [1, 2, 3]
    else if path = "d/b" then .ok [4, 5, 6]
    else .error "No such file or directory"
  openWrite := fun _ => .error "Permission denied"
  seek := fun f n => .ok (f.drop n)
  metadata := fun f => .ok (7, f.length)
  readFile := fun f n => .ok (f.take n, f.drop n)

def digestJson (d : FileDigest) : Bytes :=
  ("\x7b\"size\":" ++ toString d.size ++ ",\"modified\":" ++ toString d.modified ++
    "\x7d").toList.map fun c => UInt8.ofNat c.toNat

def parseDigest (digests : List FileDigest) (text : Bytes) : Option FileDigest :=
  digests.find? fun d => text == digestJson d

def albumDir : Dir := fun k =>
  if k = components "e/a.download" then some [1, 2]
  else if k = components "e/b.download" then some [4, 5]
  else if k = components "e/a.digest" ∨ k = components "e/b.digest" then some (digestJson ⟨3, 7⟩)
  else none

def albumIo : DigestIo := ⟨.plain, fun _ => .ok (0, 0), fun _ => 0⟩

def albumReceiver : WriteSys :=
  .start { TransferJob.newWrite 1 .generic (.filePath "e") 0 albumFiles true with isResume := true }
    albumDir

def albumSender : Sys Bytes :=
  Sys.start.step rawFrame (.add false 1 .generic (.filePath "d") 0 albumFiles true)

/-- A tick of the host. Its messages reach the client at once, and what the
client confirms reaches the host. -/
def albumTick (x : Sys Bytes × WriteSys) : Sys Bytes × WriteSys :=
  let s := x.1.step rawFrame (.tick albumOs fun _ => .ok ())
  (s.sent.drop x.1.sent.length).foldl (fun y m =>
    match m with
    | .digest id fileNum lastModified fileSize isResume =>
      match y.2.onDigest (parseDigest [⟨3, 7⟩]) albumIo none true
          (.announced id fileNum lastModified fileSize isResume) with
      | some (r, some req) => (y.1.step rawFrame (.confirm albumOs req), r)
      | some (r, none) => (y.1, r)
      | none => y
    | m => (y.1, y.2.deliver digestJson (List.drop 9) (albumIo.io, m))) (s, x.2)

def albumRun (ticks : ℕ) : Sys Bytes × WriteSys :=
  Nat.repeat albumTick ticks (albumSender, albumReceiver)

theorem albumOs_serves : Serves id "d" albumFiles albumData albumOs where
  opens e he := by
    rcases List.mem_cons.1 he with rfl | he
    · exact ⟨[1, 2, 3], by decide, by decide⟩
    · rw [List.mem_singleton.1 he]
      exact ⟨[4, 5, 6], by decide, by decide⟩
  reads f n hn := by
    refine ⟨f.take n, f.drop n, rfl, List.length_take_le n f, (List.take_append_drop _ _).symm, ?_⟩
    exact fun h => (List.take_eq_nil_iff.1 h).resolve_left (by omega)

theorem albumFiles_onlyOne : OnlyOne "e" albumFiles 0 := by
  intro n e e' hn he he'
  obtain rfl : _ = e := Option.some.inj he
  obtain ⟨hlt, -⟩ := List.getElem?_eq_some_iff.1 he'
  obtain rfl : n = 1 := by
    have hlen : albumFiles.entries.length = 2 := rfl
    omega
  obtain rfl : _ = e' := Option.some.inj he'
  decide

/-- The host after the exchange about the first file: two blocks of it, the
digest of the second file and its confirm, two blocks of that, and the end. -/
def albumInputs : List (Input Bytes) :=
  let tick : Input Bytes := .tick albumOs fun _ => .ok ()
  [tick, tick, tick, .confirm albumOs ⟨1, 1, some (.offsetBlk 2)⟩, tick, tick, tick]

def albumCalls : List WriteInput :=
  [.write .plain ⟨1, 0, [3], false⟩, .write .plain ⟨1, 0, [], false⟩, .setDigest 3 7,
    .confirm .plain ⟨1, 1, some (.offsetBlk 2)⟩, .write .plain ⟨1, 1, [6], false⟩,
    .write .plain ⟨1, 1, [], false⟩]

/-- The first file is completed. -/
theorem resume_exact_album :
    ∃ r, albumReceiver.onDigest (parseDigest [⟨3, 7⟩]) albumIo none true (.announced 1 0 7 3 false) =
        some (r, some ⟨1, 0, some (.offsetBlk 2)⟩) ∧
      (Run.run (WriteSys.step digestJson (List.drop 9)) r (albumCalls ++ [.modifyTime .plain])).fs
        (components "e/a") = some [1, 2, 3] := by
  have hreq : (albumReceiver.onDigest (parseDigest [⟨3, 7⟩]) albumIo none true
      (.announced 1 0 7 3 false)).map (·.2) = some (some ⟨1, 0, some (.offsetBlk 2)⟩) := by
    decide +kernel
  obtain ⟨⟨r, req⟩, hon, rfl⟩ := Option.map_eq_some_iff.1 hreq
  refine ⟨r, hon, ?_⟩
  have hclean : Io.plain.Clean "e" albumFiles := plain_clean (by decide)
  obtain ⟨-, -, h⟩ := resume_exact rawFrame (List.drop 9) digestJson (parseDigest [⟨3, 7⟩]) id 1 "d"
    "e" albumFiles albumData 0 ⟨"a", 3, 7⟩ [1, 2] 7 3 (fun _ _ => rfl) rfl (by decide)
    albumFiles_onlyOne (albumSender.step rawFrame (.tick albumOs fun _ => .ok ())) _ rfl rfl
    ⟨rfl, rfl, rfl, rfl, rfl, rfl⟩ albumReceiver ⟨rfl, rfl, rfl⟩ rfl (by decide) ⟨[3], rfl⟩ albumOs
    albumIo .plain ⟨1, 0, some (.offsetBlk 2)⟩ 2 _ r (.download none true _ _ hon) rfl (by decide) rfl
    (by decide) ⟨by decide, by decide, by decide, fun n => ⟨[1, 2, 3], _, by decide, rfl, rfl⟩⟩ hclean
    fun _ c _ => nofun
  obtain ⟨ms, hsent, -, hdone⟩ := h albumInputs (by
    intro i hi
    simp only [albumInputs, List.mem_cons, List.not_mem_nil, or_false] at hi
    rcases hi with rfl | rfl | rfl | rfl | rfl | rfl | rfl
    case inr.inr.inr.inl => exact fun _ => ⟨1, rfl, by decide, by decide⟩
    all_goals exact ⟨albumOs_serves, fun _ => rfl⟩)
  have hall : ((Run.run (Sys.step rawFrame) ((albumSender.step rawFrame
      (.tick albumOs fun _ => .ok ())).step rawFrame
        (.confirm albumOs ⟨1, 0, some (.offsetBlk 2)⟩)) albumInputs).share 1).sent =
      ((albumSender.step rawFrame (.tick albumOs fun _ => .ok ())).share 1).sent ++
        [.block ⟨1, 0, [3], false⟩, .block ⟨1, 0, [], false⟩, .digest 1 1 7 3 false,
          .block ⟨1, 1, [6], false⟩, .block ⟨1, 1, [], false⟩, .done 1 2] := by
    decide +kernel
  obtain rfl := List.append_cancel_left (hsent.symm.trans hall)
  refine hdone 2 (by decide) albumCalls .plain ?_ hclean (by decide)
  intro w hw
  simp only [albumCalls, List.mem_cons, List.not_mem_nil, or_false] at hw
  rcases hw with rfl | rfl | rfl | rfl | rfl | rfl
  case inr.inr.inl => trivial
  case inr.inr.inr.inl => exact ⟨1, rfl, by decide, by decide⟩
  all_goals exact hclean

/-! ### A file of more than 4 GiB -/

def zerosFiles : FileList := ⟨[⟨"a", 4294967299, 7⟩], by decide⟩

def zeros : Bytes := List.replicate 4294967299 0

def zerosHeld : Bytes := List.replicate 4294967298 0

def zerosOs : Os Bytes :=
  { albumOs with
    pathExists := fun path => path == "d/a"
    openFile := fun path => if path = "d/a" then .ok zeros else .error "No such file or directory" }

def zerosDir : Dir :=
  put (put (fun _ => none) (components "e/a.digest") (digestJson ⟨4294967299, 7⟩))
    (components "e/a.download") zerosHeld

def zerosReceiver : WriteSys :=
  .start { TransferJob.newWrite 1 .generic (.filePath "e") 0 zerosFiles true with isResume := true }
    zerosDir

def zerosJob : TransferJob Bytes :=
  { (TransferJob.newRead 1 .generic (.filePath "d") 0 zerosFiles true : TransferJob Bytes) with
    dataStream := some (.fileStream zeros)
    fileIsWaiting := true }

def zerosSender : Sys Bytes :=
  (Sys.start.step rawFrame (.add false 1 .generic (.filePath "d") 0 zerosFiles true)).step rawFrame
    (.tick zerosOs fun _ => .ok ())

theorem zerosDir_download : zerosDir (components "e/a.download") = some zerosHeld := put_same

theorem zeros_confirmed : ∃ r, zerosReceiver.onDigest (parseDigest [⟨4294967299, 7⟩]) albumIo none true
    (.announced 1 0 7 4294967299 false) = some (r, some ⟨1, 0, some (.offsetBlk 2)⟩) := by
  have hdigest : zerosDir (components "e/a.digest") = some (digestJson ⟨4294967299, 7⟩) := by
    rw [zerosDir, put_other (by decide), put_same]
  have hne : zerosHeld ≠ [] := mt (List.replicate_eq_nil_iff 0).1 (by decide)
  have hsize : partialSize (parseDigest [⟨4294967299, 7⟩]) albumIo zerosReceiver.fs true
      (join "e" "a") (.announced 1 0 7 4294967299 false) = some zerosHeld.length :=
    partialSize_of rfl hdigest (by decide +kernel) zerosDir_download hne
  have hreceives : WriteSys.Receives "e" zerosFiles zerosReceiver := ⟨rfl, rfl, rfl⟩
  have hon := onDigest_of_partial hreceives (e := ⟨"a", 4294967299, 7⟩) rfl none rfl hsize
  have hoffset : asU32 zerosHeld.length = 2 := by
    rw [zerosHeld, List.length_replicate]
    decide
  have hclean : Io.plain.Clean "e" zerosFiles := plain_clean (by decide)
  obtain ⟨r, hr⟩ := WriteSys.confirm_of_job (WriteSys.confirm_seeks
    (s := zerosReceiver.setDigest (.announced 1 0 7 4294967299 false)) (k := 0)
    (r := ⟨1, 0, some (.offsetBlk 2)⟩) (n := 2) (e := ⟨"a", 4294967299, 7⟩) hclean ⟨rfl, rfl, rfl⟩ rfl
    rfl zerosDir_download hdigest rfl rfl (by decide))
  rw [hoffset] at hon
  refine ⟨r, hon.trans ?_⟩
  show Option.map _ ((zerosReceiver.setDigest _).confirm .plain ⟨1, 0, _⟩) = _
  rw [hr]
  rfl

theorem zeros_seeks : ∃ j, ((zerosSender.step rawFrame
      (.confirm zerosOs ⟨1, 0, some (.offsetBlk 2)⟩)).share 1).jobs = [j] ∧
    j.dataStream = some (.fileStream (zeros.drop 2)) := by
  have hopen : zerosOs.openFile (join "d" "a") = .ok zeros := by
    rw [show join "d" "a" = "d/a" by decide]
    rfl
  have hseek : Seekable id "d" ⟨"a", 4294967299, 7⟩ zeros zerosOs :=
    ⟨by decide, by decide, by decide, fun n => ⟨zeros, _, hopen, rfl, rfl⟩⟩
  have hat : AtFile "d" 1 zerosFiles 0 zerosJob := ⟨rfl, rfl, rfl, rfl, rfl, rfl⟩
  obtain ⟨j, f, hconfirm, hpicked, rfl⟩ := hat.picked rfl hseek (show 0 < 2 by decide) rfl
  have hconfirm' : confirmJobs zerosOs ⟨1, 0, some (.offsetBlk 2)⟩ [zerosJob] = some [j] := hconfirm
  have hjobs : (zerosSender.share 1).jobs = [zerosJob] := rfl
  have hshare := Sys.share_confirm (s := zerosSender) rawFrame zerosOs
    (show (⟨1, 0, some (.offsetBlk 2)⟩ : SendConfirmRequest).id = 1 from rfl) rfl
  rw [hjobs, hconfirm', Option.getD_some] at hshare
  exact ⟨j, by rw [hshare], hpicked.stream⟩

/-- The second file of the album is not completed: when its digest comes the
client's job is still at the first file, so its own confirm is ignored and the
first block opens the partial file anew, while the host leaves out the two
bytes it was told of. And of the zeros the host sends 4294967297 bytes, though
only one is missing. -/
theorem resume_drops_start :
    (albumDir (components "e/b.download") = some [4, 5] ∧ albumData ⟨"b", 3, 7⟩ = [4, 5, 6] ∧
      (albumRun 7).1.sent =
        [.digest 1 0 7 3 false, .block ⟨1, 0, [3], false⟩, .block ⟨1, 0, [], false⟩,
          .digest 1 1 7 3 false, .block ⟨1, 1, [6], false⟩, .block ⟨1, 1, [], false⟩, .done 1 2] ∧
      (albumRun 7).2.fs (components "e/a") = some [1, 2, 3] ∧
      (albumRun 7).2.fs (components "e/b") = some [6]) ∧
    (zerosReceiver.fs (components "e/a.download") = some zerosHeld ∧
      zerosHeld.length = 4294967298 ∧ zeros.length = 4294967299 ∧
      ∃ r s j f, Exchange rawFrame (parseDigest [⟨4294967299, 7⟩])
          (.announced 1 0 7 4294967299 false) zerosOs albumIo zerosSender zerosReceiver .plain
          ⟨1, 0, some (.offsetBlk 2)⟩ s r ∧
        (s.share 1).jobs = [j] ∧ j.dataStream = some (.fileStream f) ∧ f.length = 4294967297) := by
  refine ⟨by decide +kernel, zerosDir_download, List.length_replicate, List.length_replicate, ?_⟩
  obtain ⟨r, hon⟩ := zeros_confirmed
  obtain ⟨j, hjobs, hstream⟩ := zeros_seeks
  refine ⟨r, _, j, _, .download none true _ r hon, hjobs, hstream, ?_⟩
  rw [List.length_drop, zeros, List.length_replicate]

end CodeDesk.Fs
