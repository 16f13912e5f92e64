/-
# What arrives of a transfer

The two ends of a transfer without overwrite detection. The sender's blocks
are those of `Sending`; each stands for the bytes `arrives` of its chunk, and
a job that gets them in order receives one entry after the other
(`Ready.run_entries`). So the destination is the source exactly when every
chunk arrives whole, and that is when `compress` gave something for every
chunk it was applied to: `compress` returns nothing when the compressor
fails, which `read` takes for a chunk that became very short.
-/
import CodeDesk.Fs.Receiving
import CodeDesk.Fs.Sending

namespace CodeDesk.Fs

open Files Chunks
open TransferJob (bufSize)

/-! ### What a chunk becomes -/

def arrives (compress decompress : Bytes → Bytes) (name : String) (chunk : Bytes) : Bytes :=
  if !isCompressedFile name && decide ((compress chunk).length < chunk.length) then
    decompress (compress chunk)
  else chunk

section
variable {compress decompress : Bytes → Bytes} {name : String} {chunk : Bytes}

theorem payload_pack (id fileNum : ℤ) :
    WriteSys.payload decompress (pack compress id fileNum name chunk) =
      arrives compress decompress name chunk := by
  unfold pack arrives
  split <;> rfl

variable (hinverse : ∀ c, compress c ≠ [] → decompress (compress c) = c)

include hinverse

theorem arrives_whole (h : isCompressedFile name = false → compress chunk ≠ []) :
    arrives compress decompress name chunk = chunk := by
  unfold arrives
  split_ifs with hc
  · rw [Bool.and_eq_true, Bool.not_eq_true'] at hc
    exact hinverse chunk (h hc.1)
  · rfl

theorem flatten_arrives {rest : Bytes}
    (h : isCompressedFile name = false → ∀ c ∈ chunks bufSize rest, compress c ≠ []) :
    ((chunks bufSize rest).map (arrives compress decompress name)).flatten = rest := by
  have hmap : (chunks bufSize rest).map (arrives compress decompress name) = chunks bufSize rest := by
    conv_rhs => rw [← List.map_id (chunks bufSize rest)]
    exact List.map_congr_left fun c hc => arrives_whole hinverse fun hname => h hname c hc
  rw [hmap, flatten_chunks (by decide)]

theorem length_arrives_iff (name : String) (hempty : decompress [] = []) (hchunk : chunk ≠ []) :
    (arrives compress decompress name chunk).length ≤ chunk.length ∧
      ((arrives compress decompress name chunk).length = chunk.length ↔
        (isCompressedFile name = false → compress chunk ≠ [])) := by
  by_cases h : isCompressedFile name = false → compress chunk ≠ []
  · rw [arrives_whole hinverse h]
    exact ⟨Nat.le_refl _, iff_of_true rfl h⟩
  · have hlost : isCompressedFile name = false ∧ compress chunk = [] := by simpa using h
    have hlen : 0 < chunk.length := List.length_pos_iff.2 hchunk
    have hnone : arrives compress decompress name chunk = [] := by
      simp [arrives, hlost.1, hlost.2, hlen, hempty]
    rw [hnone]
    exact ⟨Nat.zero_le _, iff_of_false (Nat.ne_of_lt hlen) h⟩

def delivered (compress decompress : Bytes → Bytes) (p : String) (files : FileList)
    (data : FileEntry → Bytes) (e : FileEntry) : Bytes :=
  ((chunks bufSize (data e)).map (arrives compress decompress (sentName p files e))).flatten

/-- The compressor gives something for every chunk of every file that is to
be compressed. -/
def Compresses (compress : Bytes → Bytes) (p : String) (files : FileList)
    (data : FileEntry → Bytes) : Prop :=
  ∀ e ∈ files.entries, isCompressedFile (sentName p files e) = false →
    ∀ c ∈ chunks bufSize (data e), compress c ≠ []

variable {p : String} {files : FileList} {data : FileEntry → Bytes}

theorem delivered_whole (h : Compresses compress p files data) {e : FileEntry}
    (he : e ∈ files.entries) : delivered compress decompress p files data e = data e :=
  flatten_arrives hinverse (h e he)

theorem bytesOf_delivered_iff (hempty : decompress [] = []) :
    bytesOf (delivered compress decompress p files data) files.entries = bytesOf data files.entries ↔
      Compresses compress p files data := by
  have hchunk : ∀ e, ∀ c ∈ chunks bufSize (data e), _ := fun e c hc =>
    length_arrives_iff hinverse (sentName p files e) hempty (ne_nil_of_mem_chunks hc)
  have hlen : ∀ e, (data e).length = ((chunks bufSize (data e)).map id).flatten.length := fun e => by
    rw [List.map_id, flatten_chunks (by decide)]
  have hle : ∀ e ∈ files.entries,
      (delivered compress decompress p files data e).length ≤ (data e).length := fun e _ => by
    rw [hlen]
    exact length_delivered_le fun c hc => (hchunk e c hc).1
  rw [bytesOf, bytesOf, length_delivered_iff hle]
  refine forall₂_congr fun e he => ?_
  rw [hlen, delivered, length_delivered_iff (g := id) fun c hc => (hchunk e c hc).1]
  constructor
  · exact fun h hname c hc => (hchunk e c hc).2.1 (h c hc) hname
  · exact fun h c hc => (hchunk e c hc).2.2 fun hname => h hname c hc

end

/-! ### Delivering the blocks -/

/-- A message of the sender reaches the write job: a block is written, and
`FileTransferDone` calls `modify_time`. -/
def WriteSys.deliver (json : FileDigest → Bytes) (decompress : Bytes → Bytes) (s : WriteSys)
    (d : Io × FileResponse) : WriteSys :=
  match d.2 with
  | .block b => s.step json decompress (.write d.1 b)
  | .done _ _ => s.step json decompress (.modifyTime d.1)
  -- without overwrite detection no digest is sent, and without a failure no error
  | .digest _ _ _ _ _ => s
  | .error _ _ _ => s

namespace WriteSys

variable {json : FileDigest → Bytes} {compress decompress : Bytes → Bytes} {p src : String}
  {files : FileList} {data : FileEntry → Bytes} {s : WriteSys} {e : FileEntry} {id : ℤ} {k : ℕ}
  {dir : Dir} {got : Bytes} {bs : List FileTransferBlock} {ds : List (Io × FileResponse)}

variable (json compress decompress)

theorem On.run (h : On p id files k dir e got s) (hds : ds.map (·.2) = bs.map .block)
    (hclean : ∀ d ∈ ds, d.1.Clean p files) (hbs : ∀ b ∈ bs, b.id = id ∧ b.fileNum = k) :
    On p id files k dir e (got ++ (bs.map (payload decompress)).flatten)
        (Run.run (deliver json decompress) s ds) ∧
      (Run.run (deliver json decompress) s ds).job.finishedSize =
        s.job.finishedSize + (bs.map (payload decompress)).flatten.length := by
  induction bs generalizing s got ds with
  | nil =>
    obtain rfl : ds = [] := by simpa using hds
    simpa using h
  | cons b bs ih =>
    obtain ⟨⟨io, m⟩, rest, rfl, rfl, hrest⟩ := List.map_eq_cons_iff.1 hds
    obtain ⟨hb, hbs⟩ := List.forall_mem_cons.1 hbs
    obtain ⟨hio, hclean⟩ := List.forall_mem_cons.1 hclean
    obtain ⟨s', hs', hon, hsize⟩ := h.write json decompress hio hb.1 hb.2
    have hstep : deliver json decompress s (io, .block b) = s' := congrArg Prod.fst hs'
    obtain ⟨hon', hsize'⟩ := ih hon hrest hclean hbs
    rw [Run.run_cons, hstep, List.map_cons, List.flatten_cons, ← List.append_assoc,
      List.length_append]
    exact ⟨hon', by omega⟩

theorem Ready.run (h : Ready p id files k dir s) (he : files.entries[k]? = some e) (hne : bs ≠ [])
    (hds : ds.map (·.2) = bs.map .block) (hclean : ∀ d ∈ ds, d.1.Clean p files)
    (hbs : ∀ b ∈ bs, b.id = id ∧ b.fileNum = k) :
    On p id files k dir e (bs.map (payload decompress)).flatten
        (Run.run (deliver json decompress) s ds) ∧
      (Run.run (deliver json decompress) s ds).job.finishedSize =
        s.job.finishedSize + (bs.map (payload decompress)).flatten.length := by
  cases bs with
  | nil => exact absurd rfl hne
  | cons b =>
    obtain ⟨⟨io, m⟩, rest, rfl, rfl, hrest⟩ := List.map_eq_cons_iff.1 hds
    obtain ⟨hb, hbs⟩ := List.forall_mem_cons.1 hbs
    obtain ⟨hio, hclean⟩ := List.forall_mem_cons.1 hclean
    obtain ⟨s', hs', hon, hsize⟩ := h.write json decompress hio he hb.1 hb.2
    have hstep : deliver json decompress s (io, .block b) = s' := congrArg Prod.fst hs'
    obtain ⟨hon', hsize'⟩ := hon.run json decompress hrest hclean hbs
    rw [Run.run_cons, hstep, List.map_cons, List.flatten_cons, List.length_append]
    exact ⟨hon', by omega⟩

theorem fileBlocks_mem {compress : Bytes → Bytes} {fileNum : ℤ} {name : String} {rest : Bytes}
    {b : FileTransferBlock} (hb : b ∈ fileBlocks compress id fileNum name rest) :
    b.id = id ∧ b.fileNum = fileNum := by
  rcases List.mem_append.1 hb with hb | hb
  · obtain ⟨c, -, rfl⟩ := List.mem_map.1 hb
    unfold pack
    split <;> exact ⟨rfl, rfl⟩
  · rw [List.mem_singleton.1 hb]
    exact ⟨rfl, rfl⟩

theorem fileBlocks_payload (id fileNum : ℤ) (name : String)
    (rest : Bytes) : ((fileBlocks compress id fileNum name rest).map (payload decompress)).flatten =
      ((chunks bufSize rest).map (arrives compress decompress name)).flatten := by
  have hpack : payload decompress ∘ pack compress id fileNum name =
      arrives compress decompress name := funext fun c => payload_pack id fileNum
  have hend : payload decompress ⟨id, fileNum, [], false⟩ = [] := rfl
  rw [fileBlocks, List.map_append, List.flatten_append, List.map_map, hpack]
  simp [hend]

theorem Ready.run_entries (ha : PathsApart p files) (past es : List FileEntry)
    (hes : files.entries = past ++ es) (h : Ready p id files past.length dir s)
    (hds : ds.map (·.2) = (blocksFrom compress id src files data past.length es).map .block)
    (hclean : ∀ d ∈ ds, d.1.Clean p files) :
    Ready p id files files.entries.length
        (es.foldl (fun dir e => received p dir e (delivered compress decompress src files data e)) dir)
        (Run.run (deliver json decompress) s ds) ∧
      (Run.run (deliver json decompress) s ds).job.finishedSize =
        s.job.finishedSize + bytesOf (delivered compress decompress src files data) es := by
  induction es generalizing past s dir ds with
  | nil =>
    obtain rfl : ds = [] := by simpa [blocksFrom] using hds
    rw [List.append_nil] at hes
    rw [hes]
    exact ⟨h, rfl⟩
  | cons e es ih =>
    rw [blocksFrom, List.map_append] at hds
    obtain ⟨ds₁, ds₂, rfl, hds₁, hds₂⟩ := List.map_eq_append_iff.1 hds
    have he : files.entries[past.length]? = some e := by simp [hes]
    obtain ⟨hclean₁, hclean₂⟩ := List.forall_mem_append.1 hclean
    obtain ⟨hon, hsize⟩ := h.run json decompress he (by simp [fileBlocks]) hds₁ hclean₁ fun b =>
      fileBlocks_mem
    rw [fileBlocks_payload] at hon hsize
    have hready := hon.ready ha
    have hlen : past.length + 1 = (past ++ [e]).length := by rw [List.length_append]; rfl
    rw [hlen] at hready hds₂
    obtain ⟨hready', hsize'⟩ := ih (past ++ [e]) (by rw [hes, List.append_assoc]; rfl) hready hds₂
      hclean₂
    rw [Run.run_append, List.foldl_cons, bytesOf_cons]
    refine ⟨hready', ?_⟩
    rw [hsize', hsize, Nat.add_assoc]
    rfl

theorem Ready.run_job (ha : PathsApart p files) (h : Ready p id files 0 dir s) {n : ℤ}
    (hds : ds.map (·.2) = (jobBlocks compress id src files data).map .block ++ [.done id n])
    (hclean : ∀ d ∈ ds, d.1.Clean p files) :
    (Run.run (deliver json decompress) s ds).fs = files.entries.foldl
        (fun dir e => received p dir e (delivered compress decompress src files data e)) dir ∧
      (Run.run (deliver json decompress) s ds).job.finishedSize =
        s.job.finishedSize + bytesOf (delivered compress decompress src files data) files.entries := by
  obtain ⟨ds₁, ds₂, rfl, hds₁, hds₂⟩ := List.map_eq_append_iff.1 hds
  obtain ⟨⟨io, m⟩, rfl, rfl⟩ := List.map_eq_singleton_iff.1 hds₂
  obtain ⟨hready, hsize⟩ := Ready.run_entries json compress decompress ha [] files.entries
    rfl h hds₁ fun d hd => hclean d (List.mem_append_left _ hd)
  obtain ⟨hfs, hfollows⟩ := modifyTime_clean (hclean (io, .done id n) (by simp)) hready.toReceives
  rw [Run.run_append]
  exact ⟨hfs.trans hready.dir, (hfollows.field (·.finishedSize)).trans hsize⟩

end WriteSys

/-! ### The two ends together -/

variable {p : String} {files : FileList}

/-- After its entries are received one after the other, the directory holds
the bytes of each, if two names of one path have the same bytes. -/
theorem foldl_received {data : FileEntry → Bytes} (ha : PathsApart p files)
    (hsame : ∀ e ∈ files.entries, ∀ e' ∈ files.entries, finalKey p e = finalKey p e' →
      data e = data e')
    (dir : Dir) {es : List FileEntry} (hes : ∀ e ∈ es, e ∈ files.entries) :
    ∀ e ∈ es, es.foldl (fun dir e => received p dir e (data e)) dir (finalKey p e) = some (data e) ∧
      es.foldl (fun dir e => received p dir e (data e)) dir (tempKey p e) = none ∧
      es.foldl (fun dir e => received p dir e (data e)) dir (digestKey p e) = none := by
  induction es using List.reverseRecOn with
  | nil => simp
  | append_singleton es d ih =>
    have hd : d ∈ files.entries := hes d (by simp)
    have ih := ih fun e he => hes e (by simp [he])
    intro e he
    have hmem : e ∈ files.entries := hes e he
    have hprev : e ≠ d → _ := fun hne => ih e (by simpa [hne] using he)
    rw [List.foldl_append, List.foldl_cons, List.foldl_nil]
    set dir' := es.foldl (fun dir e => received p dir e (data e)) dir
    refine ⟨?_, ?_, ?_⟩
    · rw [received, remove_other (ha e hmem d hd).2, remove_other (ha e hmem d hd).1]
      by_cases hk : finalKey p e = finalKey p d
      · rw [hk, put_same, hsame e hmem d hd hk]
      · rw [put_other hk]
        exact (hprev fun h => hk (by rw [h])).1
    · rw [received, remove_other (tempKey_ne_digestKey p e d)]
      by_cases hk : tempKey p e = tempKey p d
      · rw [hk, remove_same]
      · rw [remove_other hk, put_other (ha d hd e hmem).1.symm]
        exact (hprev fun h => hk (by rw [h])).2.1
    · rw [received]
      by_cases hk : digestKey p e = digestKey p d
      · rw [hk, remove_same]
      · rw [remove_other hk, remove_other (tempKey_ne_digestKey p d e).symm,
          put_other (ha d hd e hmem).2.symm]
        exact (hprev fun h => hk (by rw [h])).2.2

theorem segments_of_finalKey (hvalid : validateTransferFileNames files.entries = .ok ())
    {e e' : FileEntry} (he : e ∈ files.entries) (he' : e' ∈ files.entries)
    (hk : finalKey p e = finalKey p e') : segments e.name = segments e'.name := by
  have hsuf : "" ∈ suffixes := by simp [suffixes]
  rcases validateTransferFileNames_ok hvalid he with ⟨-, hone⟩ | ⟨hne, hv⟩
  · rw [hone, List.mem_singleton] at he'
    rw [he']
  rcases validateTransferFileNames_ok hvalid he' with ⟨-, hone⟩ | ⟨hne', hv'⟩
  · rw [hone, List.mem_singleton] at he
    rw [he]
  obtain ⟨hin, hnormal, -⟩ := inside_of_valid p hne hv hsuf
  obtain ⟨hin', hnormal', -⟩ := inside_of_valid p hne' hv' hsuf
  rw [String.append_empty, String.append_empty] at hin hin'
  rw [String.append_empty] at hnormal hnormal'
  have hcur : ∀ name, (∀ c ∈ segments name, ∃ seg, c = Component.normal seg ∧
      seg.toList ∈ name.toList.splitOn '/') → ∀ l, segments name ≠ Component.curDir :: l := by
    intro name hn l hl
    obtain ⟨seg, hseg, -⟩ := hn .curDir (by simp [hl])
    cases hseg
  have hempty : components "" = [] := by decide
  rcases hin with hin | ⟨rfl, hin⟩ <;> rcases hin' with hin' | ⟨hp, hin'⟩
  · exact List.append_cancel_left (hin.symm.trans (hk.trans hin'))
  · subst hp
    rw [hempty, List.nil_append] at hin
    exact absurd (hin.symm.trans (hk.trans hin')) (hcur e.name hnormal _)
  · rw [hempty, List.nil_append] at hin'
    exact absurd (hin'.symm.trans (hk.symm.trans hin)) (hcur e'.name hnormal' _)
  · exact (List.cons.inj (hin.symm.trans (hk.trans hin'))).2

/-- **When a transfer delivers the source.** No other call of the sender or the
receiver fails. Once `FileTransferDone` is sent, the blocks delivered in order
leave the source at every destination path, and both jobs counted all bytes,
exactly if no name is, as a path, that of the partial file or the digest of
another, and `compress` returned something for every chunk it was called on. -/
theorem transfer_exact {σ : Type} (compress decompress : Bytes → Bytes) (json : FileDigest → Bytes)
    (left : σ → Bytes) (id fileNum : ℤ) (src dst : String) (files : FileList)
    (tree : List Component → Bytes) (detection : Bool) (fs : Dir)
    (symlinkMetadata : String → SymlinkMeta)
    (hinverse : ∀ c, compress c ≠ [] → decompress (compress c) = c) (hempty : decompress [] = [])
    (hsizes : ∀ e ∈ files.entries, e.size = (tree (segments e.name)).length)
    (hset : ((Receiver.newWrite id .generic (.filePath dst) fileNum detection fs).setFiles
      symlinkMetadata files).2 = .ok ())
    (s : Sys σ) (hopen : s.closed = false) (hnew : s.share id = ⟨[], [], []⟩) (is : List (Input σ))
    (hdrives : ∀ i ∈ is, Drives left src id files (fun e => tree (segments e.name)) i) (n : ℤ)
    (hdone : FileResponse.done id n ∈ (Run.run (Sys.step compress) s
      (.add false id .generic (.filePath src) 0 files false :: is)).sent)
    (ds : List (Io × FileResponse)) (hclean : ∀ d ∈ ds, d.1.Clean dst files)
    (hds : ds.map (·.2) = ((Run.run (Sys.step compress) s
      (.add false id .generic (.filePath src) 0 files false :: is)).share id).sent) :
    let sender := Run.run (Sys.step compress) s
      (.add false id .generic (.filePath src) 0 files false :: is)
    let receiver := Run.run (WriteSys.deliver json decompress)
      ((Receiver.newWrite id .generic (.filePath dst) fileNum detection fs).setFiles
        symlinkMetadata files).1.sys ds
    let total := (files.entries.map (·.size)).sum
    ((∀ e ∈ files.entries, receiver.fs (finalKey dst e) = some (tree (segments e.name)) ∧
        receiver.fs (tempKey dst e) = none ∧ receiver.fs (digestKey dst e) = none) ∧
      receiver.job.finishedSize = total ∧
      ∃ j, (sender.share id).removed = [j] ∧ j.finishedSize = total) ↔
    PathsApart dst files ∧
      ∀ e ∈ files.entries, isCompressedFile (sentName src files e) = false →
        ∀ c ∈ chunks bufSize (tree (segments e.name)), compress c ≠ [] := by
  intro sender receiver total
  set data : FileEntry → Bytes := fun e => tree (segments e.name) with hdata
  have htotal : total = bytesOf data files.entries := by
    rw [bytesOf, List.length_flatten, List.map_map]
    exact congrArg List.sum (List.map_congr_left hsizes)
  -- the sender
  have hstage : Stage compress left src id files data sender := by
    show Stage compress left src id files data (Run.run (Sys.step compress)
      (s.step compress (.add false id .generic (.filePath src) 0 files false)) is)
    exact Run.inv_run_of_mem (fun _ i hi h => h.step (hdrives i hi))
      (Stage.add compress left src files data hopen hnew)
  obtain ⟨j, hshare, hsize⟩ := hstage.all_sent hdone
  rw [show (Run.run _ _ _ : Sys σ).share id = _ from hshare] at hds
  -- the receiver
  obtain ⟨hvalid, hsys⟩ := setFiles_ok hset
  have hready : WriteSys.Ready dst id files 0
      (WriteSys.promoted dst ((Receiver.newWrite id .generic (.filePath dst) fileNum detection
        fs).setFiles symlinkMetadata files).1.sys)
      ((Receiver.newWrite id .generic (.filePath dst) fileNum detection fs).setFiles
        symlinkMetadata files).1.sys := by
    rw [hsys]
    exact ⟨⟨rfl, rfl, rfl⟩, rfl, rfl, .inl rfl⟩
  have hrun := fun hapart => hready.run_job json compress decompress hapart hds hclean
  have hzero : ((Receiver.newWrite id .generic (.filePath dst) fileNum detection fs).setFiles
      symlinkMetadata files).1.sys.job.finishedSize = 0 := by
    rw [hsys]
    rfl
  rw [hzero, Nat.zero_add] at hrun
  rw [htotal]
  constructor
  · rintro ⟨hthere, hreceived, -⟩
    -- a path that holds its source is none that was left empty
    have hapart : PathsApart dst files := by
      intro e he e' he'
      constructor
      · intro heq
        simpa [heq, (hthere e' he').2.1] using (hthere e he).1
      · intro heq
        simpa [heq, (hthere e' he').2.2] using (hthere e he).1
    exact ⟨hapart, (bytesOf_delivered_iff hinverse hempty).1 ((hrun hapart).2.symm.trans hreceived)⟩
  · rintro ⟨hapart, hcompress⟩
    obtain ⟨hfs, hcount⟩ := hrun hapart
    have hwhole : ∀ e ∈ files.entries, delivered compress decompress src files data e = data e :=
      fun e he => delivered_whole hinverse hcompress he
    refine ⟨?_, hcount.trans ((bytesOf_delivered_iff hinverse hempty).2 hcompress), j,
      congrArg Share.removed hshare, hsize⟩
    have hsame : ∀ e ∈ files.entries, ∀ e' ∈ files.entries, finalKey dst e = finalKey dst e' →
        delivered compress decompress src files data e =
          delivered compress decompress src files data e' := by
      intro e he e' he' hk
      rw [hwhole e he, hwhole e' he', hdata]
      exact congrArg tree (segments_of_finalKey hvalid he he' hk)
    intro e he
    obtain ⟨hfinal, htemp, hdigest⟩ := foldl_received hapart hsame _ (fun e he => he) e he
    rw [hwhole e he] at hfinal
    exact ⟨(congrFun hfs _).trans hfinal, (congrFun hfs _).trans htemp,
      (congrFun hfs _).trans hdigest⟩

/-! ### A transfer of two files -/

def letterFiles : FileList := ⟨[⟨"letter", 3, 0⟩, ⟨"void", 0, 0⟩], by decide⟩

def letterTree (path : List Component) : Bytes :=
  if path = [.normal "letter"] then [7, 8, 9] else []

/-- The directory `d` with these files; of an open file the model keeps the
bytes left, and a read gives at most two of them. -/
def letterOs : Os Bytes where
  symlinkMetadata := fun _ => .notFound
  pathExists := fun _ => true
  openFile := fun path =>
    if path = "d/letter" then .ok [7, 8, 9]
    else if path = "d/void" then .ok []
    else .error "No such file or directory"
  openWrite := fun _ => .error "Permission denied"
  seek := fun f n => .ok (f.drop n)
  metadata := fun f => .ok (0, f.length)
  readFile := fun f n => .ok (f.take (min n 2), f.drop (min n 2))

theorem letterOs_serves :
    Serves id "d" letterFiles (fun e => letterTree (segments e.name)) letterOs where
  opens e he := by
    rcases List.mem_cons.1 he with rfl | he
    · exact ⟨[7, 8, 9], by decide, by decide⟩
    · rcases List.mem_cons.1 he with rfl | he
      · exact ⟨[], by decide, by decide⟩
      · cases he
  reads f n hn := by
    refine ⟨f.take (min n 2), f.drop (min n 2), rfl, ?_, (List.take_append_drop _ _).symm, ?_⟩
    · rw [List.length_take]
      omega
    · intro h
      rcases List.take_eq_nil_iff.1 h with h | h
      · omega
      · exact h

def letterRun : List (Input Bytes) :=
  .add false 1 .generic (.filePath "d") 0 letterFiles false ::
    List.replicate 6 (.tick letterOs fun _ => .ok ())

/-- The frame that zstd makes of a short input it cannot compress: a header
and the input as one raw block. -/
def rawFrame (c : Bytes) : Bytes :=
  [0x28, 0xb5, 0x2f, 0xfd, 0x20, UInt8.ofNat c.length, UInt8.ofNat (8 * c.length + 1),
    UInt8.ofNat ((8 * c.length + 1) / 256), 0] ++ c

/-- The messages of the run reach a new write job under `e`. -/
def letterReceived (compress : Bytes → Bytes) : WriteSys :=
  Run.run (WriteSys.deliver (fun _ => [0]) (List.drop 9))
    ((Receiver.newWrite 1 .generic (.filePath "e") 0 false fun _ => none).setFiles
      (fun _ => .notFound) letterFiles).1.sys
    (((Run.run (Sys.step compress) Sys.start letterRun).share 1).sent.map (Io.plain, ·))

theorem plain_clean
    (h : ∀ e ∈ files.entries, joinValidatedPath (fun _ => .notFound) p e.name = .ok (join p e.name)) :
    Io.plain.Clean p files :=
  ⟨fun _ _ => rfl, fun _ _ => ⟨rfl, rfl⟩, h, rfl⟩

theorem transfer_exact_letter :
    (letterReceived rawFrame).fs (components "e/letter") = some [7, 8, 9] ∧
      (letterReceived rawFrame).fs (components "e/void") = some [] ∧
      (letterReceived rawFrame).job.finishedSize = 3 := by
  have hdone : FileResponse.done 1 2 ∈
      (Run.run (Sys.step rawFrame) (Sys.start : Sys Bytes) letterRun).sent := by decide +kernel
  have h := (transfer_exact rawFrame (List.drop 9) (fun _ => [0]) id 1 0 "d" "e" letterFiles letterTree
    false (fun _ => none) (fun _ => .notFound) (fun _ _ => rfl) rfl (by decide) (by decide +kernel)
    Sys.start rfl rfl (List.replicate 6 (.tick letterOs fun _ => .ok ()))
    (fun i hi => (List.eq_of_mem_replicate hi) ▸ ⟨letterOs_serves, fun _ => rfl⟩) 2 hdone
    (((Run.run (Sys.step rawFrame) Sys.start letterRun).share 1).sent.map (Io.plain, ·))
    (by
      intro d hd
      obtain ⟨m, -, rfl⟩ := List.mem_map.1 hd
      exact plain_clean (by decide))
    (by rw [List.map_map]; exact List.map_id _)).2
    ⟨by decide, fun e _ _ c _ => nofun⟩
  exact ⟨(h.1 ⟨"letter", 3, 0⟩ (by decide)).1, (h.1 ⟨"void", 0, 0⟩ (by decide)).1, h.2.1⟩

/-- **A job that nothing holds up finishes.** On an idle connection, one tick more than the job has
blocks sends `FileTransferDone`, however the reads cut the files, as long as no call fails. -/
theorem transfer_completes (compress : Bytes → Bytes) (left : σ → Bytes) (id : ℤ) (src : String)
    (files : FileList) (data : FileEntry → Bytes) (s : Sys σ) (hopen : s.closed = false)
    (hidle : s.jobs = []) (is : List (Input σ))
    (hlen : (jobBlocks compress id src files data).length < is.length)
    (hticks : ∀ i ∈ is, ∃ os send, i = .tick os send ∧ Serves left src files data os ∧
      ∀ m, send m = .ok ()) :
    FileResponse.done id files.entries.length ∈ (Run.run (Sys.step compress) s
      (.add false id .generic (.filePath src) 0 files false :: is)).sent := by
  have hsends : Sends compress left src id files data (bytesOf data files.entries)
      (.newRead id .generic (.filePath src) 0 files false) (jobBlocks compress id src files data) :=
    .opening [] files.entries ⟨rfl, rfl, rfl, rfl, rfl, rfl⟩ rfl rfl rfl (Nat.zero_add _)
  rw [Run.run_cons]
  refine hsends.done_of_ticks ?_ ?_ hlen hticks
  · simp [Sys.step, hopen, hidle, TransferJob.newRead]
  · simp [Sys.step, hopen]

theorem transfer_completes_letter : FileResponse.done 1 2 ∈
    (Run.run (Sys.step rawFrame) (Sys.start : Sys Bytes) letterRun).sent :=
  transfer_completes rawFrame id 1 "d" letterFiles (fun e => letterTree (segments e.name)) Sys.start
    rfl rfl _ (by decide +kernel) fun _ hi =>
      ⟨letterOs, _, List.eq_of_mem_replicate hi, letterOs_serves, fun _ => rfl⟩

/-- Two names of which none is the other with a suffix; as paths, the first
is the partial file of the second. -/
def dottedFiles : FileList := ⟨[⟨"./a.download", 1, 0⟩, ⟨"a", 1, 0⟩], by decide⟩

def dottedOs : Os Bytes :=
  { letterOs with openFile := fun path => if path = "d/./a.download" then .ok [1] else .ok [2] }

/-- The messages of their transfer reach a new write job under `e`. -/
def dottedReceived : Receiver × Except String Unit :=
  let r := (Receiver.newWrite 1 .generic (.filePath "e") 0 false fun _ => none).setFiles
    (fun _ => .notFound) dottedFiles
  let sender := Run.run (Sys.step rawFrame) Sys.start
    (.add false 1 .generic (.filePath "d") 0 dottedFiles false ::
      List.replicate 5 (.tick dottedOs fun _ => .ok ()))
  ({ r.1 with
      sys := Run.run (WriteSys.deliver (fun _ => [0]) (List.drop 9)) r.1.sys
        ((sender.share 1).sent.map (Io.plain, ·)) }, r.2)

/-- The compressor fails and `compress` returns nothing: the block of the
letter goes out empty and marked as compressed, the letter arrives empty, and
nobody sees an error. And with the dotted names the partial file of the
second takes the place of the first, which is lost. -/
theorem transfer_loses_bytes :
    (((Run.run (Sys.step fun _ => []) (Sys.start : Sys Bytes) letterRun).share 1).sent =
        [.block ⟨1, 0, [], true⟩, .block ⟨1, 0, [], false⟩, .block ⟨1, 1, [], false⟩, .done 1 2] ∧
      (letterReceived fun _ => []).fs (components "e/letter") = some [] ∧
      (letterReceived fun _ => []).job.finishedSize = 0 ∧
      letterTree [.normal "letter"] = [7, 8, 9]) ∧
    (dottedReceived.2 = .ok () ∧ dottedReceived.1.sys.fs (components "e/./a.download") = none ∧
      dottedReceived.1.sys.fs (components "e/a") = some [2] ∧
      dottedReceived.1.sys.job.finishedSize = 2) := by
  decide +kernel

end CodeDesk.Fs
