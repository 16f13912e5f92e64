/-
# Where a write job reaches

`set_files` of `libs/hbb_common/src/fs.rs` checks the names a peer sends as
strings, once; every later call rebuilds the path of an entry from the base
directory and the name, and puts `.download` or `.digest` behind the text of
it. Here the two views meet. `accesses` are the calls on the file system that
one call on a write job makes, in the order of the source; the files of the
model change nowhere else (`frame_step`). Each of
them is a path of an entry of the accepted list, and such a path lies under
the base: the components of the name come behind those of the base, and none
of them leads back up.

A name may have no component at all (`.` is a part that every check lets
pass), and then the path of the entry is the base itself; the directories a
block makes room with are the parents of the path, the base among them.
-/
import Mathlib.Algebra.Ring.Nat
import CodeDesk.Fs.Promotion

namespace CodeDesk.Fs

open Files
open TransferJob (digestPath downloadPath)

/-! ### The list of entries -/

def validateTransferFileNames (files : List FileEntry) : Except String Unit :=
  -- a single file may carry an empty name, its path is the base
  if files.length = 1 ∧ files.head?.map (·.name) = some "" then .ok ()
  else files.forM fun file =>
    if file.name = "" then .error "empty file name in multi-file transfer"
    else validateFileNameNoTraversal file.name

/-- A write job with its `total_size`, which no other modelled function reads. -/
structure Receiver where
  sys : WriteSys
  totalSize : ℕ

def Receiver.setFiles (symlinkMetadata : String → SymlinkMeta) (r : Receiver) (files : FileList) :
    Receiver × Except String Unit :=
  match validateTransferFileNames files.entries with
  | .error err => (r, .error err)
  | .ok () =>
    let checked : Except String Unit :=
      match r.sys.job.dataSource with
      | .filePath base => files.entries.forM fun file =>
          validateNoSymlinkComponents symlinkMetadata base file.name
      | .memoryCursor _ => .ok ()
    match checked with
    | .error err => (r, .error err)
    | .ok () =>
      ({ sys := { r.sys with job := { r.sys.job with files := files } }
         totalSize := (files.entries.map (·.size)).sum % 18446744073709551616 }, .ok ())

theorem forM_ok {α ε : Type} {f : α → Except ε Unit} {l : List α} (h : l.forM f = .ok ()) :
    ∀ x ∈ l, f x = .ok () := by
  induction l with
  | nil => simp
  | cons x l ih =>
    rw [show (x :: l).forM f = f x >>= fun _ => l.forM f from rfl] at h
    cases hx : f x <;> rw [hx] at h
    · cases h
    · exact List.forall_mem_cons.2 ⟨hx, ih h⟩

structure ValidName (name : String) : Prop where
  noNul : '\x00' ∉ name.toList
  noParent : ['.', '.'] ∉ name.toList.splitOn '/'
  relative : name.toList.head? ≠ some '/'

variable {name base suf : String} {files : FileList} {e : FileEntry}
  {symlinkMetadata : String → SymlinkMeta} {r : Receiver} {a : Access}

theorem validName_of_ok (h : validateFileNameNoTraversal name = .ok ()) : ValidName name := by
  unfold validateFileNameNoTraversal at h
  split_ifs at h with hnul hparent hroot
  exact ⟨hnul, fun hp => hparent (List.mem_filter.2 ⟨hp, rfl⟩), hroot⟩

theorem validateTransferFileNames_ok {files : List FileEntry}
    (h : validateTransferFileNames files = .ok ()) (he : e ∈ files) :
    (e.name = "" ∧ files = [e]) ∨ (e.name ≠ "" ∧ ValidName e.name) := by
  unfold validateTransferFileNames at h
  split_ifs at h with hone
  · obtain ⟨e', rfl⟩ := List.length_eq_one_iff.1 hone.1
    obtain rfl := List.mem_singleton.1 he
    exact .inl ⟨by simpa using hone.2, rfl⟩
  · have hok := forM_ok h e he
    split_ifs at hok
    rename_i hne
    exact .inr ⟨hne, validName_of_ok hok⟩

theorem setFiles_cases (symlinkMetadata : String → SymlinkMeta) (r : Receiver) (files : FileList) :
    (∃ err, r.setFiles symlinkMetadata files = (r, .error err)) ∨
      validateTransferFileNames files.entries = .ok () ∧ ∃ n, r.setFiles symlinkMetadata files =
          (⟨{ r.sys with job := { r.sys.job with files := files } }, n⟩, .ok ()) := by
  unfold Receiver.setFiles
  split
  · exact .inl ⟨_, rfl⟩
  rename_i hv
  dsimp only
  split
  · exact .inl ⟨_, rfl⟩
  · exact .inr ⟨hv, _, rfl⟩

theorem setFiles_ok (h : (r.setFiles symlinkMetadata files).2 = .ok ()) :
    validateTransferFileNames files.entries = .ok () ∧ (r.setFiles symlinkMetadata files).1.sys =
        { r.sys with job := { r.sys.job with files := files } } := by
  rcases setFiles_cases symlinkMetadata r files with ⟨_, he⟩ | ⟨hv, _, he⟩ <;> rw [he] at h ⊢
  · cases h
  · exact ⟨hv, rfl⟩

/-! ### The calls on the file system -/

/-- A call that creates, opens, renames or deletes; a directory is given by
its components, since `Path::parent` cuts at a component. -/
inductive Access where
  | createDirAll (dir : Key)
  | create (path : String)
  | openRead (path : String)
  | openWrite (path : String)
  | rename (src dst : String)
  | remove (path : String)
  | setMtime (path : String)
  deriving DecidableEq, Repr

def Access.paths : Access → List String
  | .createDirAll _ => []
  | .create path => [path]
  | .openRead path => [path]
  | .openWrite path => [path]
  | .rename src dst => [src, dst]
  | .remove path => [path]
  | .setMtime path => [path]

def Access.dirs : Access → List Key
  | .createDirAll dir => [dir]
  | _ => []

namespace WriteSys

variable (io : Io)

def modifyTimeCalls (s : WriteSys) : List Access :=
  match s.currentPath io with
  | none => []
  | some path => [.remove (TransferJob.digestPath path),
      .rename (TransferJob.downloadPath path) path, .setMtime path]

def removeDownloadFileCalls (s : WriteSys) : List Access :=
  match s.currentPath io with
  | none => []
  | some path => [.remove (TransferJob.downloadPath path), .remove (TransferJob.digestPath path)]

/-- The digest is written only once the file is there. -/
def createStreamCalls (path : String) (digest : Option String) : List Access :=
  .create path ::
    if io.refuses .create (components path) || io.other (components path) then []
    else (digest.map Access.create).toList

def reopenCalls (s : WriteSys) (path : String) : List Access :=
  if io.exists s.fs (TransferJob.digestPath path) then
    .remove (TransferJob.digestPath path) ::
      if (s.removeFile io (TransferJob.digestPath path)).2 then
        createStreamCalls io (TransferJob.downloadPath path) (some (TransferJob.digestPath path))
      else []
  else createStreamCalls io (TransferJob.downloadPath path) (some (TransferJob.digestPath path))

def openStreamCalls (s : WriteSys) (p : String) (entry : FileEntry) : List Access :=
  match s.job.type with
  | .printer => createStreamCalls io p none
  | .generic =>
    match joinValidatedPath io.symlinkMetadata p entry.name with
    | .error _ => []
    | .ok path => ((parent (components path)).map Access.createDirAll).toList ++ s.reopenCalls io path

def openEntryCalls (s : WriteSys) (p : String) (entry : FileEntry) (fileNum : ℤ) : List Access :=
  s.modifyTimeCalls io ++
    if (s.modifyTime io).syncFails io then []
    else ({ s.modifyTime io with job := { (s.modifyTime io).job with fileNum := fileNum } }
      ).openStreamCalls io p entry

def writeCalls (s : WriteSys) (b : FileTransferBlock) : List Access :=
  if b.id ≠ s.job.id then []
  else
    match s.job.dataSource with
    | .filePath p =>
      match s.job.files.entries[asUsize b.fileNum]? with
      | none => []
      | some entry => if s.turns b then s.openEntryCalls io p entry b.fileNum else []
    | .memoryCursor _ => []

def offsetCalls (s : WriteSys) (fileNum : ℕ) : List Access :=
  match s.job.dataSource with
  | .memoryCursor _ => []
  | .filePath p =>
    match s.job.files.entries[fileNum]? with
    | none => []
    | some entry =>
      match s.job.resolveEntryPath (io.os s.fs) p entry.name with
      | none => []
      | some path =>
        if io.exists s.fs (TransferJob.downloadPath path) &&
            io.exists s.fs (TransferJob.digestPath path) then
          [.openWrite (TransferJob.downloadPath path)]
        else if io.exists s.fs path then [.openRead path]
        else []

def confirmCalls (s : WriteSys) (r : SendConfirmRequest) : List Access :=
  if s.job.fileNum ≠ r.fileNum then []
  else
    match r.union with
    | some (.offsetBlk offset) => if 0 < offset then s.offsetCalls io (asUsize r.fileNum) else []
    | _ => []

def accesses (s : WriteSys) : WriteInput → List Access
  | .write io b => s.writeCalls io b
  | .confirm io r => s.confirmCalls io r
  | .modifyTime io => s.modifyTimeCalls io
  | .removeDownloadFile io => s.removeDownloadFileCalls io
  | .setDigest _ _ => []

end WriteSys

/-- The file at `k` is one that a call of the list names. -/
def Covers (l : List Access) (k : Key) : Prop := ∃ a ∈ l, ∃ path ∈ a.paths, k = components path

theorem Covers.mono {l l' : List Access} {k : Key} (h : ∀ a ∈ l, a ∈ l') (hk : Covers l k) :
    Covers l' k := by
  obtain ⟨a, ha, hp⟩ := hk
  exact ⟨a, h a ha, hp⟩

theorem Covers.head {l : List Access} {path : String} {paths : List String}
    (h : a.paths = path :: paths) : Covers (a :: l) (components path) :=
  ⟨a, List.mem_cons_self, path, h ▸ List.mem_cons_self, rfl⟩

namespace WriteSys

variable (json : FileDigest → Bytes) (decompress : Bytes → Bytes) (io : Io) {s s' s'' : WriteSys}

/-! ### The files change only there -/

/-- From `s` to `s'` the job keeps what it is about, only the files in `K`
and the one the stream was on may change, and the stream is on such a file. -/
structure Frame (K : Key → Prop) (s s' : WriteSys) : Prop where
  type : s'.job.type = s.job.type
  source : s'.job.dataSource = s.job.dataSource
  list : s'.job.files = s.job.files
  fs : ∀ k, ¬K k → ¬s.OnFile k → s'.fs k = s.fs k
  stream : ∀ k, s'.OnFile k → s.OnFile k ∨ K k

variable {K K' : Key → Prop}

theorem Frame.refl (K : Key → Prop) (s : WriteSys) : Frame K s s :=
  ⟨rfl, rfl, rfl, fun _ _ _ => rfl, fun _ h => .inl h⟩

theorem Frame.trans (h : Frame K s s') (h' : Frame K s' s'') : Frame K s s'' where
  type := h'.type.trans h.type
  source := h'.source.trans h.source
  list := h'.list.trans h.list
  fs k hk hs := (h'.fs k hk fun ho => (h.stream k ho).elim hs hk).trans (h.fs k hk hs)
  stream k ho := (h'.stream k ho).elim (h.stream k) .inr

theorem Frame.mono (h : Frame K s s') (hK : ∀ k, K k → K' k) : Frame K' s s' where
  type := h.type
  source := h.source
  list := h.list
  fs k hk := h.fs k fun hk' => hk (hK k hk')
  stream k ho := (h.stream k ho).imp_right (hK k)

/-- What a call besides a confirm does: the file number stays or is in `N`
then, and an opening is from nothing or as one before was. -/
structure Effect (K : Key → Prop) (N : ℤ → Prop) (s s' : WriteSys) : Prop extends
    Frame K s s' where
  num : s'.job.fileNum = s.job.fileNum ∨ N s'.job.fileNum
  history : ∀ o ∈ s'.closed ++ s'.cur.toList, o.base = [] ∧ o.off = 0 ∨
    ∃ o' ∈ s.closed ++ s.cur.toList, o'.base = o.base ∧ o'.off = o.off

variable {N : ℤ → Prop}

theorem Frame.effect (h : Frame K s s') (hnum : s'.job.fileNum = s.job.fileNum)
    (hcur : s'.cur = s.cur) (hclosed : s'.closed = s.closed) : Effect K N s s' :=
  ⟨h, .inl hnum, fun o ho => .inr ⟨o, by rwa [← hcur, ← hclosed], rfl, rfl⟩⟩

theorem Effect.refl (s : WriteSys) : Effect K N s s := (Frame.refl K s).effect rfl rfl rfl

theorem Effect.trans (h : Effect K N s s') (h' : Effect K N s' s'') : Effect K N s s'' where
  toFrame := h.toFrame.trans h'.toFrame
  num := h'.num.elim (fun he => he ▸ h.num) .inr
  history o ho := by
    rcases h'.history o ho with hnew | ⟨o', ho', hb, hoff⟩
    · exact .inl hnew
    · rw [← hb, ← hoff]
      exact h.history o' ho'

theorem Effect.mono (h : Effect K N s s') (hK : ∀ k, K k → K' k) : Effect K' N s s' :=
  ⟨h.toFrame.mono hK, h.num, h.history⟩

theorem Effect.covers {path : String} {l : List Access} (h : Effect (· = components path) N s s')
    (hl : Covers l (components path)) : Effect (Covers l) N s s' :=
  h.mono fun _ hk => hk ▸ hl

theorem Effect.fileNum (h : Effect K (fun _ => False) s s') : s'.job.fileNum = s.job.fileNum :=
  h.num.resolve_right id

theorem effect_mapHandle {fs : Dir} {f : Handle Key → Handle Key} (hfs : ∀ k, ¬K k → fs k = s.fs k)
    (hf : ∀ hd k, (f hd).loc = some k → hd.loc = some k ∨ K k) :
    Effect K N s ({ s with fs := fs }.mapHandle f) := by
  obtain ⟨h1, h2, h3, h4, h5, h6, h7⟩ := mapHandle_frame f { s with fs := fs }
  refine Frame.effect ⟨h1, h2, h3, fun k hk _ => (congrFun h5 k).trans (hfs k hk), ?_⟩ h4 h6 h7
  rintro k ⟨hd', hs', hl'⟩
  obtain ⟨hd, hs, rfl⟩ := (mapHandle_file f _ _).1 hs'
  exact (hf hd k hl').imp_left fun hl => ⟨hd, hs, hl⟩

theorem effect_removeFile (s : WriteSys) (path : String) :
    Effect (· = components path) N s (s.removeFile io path).1 := by
  unfold removeFile
  split
  · refine effect_mapHandle (fun k hk => remove_other hk) fun hd k hl => .inl ?_
    exact ((unlinked_loc _ k hd).1 hl).1
  · exact Effect.refl s

variable {k : Key} {hd : Handle Key}

theorem moved_loc {src dst : Key} (h : (hd.moved src dst).loc = some k) :
    hd.loc = some k ∨ k = dst := by
  unfold Handle.moved at h
  split at h
  · exact .inl h
  split at h
  · exact .inr (Option.some.inj h).symm
  split_ifs at h
  exact .inl h

theorem effect_renameFile (s : WriteSys) (src dst : String) :
    Effect (fun k => k = components src ∨ k = components dst) N s (s.renameFile io src dst) := by
  unfold renameFile
  split
  · refine effect_mapHandle (fun k hk => ?_) fun hd k hl => ?_
    · exact rename_other (fun h => hk (.inl h)) fun h => hk (.inr h)
    · exact (moved_loc hl).imp_right .inr
  · exact Effect.refl s

theorem effect_modifyTime (s : WriteSys) :
    Effect (Covers (s.modifyTimeCalls io)) N s (s.modifyTime io) := by
  unfold modifyTime modifyTimeCalls
  cases s.currentPath io with
  | none => exact Effect.refl s
  | some path =>
    refine ((effect_removeFile io s _).covers (.head rfl)).trans
      ((effect_renameFile io _ _ _).mono fun k hk => ?_)
    refine ⟨.rename (downloadPath path) path, by simp, ?_⟩
    rcases hk with rfl | rfl
    · exact ⟨_, List.mem_cons_self, rfl⟩
    · exact ⟨_, List.mem_cons_of_mem _ List.mem_cons_self, rfl⟩

theorem effect_removeDownloadFile (s : WriteSys) :
    Effect (Covers (s.removeDownloadFileCalls io)) N s (s.removeDownloadFile io) := by
  unfold removeDownloadFile removeDownloadFileCalls
  cases s.currentPath io with
  | none => exact Effect.refl s
  | some =>
    exact ((effect_removeFile io s _).covers (.head rfl)).trans
      ((effect_removeFile io _ _).covers ((Covers.head rfl).mono fun _ => List.mem_cons_of_mem _))

theorem effect_put {c : Bytes} (hk : K k) : Effect K N s { s with fs := put s.fs k c } := by
  refine Frame.effect ⟨rfl, rfl, rfl, fun l hl _ => put_other ?_, fun l hl => .inl hl⟩ rfl rfl rfl
  rintro rfl
  exact hl hk

theorem effect_createStream (final path : String) (digest : Option String) :
    Effect (Covers (createStreamCalls io path digest)) N s
      (s.createStream json io final path digest).1 := by
  unfold createStream createStreamCalls
  split_ifs with hc
  · exact Effect.refl s
  have hpath : Covers (.create path :: (digest.map Access.create).toList) (components path) :=
    .head rfl
  have hnew : Effect (Covers (.create path :: (digest.map Access.create).toList)) N s
      { s.closeCur with
        job := { s.job with dataStream := some (.fileStream ⟨some (components path), 0, true⟩) }
        fs := put s.fs (components path) []
        cur := some ⟨components final, [], 0, []⟩ } := by
    refine ⟨⟨rfl, rfl, rfl, fun k hk _ => put_other ?_, ?_⟩, .inl rfl, fun o ho => ?_⟩
    · rintro rfl
      exact hk hpath
    · rintro k ⟨hd, hs, hl⟩
      cases hs
      cases hl
      exact .inr hpath
    · rcases List.mem_append.1 ho with ho | ho
      · exact .inr ⟨o, ho, rfl, rfl⟩
      · obtain rfl := List.mem_singleton.1 ho
        exact .inl ⟨rfl, rfl⟩
  cases digest with
  | none => exact hnew
  | some dp =>
    dsimp only
    split
    · exact hnew
    · refine hnew.trans (effect_put ?_)
      exact ⟨.create dp, by simp, _, List.mem_cons_self, rfl⟩

theorem effect_reopen (s : WriteSys) (path : String) :
    Effect (Covers (s.reopenCalls io path)) N s (s.reopen json io path).1 := by
  unfold reopen reopenCalls
  by_cases hx : io.exists s.fs (digestPath path) = true
  · rw [if_pos hx, if_pos hx]
    have hrem := effect_removeFile (N := N) io s (digestPath path)
    rcases hr : s.removeFile io (digestPath path) with ⟨t, ok⟩
    rw [hr] at hrem
    cases ok with
    | false => exact hrem.covers (.head rfl)
    | true =>
      refine (hrem.covers (.head rfl)).trans ((effect_createStream json io _ _ _).mono fun k hk => ?_)
      exact hk.mono fun a ha => List.mem_cons_of_mem _ (by simpa using ha)
  · rw [if_neg hx, if_neg hx]
    exact effect_createStream json io _ _ _

theorem effect_openStream (s : WriteSys) (p : String) (entry : FileEntry) :
    Effect (Covers (s.openStreamCalls io p entry)) N s (s.openStream json io p entry).1 := by
  unfold openStream openStreamCalls
  cases s.job.type with
  | printer => exact effect_createStream json io _ _ _
  | generic =>
    cases joinValidatedPath io.symlinkMetadata p entry.name with
    | error => exact Effect.refl s
    | ok path =>
      exact (effect_reopen json io s path).mono fun k hk =>
        hk.mono fun a ha => List.mem_append_right _ ha

theorem effect_openEntry (s : WriteSys) (p : String) (entry : FileEntry) (fileNum : ℤ) :
    Effect (Covers (s.openEntryCalls io p entry fileNum)) (· = fileNum) s
      (s.openEntry json io p entry fileNum).1 := by
  unfold openEntry openEntryCalls
  have hmod : ∀ l, Effect (Covers (s.modifyTimeCalls io ++ l)) (· = fileNum) s (s.modifyTime io) :=
    fun l => (effect_modifyTime io s).mono fun k hk => hk.mono fun a ha => List.mem_append_left _ ha
  split_ifs with hf
  · rw [if_pos hf]
    exact hmod _
  · rw [if_neg hf]
    have hnum : Effect (fun _ => False) (· = fileNum) (s.modifyTime io)
        { s.modifyTime io with job := { (s.modifyTime io).job with fileNum := fileNum } } :=
      ⟨⟨rfl, rfl, rfl, fun _ _ _ => rfl, fun _ h => .inl h⟩, .inr rfl,
        fun o ho => .inr ⟨o, ho, rfl, rfl⟩⟩
    refine (hmod _).trans ((hnum.mono fun _ h => h.elim).trans ?_)
    exact (effect_openStream json io _ p entry).mono fun k hk =>
      hk.mono fun a ha => List.mem_append_right _ ha

theorem effect_writeAll (s : WriteSys) (data : Bytes) : Effect K N s (s.writeAll io data).1 := by
  cases hs : s.job.dataStream with
  | none =>
    simp only [writeAll, hs]
    exact Effect.refl s
  | some st =>
    cases st with
    | bufStream =>
      simp only [writeAll, hs]
      refine Frame.effect ⟨rfl, rfl, rfl, fun _ _ _ => rfl, ?_⟩ rfl rfl rfl
      rintro k ⟨hd, hh, -⟩
      cases hh
    | fileStream hd =>
      obtain ⟨pos, fs, cur, he, hfs, hcur⟩ := writeAll_file io data hs
      rw [he]
      refine ⟨⟨rfl, rfl, rfl, fun k _ hon => hfs k fun hl => hon ⟨hd, hs, hl⟩, ?_⟩, .inl rfl,
        fun o ho => .inr ?_⟩
      · rintro k ⟨hd', hs', hl'⟩
        cases hs'
        exact .inl ⟨hd, hs, hl'⟩
      · rcases hcur with rfl | rfl
        · exact ⟨o, ho, rfl, rfl⟩
        rcases List.mem_append.1 ho with ho | ho
        · exact ⟨o, List.mem_append_left _ ho, rfl, rfl⟩
        · obtain ⟨o', ho', rfl⟩ := Option.map_eq_some_iff.1 (Option.mem_toList.1 ho)
          exact ⟨o', List.mem_append_right _ (Option.mem_toList.2 ho'), rfl, rfl⟩

theorem effect_writeBlock (s : WriteSys) (b : FileTransferBlock) :
    Effect K N s (s.writeBlock decompress io b).1 := by
  have h : Effect K N s (s.writeAll io (payload decompress b)).1 := effect_writeAll io s _
  unfold writeBlock
  split <;> rename_i hr <;> rw [hr] at h
  · exact h
  · exact ⟨{ h with }, h.num, h.history⟩

theorem effect_write (s : WriteSys) (b : FileTransferBlock) :
    Effect (Covers (s.writeCalls io b)) (· = b.fileNum) s (s.write json decompress io b).1 := by
  unfold write writeCalls
  by_cases hid : b.id ≠ s.job.id
  · rw [if_pos hid, if_pos hid]
    exact Effect.refl s
  rw [if_neg hid, if_neg hid]
  cases hsrc : s.job.dataSource with
  | memoryCursor c =>
    dsimp only
    split
    · have hbuf : Effect (Covers []) (· = b.fileNum) s
          { s with job := { s.job with dataStream := some (.bufStream c 0) } } := by
        refine Frame.effect ⟨rfl, rfl, rfl, fun _ _ _ => rfl, ?_⟩ rfl rfl rfl
        rintro k ⟨hd, hh, -⟩
        cases hh
      have hout := hbuf.trans (effect_writeBlock decompress io _ b)
      exact ⟨{ hout with }, hout.num, hout.history⟩
    · exact effect_writeBlock decompress io s b
  | filePath p =>
    cases s.job.files.entries[asUsize b.fileNum]? with
    | none => exact Effect.refl s
    | some entry =>
      dsimp only
      split_ifs with ht
      · have h := effect_openEntry json io s p entry b.fileNum
        rcases hr : s.openEntry json io p entry b.fileNum with ⟨t, res⟩
        rw [hr] at h
        cases res with
        | error => exact h
        | ok => exact h.trans (effect_writeBlock decompress io t b)
      · exact effect_writeBlock decompress io s b

theorem setStreamOffset_covers {j : TransferJob (Handle Key)} {n off : ℕ}
    (h : (s.job.setFileConfirmed true).setStreamOffset (io.os s.fs) n off = some j)
    (hs : j.dataStream = some (.fileStream hd))
    (hl : hd.loc = some k) : s.OnFile k ∨ Covers (s.offsetCalls io n) k := by
  rcases TransferJob.setStreamOffset_cases h with rfl |
    ⟨p, entry, path, f₀, f, hp, he, hpath, hf₀, hf, rfl⟩
  · exact .inl ⟨hd, hs, hl⟩
  refine .inr ?_
  cases hs
  rw [(seek_handle hf).2.2] at hl
  have hp : s.job.dataSource = .filePath p := hp
  have he : s.job.files.entries[n]? = some entry := he
  have hpath : s.job.resolveEntryPath (io.os s.fs) p entry.name = some path := hpath
  simp only [offsetCalls, hp, he, hpath]
  rcases offsetFile_cases hf₀ with ⟨rfl, -, hx⟩ | ⟨rfl, hx, hx'⟩
  · rw [if_pos hx, ← Option.some.inj hl]
    exact .head rfl
  · rw [if_neg (by rw [hx]; decide), if_pos hx', ← Option.some.inj hl]
    exact .head rfl

theorem frame_confirm (s : WriteSys) (r : SendConfirmRequest) :
    Frame (Covers (s.confirmCalls io r)) s ((s.confirm io r).getD s) := by
  unfold confirm
  cases hj : s.job.confirm (io.os s.fs) r with
  | none => exact Frame.refl _ s
  | some job =>
    obtain ⟨htype, hsource, hfiles⟩ := TransferJob.confirm_static hj
    have hstream : ∀ k hd, job.dataStream = some (.fileStream hd) → hd.loc = some k →
        s.OnFile k ∨ Covers (s.confirmCalls io r) k := by
      intro k hd hs hl
      rcases confirm_stream hj with hsame | hnone | ⟨hn, off, hu, hpos, hoff⟩
      · exact .inl ⟨hd, hsame ▸ hs, hl⟩
      · simp [hnone] at hs
      · simp only [confirmCalls, hn, ne_eq, not_true_eq_false, if_false, hu, if_pos hpos]
        exact setStreamOffset_covers io hoff hs hl
    dsimp only
    split <;>
      exact ⟨htype, hsource, hfiles, fun _ _ _ => rfl, fun k ⟨hd, hs, hl⟩ => hstream k hd hs hl⟩

/-- **A call changes only the files it accesses**, and the one the stream is
on. -/
theorem frame_step (s : WriteSys) (i : WriteInput) :
    Frame (Covers (s.accesses i)) s (s.step json decompress i) := by
  cases i with
  | write io b => exact (effect_write json decompress io s b).toFrame
  | confirm io r => exact frame_confirm io s r
  | modifyTime io => exact (effect_modifyTime (N := fun _ => False) io s).toFrame
  | removeDownloadFile io => exact (effect_removeDownloadFile (N := fun _ => False) io s).toFrame
  | setDigest => exact ⟨rfl, rfl, rfl, fun _ _ _ => rfl, fun _ h => .inl h⟩

def trace (s : WriteSys) (is : List WriteInput) : List Access :=
  Run.trace (step json decompress) accesses s is

/-! ### Each access is for an entry -/

/-- The job receives the list `files` under `base`. -/
structure Receives (base : String) (files : FileList) (s : WriteSys) : Prop where
  type : s.job.type = .generic
  source : s.job.dataSource = .filePath base
  list : s.job.files = files

variable {base : String} {files : FileList}

theorem Receives.frame {K : Key → Prop} (h : Receives base files s) (hf : Frame K s s') :
    Receives base files s' :=
  ⟨hf.type.trans h.type, hf.source.trans h.source, hf.list.trans h.list⟩

theorem Receives.finalInv (h : Receives base files s) : FinalInv base files s.fs s :=
  { h with final := fun _ _ => .inl rfl }

end WriteSys

def suffixes : List String := ["", ".download", ".digest"]

/-- The access is for the entry: its paths are that of the entry with a
suffix, and a directory it makes is the parent of the path. -/
def Access.For (base : String) (e : FileEntry) (a : Access) : Prop :=
  (∀ path ∈ a.paths, ∃ suf ∈ suffixes, path = join base e.name ++ suf) ∧
    ∀ dir ∈ a.dirs, parent (components (join base e.name)) = some dir

theorem Access.for_of_mem (hd : a.dirs = [] := by rfl)
    (h : ∀ path ∈ a.paths, path ∈ [join base e.name, downloadPath (join base e.name),
      digestPath (join base e.name)] := by simp [Access.paths]) : a.For base e := by
  refine ⟨fun path hp => ?_, by simp [hd]⟩
  rcases List.mem_cons.1 (h path hp) with rfl | hp
  · exact ⟨"", by simp [suffixes], by simp⟩
  rcases List.mem_cons.1 hp with rfl | hp
  · exact ⟨".download", by simp [suffixes], rfl⟩
  obtain rfl := List.mem_singleton.1 hp
  exact ⟨".digest", by simp [suffixes], rfl⟩

def OfEntry (base : String) (files : FileList) (a : Access) : Prop :=
  ∃ e ∈ files.entries, a.For base e

def Access.At (base : String) (files : FileList) (n : ℕ) (a : Access) : Prop :=
  ∃ e, files.entries[n]? = some e ∧ a.For base e

theorem Access.At.ofEntry {n : ℕ} (h : a.At base files n) : OfEntry base files a := by
  obtain ⟨e, he, hfor⟩ := h
  exact ⟨e, List.mem_of_getElem? he, hfor⟩

namespace WriteSys

variable (json : FileDigest → Bytes) (decompress : Bytes → Bytes) {io : Io} {base : String}
  {files : FileList} {s : WriteSys}

def numbers (s : WriteSys) : WriteInput → List ℕ
  | .write _ b => [asUsize s.job.fileNum, asUsize b.fileNum]
  | .confirm _ r => [asUsize r.fileNum]
  | .modifyTime _ => [asUsize s.job.fileNum]
  | .removeDownloadFile _ => [asUsize s.job.fileNum]
  | .setDigest _ _ => []

variable {e : FileEntry} {a : Access}

theorem createStreamCalls_for (ha : a ∈ createStreamCalls io (downloadPath (join base e.name))
      (some (digestPath (join base e.name)))) : a.For base e := by
  rcases List.mem_cons.1 ha with rfl | ha
  · exact Access.for_of_mem
  split at ha
  · cases ha
  · obtain rfl := List.mem_singleton.1 ha
    exact Access.for_of_mem

theorem reopenCalls_for (ha : a ∈ s.reopenCalls io (join base e.name)) : a.For base e := by
  unfold reopenCalls at ha
  split at ha
  · rcases List.mem_cons.1 ha with rfl | ha
    · exact Access.for_of_mem
    split at ha
    · exact createStreamCalls_for ha
    · cases ha
  · exact createStreamCalls_for ha

theorem openStreamCalls_for (htype : s.job.type = .generic)
    (ha : a ∈ s.openStreamCalls io base e) : a.For base e := by
  rw [openStreamCalls, htype] at ha
  cases hj : joinValidatedPath io.symlinkMetadata base e.name with
  | error => simp [hj] at ha
  | ok =>
    obtain rfl := joinValidatedPath_ok hj
    rw [hj] at ha
    rcases List.mem_append.1 ha with ha | ha
    · obtain ⟨dir, hdir, rfl⟩ := Option.map_eq_some_iff.1 (Option.mem_toList.1 ha)
      exact ⟨nofun, by simpa [Access.dirs] using hdir⟩
    · exact reopenCalls_for ha

section

variable (h : Receives base files s)

include h

theorem currentPathCalls_at : ∀ a ∈ s.modifyTimeCalls io ++ s.removeDownloadFileCalls io,
      a.At base files (asUsize s.job.fileNum) := by
  intro a ha
  unfold modifyTimeCalls removeDownloadFileCalls at ha
  cases hp : s.currentPath io with
  | none => simp [hp] at ha
  | some =>
    obtain ⟨e, he, rfl⟩ := currentPath_eq h.finalInv hp
    refine ⟨e, h.list ▸ he, ?_⟩
    simp only [hp, List.cons_append, List.nil_append, List.mem_cons, List.not_mem_nil,
      or_false] at ha
    rcases ha with rfl | rfl | rfl | rfl | rfl <;> exact Access.for_of_mem

theorem writeCalls_at {b : FileTransferBlock} :
    ∀ a ∈ s.writeCalls io b, a.At base files (asUsize s.job.fileNum) ∨
      a.At base files (asUsize b.fileNum) := by
  intro a ha
  unfold writeCalls at ha
  split at ha
  · cases ha
  rw [h.source] at ha
  cases he : s.job.files.entries[asUsize b.fileNum]? with
  | none => simp [he] at ha
  | some e =>
    rw [he] at ha
    dsimp only at ha
    split at ha
    · rcases List.mem_append.1 ha with ha | ha
      · exact .inl (currentPathCalls_at h a (List.mem_append_left _ ha))
      · split at ha
        · cases ha
        · refine .inr ⟨e, h.list ▸ he, openStreamCalls_for ?_ ha⟩
          exact (h.frame (effect_modifyTime (N := fun _ => False) io s).toFrame).type
    · cases ha

theorem confirmCalls_at {r : SendConfirmRequest} :
    ∀ a ∈ s.confirmCalls io r, a.At base files (asUsize r.fileNum) := by
  intro a ha
  unfold confirmCalls at ha
  split at ha
  · cases ha
  split at ha
  · split at ha
    · rw [offsetCalls, h.source] at ha
      cases he : s.job.files.entries[asUsize r.fileNum]? with
      | none => simp [he] at ha
      | some e =>
        refine ⟨e, h.list ▸ he, ?_⟩
        rw [he] at ha
        dsimp only at ha
        cases hp : s.job.resolveEntryPath (io.os s.fs) base e.name with
        | none => simp [hp] at ha
        | some =>
          obtain rfl := resolveEntryPath_eq hp
          rw [hp] at ha
          dsimp only at ha
          split_ifs at ha
          · obtain rfl := List.mem_singleton.1 ha
            exact Access.for_of_mem
          · obtain rfl := List.mem_singleton.1 ha
            exact Access.for_of_mem
          · cases ha
    · cases ha
  · cases ha

theorem accesses_at (i : WriteInput) : ∀ a ∈ s.accesses i, ∃ n ∈ s.numbers i, a.At base files n := by
  intro a ha
  cases i with
  | write =>
    rcases writeCalls_at h a ha with hat | hat
    · exact ⟨_, List.mem_cons_self, hat⟩
    · exact ⟨_, List.mem_cons_of_mem _ List.mem_cons_self, hat⟩
  | confirm => exact ⟨_, List.mem_cons_self, confirmCalls_at h a ha⟩
  | modifyTime =>
    exact ⟨_, List.mem_cons_self, currentPathCalls_at h a (List.mem_append_left _ ha)⟩
  | removeDownloadFile =>
    exact ⟨_, List.mem_cons_self, currentPathCalls_at h a (List.mem_append_right _ ha)⟩
  | setDigest => simp [accesses] at ha

theorem accesses_ofEntry (i : WriteInput) : ∀ a ∈ s.accesses i, OfEntry base files a := by
  intro a ha
  obtain ⟨n, -, hat⟩ := accesses_at h i a ha
  exact hat.ofEntry

/-- **Every access of a run is for an entry of the list.** -/
theorem trace_ofEntry (is : List WriteInput) :
    ∀ a ∈ s.trace json decompress is, OfEntry base files a :=
  Run.forall_trace (fun s i _ hs => hs.frame (frame_step json decompress s i))
    (fun _ i _ hs => accesses_ofEntry hs i) h

end

end WriteSys

/-! ### The paths of an entry are under the base -/

/-- The file `k` is that of the name with the suffix, under the base: behind
the components of the base come parts of the text of the name, and none of
them is a way up. There is none only for the path itself of a name without a
component. A path from an empty base may start with the dot its name starts
with. -/
def Inside (base name suf : String) (k : Key) : Prop :=
  (k = components base ++ segments (name ++ suf) ∨
    base = "" ∧ k = .curDir :: segments (name ++ suf)) ∧
  (∀ c ∈ segments (name ++ suf),
    ∃ seg, c = .normal seg ∧ seg.toList ∈ (name ++ suf).toList.splitOn '/') ∧
  (segments (name ++ suf) = [] → suf = "" ∧ segments name = [])

theorem suffix_long (h : suf ∈ suffixes) (hne : suf ≠ "") :
    '/' ∉ suf.toList ∧ 2 < suf.toList.length := by
  simp only [suffixes, List.mem_cons, List.not_mem_nil, or_false] at h
  rcases h with rfl | rfl | rfl
  · exact absurd rfl hne
  · decide
  · decide

theorem inside_of_valid (base : String) (hne : name ≠ "") (hv : ValidName name)
    (hsuf : suf ∈ suffixes) : Inside base name suf (components (join base name ++ suf)) := by
  have hjoin : join base name ++ suf = pushPath base (name ++ suf) := by
    rw [join, if_neg hne, pushPath_append hne]
  have hhead : (name ++ suf).toList.head? ≠ some '/' := by
    rw [String.toList_append, List.head?_append_of_ne_nil _ (by simpa using hne)]
    exact hv.relative
  have hparts : ['.', '.'] ∉ (name ++ suf).toList.splitOn '/' ∧
      (segments (name ++ suf) = [] → suf = "" ∧ segments name = []) := by
    by_cases hs : suf = ""
    · subst hs
      rw [String.append_empty]
      exact ⟨hv.noParent, fun hnil => ⟨rfl, hnil⟩⟩
    · obtain ⟨hsep, hlen⟩ := suffix_long hsuf hs
      obtain ⟨hsome, hno⟩ := segments_suffix name hsep hlen
      exact ⟨hno hv.noParent, fun hnil => absurd hnil hsome⟩
  refine ⟨?_, segments_normal hparts.1, hparts.2⟩
  rw [hjoin]
  by_cases hb : base = ""
  · subst hb
    rw [pushPath_empty]
    rcases components_relative hhead with h | h
    · exact .inl h
    · exact .inr ⟨rfl, h⟩
  · exact .inl (components_pushPath hb hhead)

theorem parent_of_entry {dir : Key} (hv : name = "" ∨ name ≠ "" ∧ ValidName name)
    (h : parent (components (join base name)) = some dir) :
    components base <+: dir ∨ dir <+: components base := by
  obtain rfl := parent_eq h
  rcases hv with rfl | ⟨hne, hv⟩
  · exact .inr (List.dropLast_prefix _)
  have hsuf : "" ∈ suffixes := by simp [suffixes]
  have hin := inside_of_valid base hne hv hsuf
  rw [String.append_empty] at hin
  rcases hin.1 with hk | ⟨rfl, -⟩
  · rw [hk]
    by_cases hs : segments (name ++ "") = []
    · rw [hs, List.append_nil]
      exact .inr (List.dropLast_prefix _)
    · rw [List.dropLast_append_of_ne_nil hs]
      exact .inl (List.prefix_append _ _)
  · exact .inl List.nil_prefix

/-- `TransferJob::new_write`, before its files are set. -/
def Receiver.newWrite (id : ℤ) (type : JobType) (dataSource : DataSource) (fileNum : ℤ)
    (enableOverwriteDetection : Bool) (fs : Dir) : Receiver where
  sys := .start (.newWrite id type dataSource fileNum ⟨[], by decide⟩ enableOverwriteDetection) fs
  totalSize := 0

/-- **Received files stay under the base.** Once `set_files` accepted a list
for a generic job, every path that is created, opened, renamed or deleted is
that of an entry, with or without a suffix, and inside the base unless the
list is the single unnamed file, whose path is the base; every directory made
is the parent of such a path. One bad name is enough to refuse a list, which
leaves the job as it was. -/
theorem received_paths_contained (json : FileDigest → Bytes) (decompress : Bytes → Bytes)
    (symlinkMetadata : String → SymlinkMeta) (base : String) (files : FileList) (r : Receiver)
    (htype : r.sys.job.type = .generic) (hsource : r.sys.job.dataSource = .filePath base) :
    ((r.setFiles symlinkMetadata files).2 = .ok () → ∀ is,
      ∀ a ∈ (r.setFiles symlinkMetadata files).1.sys.trace json decompress is, ∃ e ∈ files.entries,
          (∀ path ∈ a.paths, ∃ suf ∈ suffixes, path = join base e.name ++ suf ∧
            (e.name = "" ∧ files.entries = [e] ∧ path = base ++ suf ∨
              e.name ≠ "" ∧ Inside base e.name suf (components path))) ∧
          ∀ dir ∈ a.dirs, dir = (components (join base e.name)).dropLast ∧
            (components base <+: dir ∨ dir <+: components base)) ∧
    (∀ err, (r.setFiles symlinkMetadata files).2 = .error err →
      (r.setFiles symlinkMetadata files).1 = r) ∧
    ((∃ e ∈ files.entries, (e.name = "" ∧ files.entries.length ≠ 1) ∨ '\x00' ∈ e.name.toList ∨
        ['.', '.'] ∈ e.name.toList.splitOn '/' ∨ e.name.toList.head? = some '/') →
      ∃ err, (r.setFiles symlinkMetadata files).2 = .error err) := by
  refine ⟨fun hok is a ha => ?_, fun err h => ?_, ?_⟩
  · obtain ⟨hnames, hsys⟩ := setFiles_ok hok
    have hr : WriteSys.Receives base files (r.setFiles symlinkMetadata files).1.sys := by
      rw [hsys]
      exact ⟨htype, hsource, rfl⟩
    obtain ⟨e, he, hpaths, hdirs⟩ := WriteSys.trace_ofEntry json decompress hr is a ha
    have hname := validateTransferFileNames_ok hnames he
    refine ⟨e, he, fun path hp => ?_, fun dir hd => ⟨parent_eq (hdirs dir hd), ?_⟩⟩
    · obtain ⟨suf, hsuf, rfl⟩ := hpaths path hp
      refine ⟨suf, hsuf, rfl, hname.imp (fun h => ⟨h.1, h.2, ?_⟩) fun h => ⟨h.1, ?_⟩⟩
      · rw [h.1, join, if_pos rfl]
      · exact inside_of_valid base h.1 h.2 hsuf
    · exact parent_of_entry (hname.imp_left And.left) (hdirs dir hd)
  · rcases setFiles_cases symlinkMetadata r files with ⟨_, he⟩ | ⟨-, _, he⟩ <;> rw [he] at h ⊢
    cases h
  · rintro ⟨e, he, hbad⟩
    rcases setFiles_cases symlinkMetadata r files with ⟨err, hset⟩ | ⟨hnames, -⟩
    · exact ⟨err, by rw [hset]⟩
    exfalso
    rcases validateTransferFileNames_ok hnames he with ⟨hempty, hone⟩ | ⟨hne, hv⟩
    · simp [hempty, hone] at hbad
    rcases hbad with ⟨hempty, -⟩ | hbad | hbad | hbad
    · exact hne hempty
    · exact hv.noNul hbad
    · exact hv.noParent hbad
    · exact hv.relative hbad

def inbox (base name : String) : Receiver × Except String Unit :=
  (Receiver.newWrite 1 .generic (.filePath base) 0 false fun _ => none).setFiles
    (fun _ => .notFound) ⟨[⟨name, 1, 0⟩], by simp⟩

/-- The accesses of the first block of the entry and the end of the job. -/
def inboxTrace (base name : String) : List Access :=
  (inbox base name).1.sys.trace (fun _ => []) id
    [.write .plain ⟨1, 0, [7], false⟩, .modifyTime .plain]

theorem received_paths_contained_inbox : (inbox "/srv/in" "sub/a.txt").2 = .ok () ∧
    (∃ a ∈ inboxTrace "/srv/in" "sub/a.txt", "/srv/in/sub/a.txt.download" ∈ a.paths) ∧
    ∀ a ∈ inboxTrace "/srv/in" "sub/a.txt", ∀ path ∈ a.paths, ∃ suf ∈ suffixes,
      Inside "/srv/in" "sub/a.txt" suf (components path) := by
  have hok : (inbox "/srv/in" "sub/a.txt").2 = .ok () := by decide +kernel
  refine ⟨hok, by decide +kernel, fun a ha path hp => ?_⟩
  obtain ⟨e, he, hpaths, -⟩ := (received_paths_contained (fun _ => []) id (fun _ => .notFound)
    "/srv/in" ⟨[⟨"sub/a.txt", 1, 0⟩], by decide⟩ (.newWrite 1 .generic (.filePath "/srv/in") 0 false
    fun _ => none) rfl rfl).1 hok _ a ha
  obtain rfl := List.mem_singleton.1 he
  obtain ⟨suf, hsuf, -, hin⟩ := hpaths path hp
  exact ⟨suf, hsuf, (hin.resolve_left fun h => absurd h.1 (by decide)).2⟩

/-- The base itself is reached: an entry named `.` is accepted, and its path
has just the components of the base; the first block of any entry makes the
base directory; and from an empty base a name may keep the dot it starts with. -/
theorem base_itself_accessed : ((inbox "/srv/in" ".").2 = .ok () ∧
      .rename "/srv/in/..download" "/srv/in/." ∈ inboxTrace "/srv/in" "." ∧
      components "/srv/in/." = components "/srv/in") ∧
    ((inbox "/srv/in" "a.txt").2 = .ok () ∧
      .createDirAll (components "/srv/in") ∈ inboxTrace "/srv/in" "a.txt") ∧
    ((inbox "" "./x").2 = .ok () ∧ .create "./x.download" ∈ inboxTrace "" "./x" ∧
      components "./x.download" = [.curDir, .normal "x.download"]) := by
  decide +kernel

end CodeDesk.Fs
