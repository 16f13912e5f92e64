/-
# What stands at the final path

A write job replaces a file by renaming the `.download` it filled. By design
the final path holds what was there before, or one complete opening of the
entry: the blocks received for it, over the kept part of the partial file if
the entry was resumed (`Settled`). The rename is made for whatever `.download`
stands beside the current entry; `promoteOk` is that it is the one the job
has open, which is where the code does not look. `Inv` is the invariant, with
one lemma for each call.
-/
import CodeDesk.Fs.WriteJob

namespace CodeDesk.Fs

open Files
open TransferJob (digestPath downloadPath)

/-! ### The three paths of an entry -/

def finalKey (p : String) (e : FileEntry) : Key := components (join p e.name)

def tempKey (p : String) (e : FileEntry) : Key := components (TransferJob.downloadPath (join p e.name))

def digestKey (p : String) (e : FileEntry) : Key := components (TransferJob.digestPath (join p e.name))

/-- No entry is named like the partial file or the digest of an entry. -/
def PathsApart (p : String) (files : FileList) : Prop :=
  ∀ e ∈ files.entries, ∀ e' ∈ files.entries,
    finalKey p e ≠ tempKey p e' ∧ finalKey p e ≠ digestKey p e'

instance (p : String) (files : FileList) : Decidable (PathsApart p files) := by
  unfold PathsApart; infer_instance

theorem tempKey_ne_digestKey (p : String) (e e' : FileEntry) : tempKey p e ≠ digestKey p e' := by
  have h : (downloadPath (join p e.name)).toList =
      ((join p e.name).toList ++ ".downloa".toList) ++ ['d'] := by
    rw [downloadPath, String.toList_append, List.append_assoc]
    rfl
  have h' : (digestPath (join p e'.name)).toList =
      ((join p e'.name).toList ++ ".diges".toList) ++ ['t'] := by
    rw [digestPath, String.toList_append, List.append_assoc]
    rfl
  exact components_ne h h' (by decide) (by decide) (by decide) (by decide) (by decide)

namespace WriteSys

variable {json : FileDigest → Bytes} {decompress : Bytes → Bytes} {io : Io} {p : String}
  {files : FileList} {fs₀ : Dir} {s s' : WriteSys}

/-! ### The invariant -/

def OnFile (s : WriteSys) (q : Key) : Prop :=
  ∃ h, s.job.dataStream = some (.fileStream h) ∧ h.loc = some q

/-- The file at `q` is as the job found it, or a complete opening. -/
def Settled (fs₀ : Dir) (s : WriteSys) (q : Key) : Prop :=
  s.fs q = fs₀ q ∨ (∃ o ∈ s.closed, o.key = q ∧ s.fs q = some o.content) ∨
    ∃ o, s.cur = some o ∧ o.key = q ∧ s.OnFile q ∧ s.fs q = some o.content

theorem Settled.keep {t : WriteSys} {q : Key} (h : s.Settled fs₀ q) (hfs : t.fs q = s.fs q)
    (hclosed : ∀ o ∈ s.closed, o ∈ t.closed)
    (hcur : ∀ o, s.cur = some o → s.OnFile q → o ∈ t.closed ∨ t.cur = some o ∧ t.OnFile q) :
    t.Settled fs₀ q := by
  rcases h with h0 | ⟨o, ho, hok, hoc⟩ | ⟨o, ho, hok, hon, hoc⟩
  · exact .inl (hfs.trans h0)
  · exact .inr (.inl ⟨o, hclosed o ho, hok, hfs.trans hoc⟩)
  · rcases hcur o ho hon with ho | ⟨ho, hon⟩
    · exact .inr (.inl ⟨o, ho, hok, hfs.trans hoc⟩)
    · exact .inr (.inr ⟨o, ho, hok, hon, hfs.trans hoc⟩)

/-- The handle `h` is that of the opening `o` of the current entry: the file
it is on, under either of its names, holds the blocks received. -/
def Tracks (p : String) (s : WriteSys) (h : Handle Key) (o : Opening) : Prop :=
  ∃ e, s.job.files.entries[asUsize s.job.fileNum]? = some e ∧ o.key = finalKey p e ∧
    h.pos = o.off + o.blocks.flatten.length ∧
    ∀ l, h.loc = some l → (l = tempKey p e ∨ l = finalKey p e) ∧ s.fs l = some o.content

/-- What holds of the job and the final paths, whatever the stream. -/
structure FinalInv (p : String) (files : FileList) (fs₀ : Dir) (s : WriteSys) : Prop where
  type : s.job.type = .generic
  source : s.job.dataSource = .filePath p
  list : s.job.files = files
  final : ∀ e ∈ files.entries, s.Settled fs₀ (finalKey p e)

structure Inv (p : String) (files : FileList) (fs₀ : Dir) (s : WriteSys) : Prop
    extends FinalInv p files fs₀ s where
  noBuf : ∀ buf pos, s.job.dataStream ≠ some (.bufStream buf pos)
  idle : (∀ h, s.job.dataStream = some (.fileStream h) → h.writable = false) → s.cur = none
  busy : ∀ h, s.job.dataStream = some (.fileStream h) → h.writable = true →
    ∃ o, s.cur = some o ∧ s.Tracks p h o

theorem FinalInv.mem {n : ℕ} {e : FileEntry} (h : FinalInv p files fs₀ s)
    (he : s.job.files.entries[n]? = some e) : e ∈ files.entries :=
  h.list ▸ List.mem_of_getElem? he

theorem inv_of_closed (h : FinalInv p files fs₀ s) (hs : s.job.dataStream = none)
    (hc : s.cur = none) : Inv p files fs₀ s :=
  ⟨h, by simp [hs], fun _ => hc, by simp [hs]⟩

/-! ### The calls on the file system -/

theorem mapHandle_frame (f : Handle Key → Handle Key) (s : WriteSys) :
    (s.mapHandle f).job.type = s.job.type ∧ (s.mapHandle f).job.dataSource = s.job.dataSource ∧
      (s.mapHandle f).job.files = s.job.files ∧ (s.mapHandle f).job.fileNum = s.job.fileNum ∧
      (s.mapHandle f).fs = s.fs ∧ (s.mapHandle f).cur = s.cur ∧
      (s.mapHandle f).closed = s.closed := by
  unfold mapHandle
  split <;> exact ⟨rfl, rfl, rfl, rfl, rfl, rfl, rfl⟩

theorem mapHandle_file (f : Handle Key → Handle Key) (s : WriteSys) (h' : Handle Key) :
    (s.mapHandle f).job.dataStream = some (.fileStream h') ↔
      ∃ h, s.job.dataStream = some (.fileStream h) ∧ f h = h' := by
  unfold mapHandle
  split
  · rename_i h hs
    simp [hs]
  · rename_i hs
    exact ⟨fun h => absurd h (hs h'), fun ⟨h, hh, _⟩ => absurd hh (hs h)⟩

variable {fs : Dir} {f : Handle Key} {path : String} {k : Key} {e : FileEntry} {σ : Type}
  {b : FileTransferBlock} {off : ℕ} {r : SendConfirmRequest} {job : TransferJob (Handle Key)}

/-- The files change to `fs` and the handle to `f h`: the invariant is kept
if the final paths keep their contents and their streams, and the open file
its content. -/
theorem Inv.mapHandle {f : Handle Key → Handle Key} (h : Inv p files fs₀ s)
    (hfinal : ∀ e ∈ files.entries, ({ s with fs := fs }.mapHandle f).Settled fs₀ (finalKey p e))
    (hw : ∀ hd, (f hd).writable = hd.writable ∧ (f hd).pos = hd.pos)
    (hloc : ∀ hd o e, s.job.dataStream = some (.fileStream hd) → s.cur = some o →
      s.job.files.entries[asUsize s.job.fileNum]? = some e →
      (∀ l, hd.loc = some l → (l = tempKey p e ∨ l = finalKey p e) ∧ s.fs l = some o.content) →
      ∀ l, (f hd).loc = some l → (l = tempKey p e ∨ l = finalKey p e) ∧ fs l = some o.content) :
    Inv p files fs₀ ({ s with fs := fs }.mapHandle f) := by
  obtain ⟨h1, h2, h3, h4, h5, h6, h7⟩ := mapHandle_frame f { s with fs := fs }
  refine ⟨⟨h1.trans h.type, h2.trans h.source, h3.trans h.list, hfinal⟩, ?_, ?_, ?_⟩
  · intro buf pos
    unfold WriteSys.mapHandle
    split
    · simp
    · exact h.noBuf buf pos
  · intro hidle
    rw [h6]
    refine h.idle fun hd hs => ?_
    have := hidle (f hd) ((mapHandle_file f _ _).mpr ⟨hd, hs, rfl⟩)
    rwa [(hw hd).1] at this
  · intro hd' hs' hw'
    obtain ⟨hd, hs, rfl⟩ := (mapHandle_file f _ _).mp hs'
    rw [(hw hd).1] at hw'
    obtain ⟨o, ho, e, he, hok, hpos, hl⟩ := h.busy hd hs hw'
    refine ⟨o, h6.trans ho, e, ?_, hok, (hw hd).2.trans hpos, ?_⟩
    · rwa [h3, h4]
    · rw [h5]
      exact hloc hd o e hs ho he hl

theorem unlinked_loc (k l : Key) (hd : Handle Key) :
    (Handle.unlinked k hd).loc = some l ↔ hd.loc = some l ∧ l ≠ k := by
  unfold Handle.unlinked
  split_ifs with hl
  · simp [hl, eq_comm]
  · refine ⟨fun h => ⟨h, ?_⟩, fun h => h.1⟩
    rintro rfl
    exact hl h

theorem finalInv_removeFile (io : Io) (path : String) (h : FinalInv p files fs₀ s)
    (hk : ∀ e ∈ files.entries, finalKey p e ≠ components path) :
    FinalInv p files fs₀ (s.removeFile io path).1 := by
  unfold removeFile
  split
  · obtain ⟨h1, h2, h3, -, h5, h6, h7⟩ := mapHandle_frame (Handle.unlinked (components path))
      { s with fs := remove s.fs (components path) }
    refine ⟨h1.trans h.type, h2.trans h.source, h3.trans h.list, fun e he => ?_⟩
    refine (h.final e he).keep ((congrFun h5 _).trans (remove_other (hk e he)))
      (h7.symm ▸ fun _ => id) fun o ho ⟨hd, hs, hl⟩ => .inr ⟨h6.trans ho, ?_⟩
    exact ⟨_, (mapHandle_file _ _ _).mpr ⟨hd, hs, rfl⟩, (unlinked_loc _ _ hd).mpr ⟨hl, hk e he⟩⟩
  · exact h

theorem inv_removeFile (h : Inv p files fs₀ s)
    (hk : ∀ e ∈ files.entries, finalKey p e ≠ components path) :
    Inv p files fs₀ (s.removeFile io path).1 := by
  have hfinal := (finalInv_removeFile io path h.toFinalInv hk).final
  unfold removeFile at hfinal ⊢
  split_ifs with hc
  · rw [if_pos hc] at hfinal
    refine h.mapHandle hfinal (fun hd => ?_) fun hd o e hs ho he hl l hlu => ?_
    · unfold Handle.unlinked
      split <;> exact ⟨rfl, rfl⟩
    · -- the open file may lose its name, and then nothing is asked of it
      obtain ⟨hlu, hlk⟩ := (unlinked_loc _ l hd).mp hlu
      exact ⟨(hl l hlu).1, (remove_other hlk).trans (hl l hlu).2⟩
  · exact h

theorem inv_put {c : Bytes} (h : Inv p files fs₀ s)
    (hk : ∀ e ∈ files.entries, finalKey p e ≠ k ∧ tempKey p e ≠ k) :
    Inv p files fs₀ { s with fs := put s.fs k c } := by
  refine ⟨{ h with final := fun e he => ?_ }, h.noBuf, h.idle, fun hd hs hw => ?_⟩
  · exact (h.final e he).keep (put_other (hk e he).1) (fun _ => id) fun o ho hon => .inr ⟨ho, hon⟩
  obtain ⟨o, ho, e, he, hok, hpos, hl⟩ := h.busy hd hs hw
  refine ⟨o, ho, e, he, hok, hpos, fun l hlo => ⟨(hl l hlo).1, ?_⟩⟩
  have hmem := h.mem he
  have hlk : l ≠ k := by
    rcases (hl l hlo).1 with rfl | rfl
    · exact (hk e hmem).2
    · exact (hk e hmem).1
  exact (put_other hlk).trans (hl l hlo).2

/-! ### Promotion -/

def WritesTo (s : WriteSys) (k : Key) : Prop :=
  ∃ hd, s.job.dataStream = some (.fileStream hd) ∧ hd.writable = true ∧ hd.loc = some k

/-- Whatever checks the path of an entry went through, it is the plain join. -/
theorem resolveEntryPath_eq {os : Os σ} {j : TransferJob σ} {base name : String}
    (h : j.resolveEntryPath os base name = some path) : path = join base name := by
  unfold TransferJob.resolveEntryPath at h
  split at h
  · split at h
    · rename_i hj
      cases h
      exact joinValidatedPath_ok hj
    · cases h
  · exact (Option.some.inj h).symm

theorem currentPath_eq (h : FinalInv p files fs₀ s) (hp : s.currentPath io = some path) :
    ∃ e, s.job.files.entries[asUsize s.job.fileNum]? = some e ∧ path = join p e.name := by
  rw [currentPath, h.type, h.source] at hp
  simp only at hp
  split at hp
  · rename_i e he
    exact ⟨e, he, resolveEntryPath_eq hp⟩
  · cases hp

/-- What a promotion needs: no partial file beside the current entry, or the
one the job has open. -/
def promoteOk (io : Io) (s : WriteSys) : Bool :=
  match s.currentPath io with
  | none => true
  | some path =>
    (s.fs (components (TransferJob.downloadPath path))).isNone ||
      match s.job.dataStream with
      | some (.fileStream h) =>
        h.writable && h.loc == some (components (TransferJob.downloadPath path))
      | _ => false

theorem promoteOk_spec (hok : s.promoteOk io = true) (hp : s.currentPath io = some path) :
    s.fs (components (downloadPath path)) = none ∨ s.WritesTo (components (downloadPath path)) := by
  simp only [promoteOk, hp, Bool.or_eq_true, Option.isNone_iff_eq_none] at hok
  refine hok.imp_right fun hok => ?_
  split at hok
  · rename_i hd hs
    simp only [Bool.and_eq_true, beq_iff_eq] at hok
    exact ⟨hd, hs, hok⟩
  · cases hok

theorem removeFile_keeps (hk : k ≠ components path) (h : s.fs k = none ∨ s.WritesTo k) :
    (s.removeFile io path).1.fs k = none ∨ (s.removeFile io path).1.WritesTo k := by
  unfold removeFile
  split
  · refine h.imp (fun h => ?_) fun ⟨hd, hs, hw, hl⟩ => ?_
    · rw [(mapHandle_frame _ _).2.2.2.2.1]
      exact (remove_other hk).trans h
    · refine ⟨Handle.unlinked (components path) hd, (mapHandle_file _ _ _).mpr ⟨hd, hs, rfl⟩, ?_⟩
      simp [Handle.unlinked, hl, hk, hw]
  · exact h

theorem removeFile_frame (io : Io) (s : WriteSys) (path : String) :
    (s.removeFile io path).1.job.files = s.job.files ∧
      (s.removeFile io path).1.job.fileNum = s.job.fileNum ∧
      (s.removeFile io path).1.cur = s.cur := by
  unfold removeFile
  split
  · obtain ⟨-, -, h3, h4, -, h6, -⟩ := mapHandle_frame (Handle.unlinked (components path))
      { s with fs := remove s.fs (components path) }
    exact ⟨h3, h4, h6⟩
  · exact ⟨rfl, rfl, rfl⟩

/-- Nothing keeps `write` from opening the entry: its path is accepted and
neither its old digest nor its partial file resists. -/
def entryOpens (io : Io) (p : String) (e : FileEntry) : Bool :=
  (joinValidatedPath io.symlinkMetadata p e.name).isOk &&
    !(io.refuses .remove (digestKey p e) || io.other (digestKey p e)) &&
    !(io.refuses .create (tempKey p e) || io.other (tempKey p e))

theorem entryOpens_spec (h : entryOpens io p e = true) :
    joinValidatedPath io.symlinkMetadata p e.name = .ok (join p e.name) ∧
      io.refuses .remove (digestKey p e) = false ∧ io.other (digestKey p e) = false ∧
      (io.refuses .create (tempKey p e) || io.other (tempKey p e)) = false := by
  simp only [entryOpens, Bool.and_eq_true, Bool.not_eq_true', Bool.or_eq_false_iff] at h
  obtain ⟨⟨hj, hr, ho⟩, hc⟩ := h
  refine ⟨?_, hr, ho, by simpa using hc⟩
  cases hj' : joinValidatedPath io.symlinkMetadata p e.name with
  | error => simp [hj', Except.isOk, Except.toBool] at hj
  | ok => rw [joinValidatedPath_ok hj']

theorem removeFile_digest (hopen : entryOpens io p e = true)
    (hex : io.exists s.fs (digestPath (join p e.name)) = true) :
    (s.removeFile io (digestPath (join p e.name))).2 = true := by
  obtain ⟨-, href, hoth, -⟩ := entryOpens_spec hopen
  have hsome : (s.fs (digestKey p e)).isSome = true :=
    (Bool.or_eq_true_iff.1 hex).resolve_right fun ho => by cases hoth.symm.trans ho
  have hc : ((s.fs (digestKey p e)).isSome && !io.refuses .remove (digestKey p e)) = true := by
    rw [hsome, href]
    rfl
  rw [removeFile, show components (digestPath (join p e.name)) = digestKey p e from rfl, if_pos hc]

theorem stream_none_mapHandle {f : Handle Key → Handle Key} (h : s.job.dataStream = none) :
    s.mapHandle f = s := by
  rw [mapHandle, h]

theorem stream_none_removeFile (io : Io) (path : String) (h : s.job.dataStream = none) :
    (s.removeFile io path).1.job.dataStream = none := by
  unfold removeFile
  split
  · rwa [stream_none_mapHandle (s := { s with fs := remove s.fs (components path) }) h]
  · exact h

theorem stream_none_modifyTime (io : Io) (h : s.job.dataStream = none) :
    (s.modifyTime io).job.dataStream = none := by
  unfold modifyTime
  split
  · exact h
  rename_i path _
  have h' := stream_none_removeFile io (digestPath path) h
  simp only [renameFile]
  split
  · set t := (s.removeFile io (digestPath path)).1
    rwa [stream_none_mapHandle (s := { t with fs := rename t.fs _ _ }) h']
  · exact h'

theorem content_append (o : Opening) (data : Bytes) :
    ({ o with blocks := o.blocks ++ [data] } : Opening).content =
      writeAt 0 o.content (o.off + o.blocks.flatten.length) data := by
  rw [Opening.content, Opening.content, writeAt_append]
  simp

/-- What a write to a file does: the stream goes on, and only the file it is on changes. -/
theorem writeAll_file (io : Io) (data : Bytes) {hd : Handle Key}
    (hs : s.job.dataStream = some (.fileStream hd)) :
    ∃ pos fs cur, (s.writeAll io data).1 = { s with
        job := { s.job with dataStream := some (.fileStream { hd with pos := pos }) }
        fs := fs
        cur := cur } ∧
      (∀ k, hd.loc ≠ some k → fs k = s.fs k) ∧
      (cur = s.cur ∨ cur = s.cur.map fun o => { o with blocks := o.blocks ++ [data] }) := by
  simp only [writeAll, hs]
  split
  · cases hd.loc with
    | none =>
      cases io.writeFails with
      | some => exact ⟨_, _, _, rfl, fun _ _ => rfl, .inl rfl⟩
      | none => exact ⟨_, _, _, rfl, fun _ _ => rfl, .inr rfl⟩
    | some l =>
      have hput : ∀ c k, some l ≠ some k → put s.fs l c k = s.fs k := fun c k hk =>
        put_other fun he => hk (he ▸ rfl)
      cases io.writeFails with
      | some => exact ⟨_, _, _, rfl, hput _, .inl rfl⟩
      | none => exact ⟨_, _, _, rfl, hput _, .inr rfl⟩
  · exact ⟨hd.pos, s.fs, s.cur, by rw [← hs], fun _ _ => rfl, .inl rfl⟩

section

variable (ha : PathsApart p files)

include ha

section

variable (h : FinalInv p files fs₀ s)
  (he : s.job.files.entries[asUsize s.job.fileNum]? = some e)

include h he

theorem inv_createStream
    (hok : (io.refuses .create (tempKey p e) || io.other (tempKey p e)) = false) :
    Inv p files fs₀ (s.createStream json io (join p e.name)
      (downloadPath (join p e.name)) (some (digestPath (join p e.name)))).1 := by
  have hmem := h.mem he
  set t : WriteSys := { s.closeCur with
    job := { s.job with dataStream := some (.fileStream ⟨some (tempKey p e), 0, true⟩) }
    fs := put s.fs (tempKey p e) []
    cur := some ⟨finalKey p e, [], 0, []⟩ } with ht
  have hinv : Inv p files fs₀ t := by
    refine ⟨{ h with final := fun e' he' => ?_ }, nofun, ?_, ?_⟩
    · exact (h.final e' he').keep (put_other (ha e' he' e hmem).1)
        (fun _ => List.mem_append_left _) fun o ho _ => .inl (List.mem_append_right _ (by simp [ho]))
    · intro hidle
      cases hidle ⟨some (tempKey p e), 0, true⟩ rfl
    · intro hd hs hw
      obtain rfl : hd = ⟨some (tempKey p e), 0, true⟩ := by simpa [ht] using hs.symm
      refine ⟨_, rfl, e, he, rfl, rfl, fun l hl => ?_⟩
      cases hl
      exact ⟨.inl rfl, put_same⟩
  unfold createStream
  split_ifs with hc
  · cases hok.symm.trans hc
  · simp only
    split
    · exact hinv
    · exact inv_put hinv fun e' he' => ⟨(ha e' he' e hmem).2, tempKey_ne_digestKey p e' e⟩

variable (hopen : (s.job.dataStream = none ∧ s.cur = none) ∨ entryOpens io p e = true)

include hopen

/-- A failed `File::create` leaves the state alone, which is harmless with no
stream open. -/
theorem inv_createStream_or : Inv p files fs₀ (s.createStream json io (join p e.name)
      (downloadPath (join p e.name)) (some (digestPath (join p e.name)))).1 := by
  by_cases hc : (io.refuses .create (tempKey p e) || io.other (tempKey p e)) = true
  · rcases hopen with ⟨hs, hcur⟩ | hopen
    · rw [createStream, if_pos (by exact hc)]
      exact inv_of_closed h hs hcur
    · cases (entryOpens_spec hopen).2.2.2.symm.trans hc
  · exact inv_createStream ha h he (by simpa using hc)

theorem inv_reopen : Inv p files fs₀ (s.reopen json io (join p e.name)).1 := by
  have hmem := h.mem he
  have hfinal := finalInv_removeFile io (digestPath (join p e.name)) h
    fun e' he' => (ha e' he' e hmem).2
  have hframe := removeFile_frame io s (digestPath (join p e.name))
  have hopen' : ((s.removeFile io (digestPath (join p e.name))).1.job.dataStream = none ∧
      (s.removeFile io (digestPath (join p e.name))).1.cur = none) ∨
      entryOpens io p e = true :=
    hopen.imp_left fun ⟨hs, hcur⟩ => ⟨stream_none_removeFile io _ hs, hframe.2.2.trans hcur⟩
  unfold reopen
  split_ifs with hex
  · split <;> rename_i t hr <;> rw [hr] at hfinal hframe hopen'
    · rcases hopen' with ⟨hs, hcur⟩ | ho
      · exact inv_of_closed hfinal hs hcur
      · have := removeFile_digest ho hex
        rw [hr] at this
        cases this
    · exact inv_createStream_or ha hfinal (by rw [hframe.1, hframe.2.1]; exact he) hopen'
  · exact inv_createStream_or ha h he hopen

end

variable (h : Inv p files fs₀ s)

include h

theorem inv_renameFile (he : s.job.files.entries[asUsize s.job.fileNum]? = some e)
    (hok : s.fs (tempKey p e) = none ∨ s.WritesTo (tempKey p e)) :
    Inv p files fs₀ (s.renameFile io (downloadPath (join p e.name)) (join p e.name)) := by
  have hmem := h.mem he
  have hne : tempKey p e ≠ finalKey p e := (ha e hmem e hmem).1.symm
  unfold renameFile
  split
  · rename_i hc
    obtain ⟨hd, hs, hw, hloc⟩ : s.WritesTo (tempKey p e) := by
      refine hok.resolve_left fun hn => ?_
      simp [show s.fs (components _) = none from hn] at hc
    obtain ⟨o, ho, e', he', hkey, hpos, hl⟩ := h.busy hd hs hw
    obtain rfl : e = e' := by simpa [he] using he'
    have hdst : rename s.fs (tempKey p e) (finalKey p e) (finalKey p e) = some o.content :=
      rename_dst (hl _ hloc).2 hne
    have hmoved : (hd.moved (tempKey p e) (finalKey p e)).loc = some (finalKey p e) := by
      simp [Handle.moved, hne, hloc]
    have hpos : ∀ hd : Handle Key, (hd.moved (tempKey p e) (finalKey p e)).writable = hd.writable ∧
        (hd.moved (tempKey p e) (finalKey p e)).pos = hd.pos := by
      intro hd
      unfold Handle.moved
      split_ifs <;> exact ⟨rfl, rfl⟩
    show Inv p files fs₀ ({ s with fs := rename s.fs (tempKey p e) (finalKey p e) }.mapHandle
      (Handle.moved (tempKey p e) (finalKey p e)))
    refine h.mapHandle (fun e' he' => ?_) hpos ?_
    · obtain ⟨-, -, -, -, h5, h6, h7⟩ := mapHandle_frame (Handle.moved (tempKey p e) (finalKey p e))
        { s with fs := rename s.fs (tempKey p e) (finalKey p e) }
      by_cases hq : finalKey p e' = finalKey p e
      · -- the entry promoted: its stream goes with it
        refine .inr (.inr ⟨o, h6.trans ho, hkey.trans hq.symm,
          ⟨hd.moved (tempKey p e) (finalKey p e), ?_, ?_⟩, ?_⟩)
        · exact (mapHandle_file _ _ _).mpr ⟨hd, hs, rfl⟩
        · rwa [hq]
        · rw [hq]
          exact (congrFun h5 _).trans hdst
      · have hfs : rename s.fs (tempKey p e) (finalKey p e) (finalKey p e') = s.fs (finalKey p e') :=
          rename_other (ha e' he' e hmem).1 hq
        refine (h.final e' he').keep ((congrFun h5 _).trans hfs) (h7.symm ▸ fun _ => id)
          fun o' _ ⟨hd', hs', hl'⟩ => ?_
        obtain rfl : hd = hd' := by simpa [hs] using hs'
        rw [hloc, Option.some.injEq] at hl'
        exact absurd hl'.symm (ha e' he' e hmem).1
    · intro hd' o' e' hs' ho' he'' hl' l hlu
      obtain rfl : hd = hd' := by simpa [hs] using hs'
      obtain rfl : o = o' := by simpa [ho] using ho'
      obtain rfl : e = e' := by simpa [he] using he''
      obtain rfl : finalKey p e = l := by simpa [hmoved] using hlu
      exact ⟨.inr rfl, hdst⟩
  · exact h

theorem inv_modifyTime (hok : s.promoteOk io = true) : Inv p files fs₀ (s.modifyTime io) := by
  unfold modifyTime
  split
  · exact h
  rename_i path hp
  obtain ⟨e, he, rfl⟩ := currentPath_eq h.toFinalInv hp
  have hmem := h.mem he
  have h' : Inv p files fs₀ (s.removeFile io (digestPath (join p e.name))).1 :=
    inv_removeFile h fun e' he' => (ha e' he' e hmem).2
  refine inv_renameFile ha h' ?_ ?_
  · rwa [(removeFile_frame io s _).1, (removeFile_frame io s _).2.1]
  · exact removeFile_keeps (tempKey_ne_digestKey p e e) (promoteOk_spec hok hp)

theorem inv_removeDownloadFile : Inv p files fs₀ (s.removeDownloadFile io) := by
  unfold removeDownloadFile
  split
  · exact h
  rename_i path hp
  obtain ⟨e, he, rfl⟩ := currentPath_eq h.toFinalInv hp
  have hmem := h.mem he
  refine inv_removeFile (inv_removeFile h fun e' he' => ?_) fun e' he' => ?_
  · exact (ha e' he' e hmem).1
  · exact (ha e' he' e hmem).2

theorem inv_openEntry {n : ℤ} (hok : s.promoteOk io = true)
    (he : s.job.files.entries[asUsize n]? = some e)
    (hopen : s.job.dataStream = none ∨ entryOpens io p e = true) :
    Inv p files fs₀ (s.openEntry json io p e n).1 := by
  have h₁ : Inv p files fs₀ (s.modifyTime io) := inv_modifyTime ha h hok
  have he₁ : (s.modifyTime io).job.files.entries[asUsize n]? = some e := by
    rwa [h₁.list, ← h.list]
  have hopen₁ : ((s.modifyTime io).job.dataStream = none ∧ (s.modifyTime io).cur = none) ∨
      entryOpens io p e = true := by
    refine hopen.imp_left fun hs => ?_
    have hs₁ := stream_none_modifyTime io hs
    exact ⟨hs₁, h₁.idle (by simp [hs₁])⟩
  unfold openEntry
  simp only
  split
  · exact h₁
  set t : WriteSys := { s.modifyTime io with job := { (s.modifyTime io).job with fileNum := n } }
  have hf : FinalInv p files fs₀ t := { h₁ with }
  rw [openStream, hf.type]
  simp only
  split
  · -- a refused path
    rename_i hj
    rcases hopen₁ with ⟨hs, hcur⟩ | ho
    · exact inv_of_closed hf hs hcur
    · simp [(entryOpens_spec ho).1] at hj
  · rename_i path hj
    obtain rfl := joinValidatedPath_ok hj
    exact inv_reopen ha hf he₁ hopen₁

theorem inv_writeAll {data : Bytes} (hw : io.writeFails = none) :
    Inv p files fs₀ (s.writeAll io data).1 := by
  unfold writeAll
  split
  · exact h
  · rename_i buf pos hs
    exact absurd hs (h.noBuf buf pos)
  · rename_i hd hs
    split_ifs with hwr
    · obtain ⟨o, ho, e, he, hkey, hpos, hl⟩ := h.busy hd hs hwr
      have hmem := h.mem he
      simp only [hw, ho]
      refine ⟨{ h with final := fun e' he' => ?_ }, nofun, ?_, ?_⟩
      · by_cases hq : hd.loc = some (finalKey p e')
        · -- the block goes to a file that was promoted while it is open
          obtain ⟨hname, hfs⟩ := hl _ hq
          have hname : finalKey p e' = finalKey p e := hname.resolve_left (ha e' he' e hmem).1
          refine .inr (.inr ⟨_, rfl, hkey.trans hname.symm, ⟨_, rfl, hq⟩, ?_⟩)
          simp only [hq]
          rw [put_same, hfs, content_append, hpos]
          rfl
        · obtain ⟨pos, fs, cur, hto, hkept, -⟩ := writeAll_file io data hs
          have hfs := (congrArg (WriteSys.fs · (finalKey p e')) hto).trans (hkept _ hq)
          simp only [writeAll, hs, hwr, hw, if_true] at hfs
          refine (h.final e' he').keep hfs (fun _ => id) fun o' _ ⟨hd', hs', hl'⟩ => ?_
          obtain rfl : hd = hd' := by simpa [hs] using hs'
          exact absurd hl' hq
      · intro hidle
        cases hwr.symm.trans (hidle { hd with pos := hd.pos + data.length } rfl)
      · intro hd' hs' _
        cases hs'
        refine ⟨_, rfl, e, he, hkey, ?_, fun l hlo => ⟨(hl l hlo).1, ?_⟩⟩
        · simp [hpos, Nat.add_assoc]
        · simp only [show hd.loc = some l from hlo]
          rw [put_same, (hl l hlo).2, content_append, hpos]
          rfl
    · exact h

theorem inv_writeBlock (hw : io.writeFails = none) :
    Inv p files fs₀ (s.writeBlock decompress io b).1 := by
  have h' : Inv p files fs₀ (s.writeAll io (payload decompress b)).1 := inv_writeAll ha h hw
  unfold writeBlock
  split <;> rename_i hr <;> rw [hr] at h'
  · exact h'
  · exact { h' with }

/-- A `write` whose bytes all arrive; if it turns to another entry, what it
promotes is its own, and while a stream is open the entry can be opened. -/
def writeOk (io : Io) (s : WriteSys) (b : FileTransferBlock) : Bool :=
  io.writeFails.isNone &&
    match s.job.dataSource, s.job.files.entries[asUsize b.fileNum]? with
    | .filePath p, some e =>
      !s.turns b || (s.promoteOk io && (s.job.dataStream.isNone || entryOpens io p e))
    | _, _ => true

theorem inv_write (hok : s.writeOk io b = true) :
    Inv p files fs₀ (s.write json decompress io b).1 := by
  simp only [writeOk, Bool.and_eq_true, Option.isNone_iff_eq_none] at hok
  obtain ⟨hw, hok⟩ := hok
  unfold write
  split
  · exact h
  rw [h.source] at hok ⊢
  simp only at hok ⊢
  split
  · exact h
  rename_i e he
  rw [he] at hok
  split_ifs with hturn
  · simp only [hturn, Bool.not_true, Bool.false_or, Bool.and_eq_true, Bool.or_eq_true,
      Option.isNone_iff_eq_none] at hok
    have h' : Inv p files fs₀ (s.openEntry json io p e b.fileNum).1 :=
      inv_openEntry ha h hok.1 he hok.2
    split <;> rename_i hr <;> rw [hr] at h'
    · exact h'
    · exact inv_writeBlock ha h' hw
  · exact inv_writeBlock ha h hw

end

/-! ### Confirms -/

theorem seek_handle {f' : Handle Key} (h : (io.os fs).seek f off = .ok f') :
    f'.pos = off ∧ f'.writable = f.writable ∧ f'.loc = f.loc := by
  simp only [Io.os] at h
  split_ifs at h
  cases h
  exact ⟨rfl, rfl, rfl⟩

theorem open_ok {call : Call} {writable : Bool} (h : io.open fs call writable path = .ok f) :
    f = ⟨some (components path), 0, writable⟩ ∧ (fs (components path)).isSome = true := by
  unfold Io.open at h
  split_ifs at h with hc
  cases h
  rw [Bool.and_eq_true] at hc
  exact ⟨rfl, hc.1⟩

theorem offsetFile_cases (h : TransferJob.offsetFile (io.os fs) path = .ok f) :
    (f = ⟨some (components (downloadPath path)), 0, true⟩ ∧
      (fs (components (downloadPath path))).isSome = true ∧
      (io.exists fs (downloadPath path) && io.exists fs (digestPath path)) = true) ∨
    (f = ⟨some (components path), 0, false⟩ ∧ (io.exists fs (downloadPath path) &&
        io.exists fs (digestPath path)) = false ∧ io.exists fs path = true) := by
  unfold TransferJob.offsetFile at h
  split_ifs at h with hx hp
  · exact .inl ⟨(open_ok h).1, (open_ok h).2, hx⟩
  · exact .inr ⟨(open_ok h).1, Bool.eq_false_iff.2 hx, hp⟩

theorem setStreamOffset_file {j j' : TransferJob (Handle Key)} {n : ℕ}
    (hsrc : j.dataSource = .filePath p) (h : j.setStreamOffset (io.os fs) n off = some j') :
    j'.dataStream = j.dataStream ∨ ∃ hd e, j'.dataStream = some (.fileStream hd) ∧
      j.files.entries[n]? = some e ∧ hd.pos = off ∧ (hd.writable = true → hd.loc = some (tempKey p e) ∧
        (fs (tempKey p e)).isSome = true ∧
        j.resolveEntryPath (io.os fs) p e.name = some (join p e.name)) := by
  rcases TransferJob.setStreamOffset_cases h with rfl |
    ⟨p', e, path, f, f', hp', he, hpath, hf, hseek, rfl⟩
  · exact .inl rfl
  obtain rfl : p = p' := by simpa [hsrc] using hp'
  obtain rfl := resolveEntryPath_eq hpath
  have hfield := seek_handle hseek
  refine .inr ⟨f', e, rfl, he, hfield.1, fun hw => ?_⟩
  rw [hfield.2.1] at hw
  rw [hfield.2.2]
  rcases offsetFile_cases hf with ⟨rfl, hsome, -⟩ | ⟨rfl, -⟩
  · exact ⟨rfl, hsome, hpath⟩
  · -- the final file is opened for reading only
    cases hw

theorem confirm_stream {os : Os σ} {j j' : TransferJob σ} (h : j.confirm os r = some j') :
    j'.dataStream = j.dataStream ∨ j'.dataStream = none ∨ (j.fileNum = r.fileNum ∧
      ∃ off, r.union = some (ConfirmUnion.offsetBlk off) ∧ 0 < off ∧
        (j.setFileConfirmed true).setStreamOffset os (asUsize r.fileNum) off = some j') := by
  unfold TransferJob.confirm at h
  split_ifs at h with hn
  · cases h
    exact .inl rfl
  split at h
  · cases h
    exact .inr (.inl rfl)
  · cases h
    exact .inl rfl
  · rename_i hu
    split at h
    · rename_i hoff
      exact .inr (.inr ⟨by simpa using hn, _, hu, hoff, h⟩)
    · cases h
      exact .inl rfl
  · cases h
    exact .inl rfl

theorem finalInv_closeCur {cur : Option Opening}
    (h : FinalInv p files fs₀ s) (htype : job.type = s.job.type)
    (hsource : job.dataSource = s.job.dataSource) (hfiles : job.files = s.job.files) :
    FinalInv p files fs₀ { s.closeCur with job := job, cur := cur } := by
  refine ⟨htype.trans h.type, hsource.trans h.source, hfiles.trans h.list, fun e he => ?_⟩
  exact (h.final e he).keep rfl (fun _ => List.mem_append_left _) fun o ho _ =>
    .inl (List.mem_append_right _ (by simp [ho]))

/-- A confirm that keeps the stream: it keeps the current entry too, unless
there was no stream. -/
theorem inv_confirm_same (h : Inv p files fs₀ s) (hj : s.job.confirm (io.os s.fs) r = some job)
    (hs : job.dataStream = s.job.dataStream) : Inv p files fs₀ { s with job := job } := by
  obtain ⟨htype, hsource, hfiles⟩ := TransferJob.confirm_static hj
  have hnum : job.fileNum = s.job.fileNum ∨ s.job.dataStream = none := by
    rcases TransferJob.confirm_cases hj with rfl | ⟨-, -, rfl⟩ | ⟨-, st, tr, fin, rfl⟩
    · exact .inl rfl
    · exact .inr hs.symm
    · exact .inl rfl
  have hf : FinalInv p files fs₀ { s with job := job } := by
    refine ⟨htype.trans h.type, hsource.trans h.source, hfiles.trans h.list, fun e he => ?_⟩
    have := h.final e he
    simp only [Settled, OnFile, hs] at this ⊢
    exact this
  rcases hnum with hnum | hnone
  · refine ⟨hf, fun buf pos => hs ▸ h.noBuf buf pos, fun hidle => h.idle (hs ▸ hidle), ?_⟩
    intro hd hhd hw
    obtain ⟨o, ho, e, he, hrest⟩ := h.busy hd (hs ▸ hhd) hw
    refine ⟨o, ho, e, ?_, hrest⟩
    rwa [hfiles, hnum]
  · exact inv_of_closed hf (hs.trans hnone) (h.idle (by simp [hnone]))

theorem inv_confirm (h : Inv p files fs₀ s)
    (hc : s.confirm io r = some s') : Inv p files fs₀ s' := by
  unfold confirm at hc
  split at hc
  · cases hc
  rename_i job hj
  split at hc
  · rename_i hs
    cases hc
    exact inv_confirm_same h hj hs
  rename_i hs
  cases hc
  obtain ⟨htype, hsource, hfiles⟩ := TransferJob.confirm_static hj
  rcases confirm_stream hj with hsame | hnone | ⟨hn, off, -, -, hoff⟩
  · exact absurd hsame hs
  · -- the current file is skipped
    refine inv_of_closed ?_ hnone ?_
    · exact finalInv_closeCur (s := s) h.toFinalInv htype hsource hfiles
    · simp [resumed, hnone]
  · -- the current file is resumed at an offset
    have hfile := setStreamOffset_file (j := s.job.setFileConfirmed true) h.source hoff
    have hnum : job.fileNum = s.job.fileNum := by
      rcases TransferJob.setStreamOffset_cases hoff with rfl | ⟨_, _, _, _, f, _, _, _, _, _, rfl⟩ <;>
        rfl
    rcases hfile with hsame | ⟨hd, e, hstream, he, -, hwr⟩
    · exact absurd hsame hs
    have he : job.files.entries[asUsize job.fileNum]? = some e := by
      rwa [hfiles, hnum, hn]
    refine ⟨finalInv_closeCur (s := s) h.toFinalInv htype hsource hfiles, ?_, fun hidle => ?_, ?_⟩
    · intro buf pos hbuf
      cases hstream.symm.trans hbuf
    · have := hidle hd hstream
      simp [resumed, hstream, this]
    · intro hd' hstream' hw
      cases hstream.symm.trans hstream'
      obtain ⟨hloc, hsome, hresolve⟩ := hwr hw
      obtain ⟨base, hbase⟩ := Option.isSome_iff_exists.mp hsome
      have hpath : ({ s with job := job } : WriteSys).currentPath io = some (join p e.name) := by
        unfold currentPath
        rw [show ({ s with job := job } : WriteSys).job.type = .generic from htype.trans h.type,
          show ({ s with job := job } : WriteSys).job.dataSource = .filePath p from
            hsource.trans h.source]
        simp only [he]
        rw [← hresolve, TransferJob.resolveEntryPath, htype]
        rfl
      refine ⟨⟨finalKey p e, base, hd.pos, []⟩, ?_, e, he, rfl, rfl, fun l hl => ?_⟩
      · simp [resumed, hstream, hw, hpath, hloc, hbase, finalKey]
      · obtain rfl : tempKey p e = l := by simpa [hloc] using hl
        exact ⟨.inl rfl, hbase⟩

end WriteSys

end CodeDesk.Fs
