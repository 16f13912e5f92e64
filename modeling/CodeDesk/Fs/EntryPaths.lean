/-
# The paths of different entries

A list that `set_files` accepts may give two entries the same path: names that
differ in an empty part are joined to one path, and `a.download` is both an
entry and where `a` is received (`entries_collide`). It may also make the path
of an entry a directory that another needs (`a` and `a/b`). Where no name, with
or without a suffix, is another one or leads to it (`NamesApart`), the entries
share no path, and a call changes the files of no entry but those it is about,
and makes no directory in the place of any other (`other_entries_kept`), as long
as nothing keeps a block that turns to another entry from opening it: otherwise
the stream of the entry before stays open under the new number.
-/
import CodeDesk.Fs.Resume

namespace CodeDesk.Fs

open Files
open TransferJob (digestPath downloadPath)

def entryKeys (p : String) (e : FileEntry) : List Key := [finalKey p e, tempKey p e, digestKey p e]

def EntriesApart (p : String) (files : FileList) : Prop :=
  files.entries.Pairwise fun e e' => ∀ k ∈ entryKeys p e, k ∉ entryKeys p e'

/-- No name with any of the suffixes is that of another entry or a directory
of it. -/
def NamesApart (files : FileList) : Prop :=
  files.entries.Pairwise fun e e' => ∀ suf ∈ suffixes, ∀ suf' ∈ suffixes,
    ¬segments (e.name ++ suf) <+: segments (e'.name ++ suf') ∧
      ¬segments (e'.name ++ suf') <+: segments (e.name ++ suf)

theorem prefix_of_inside {base name name' suf suf' : String} {k k' : Key}
    (h : Inside base name suf k) (h' : Inside base name' suf' k') (hk : k <+: k') :
    segments (name ++ suf) <+: segments (name' ++ suf') := by
  have hdot : ∀ {n : String} {l : Key}, (∀ c ∈ segments n,
      ∃ seg, c = .normal seg ∧ seg.toList ∈ n.toList.splitOn '/') → ¬.curDir :: l <+: segments n := by
    intro n l hn hl
    obtain ⟨seg, hseg, -⟩ := hn _ (hl.subset List.mem_cons_self)
    cases hseg
  have hempty : components "" = [] := by decide
  rcases h.1 with rfl | ⟨rfl, rfl⟩ <;> rcases h'.1 with rfl | ⟨hb, rfl⟩
  · exact (List.prefix_append_right_inj _).1 hk
  · -- the dot is no part of a name, so that the first one has no part at all
    subst hb
    rw [hempty, List.nil_append] at hk
    rcases hs : segments (name ++ suf) with _ | ⟨c, l⟩
    · exact List.nil_prefix
    · rw [hs] at hk
      obtain ⟨rfl, -⟩ := List.cons_prefix_cons.1 hk
      exact absurd ⟨[], by rw [hs, List.append_nil]⟩ (hdot h.2.1)
  · rw [hempty, List.nil_append] at hk
    exact absurd hk (hdot h'.2.1)
  · exact (List.cons_prefix_cons.1 hk).2

theorem inside_entryKeys {base : String} {e : FileEntry} (hne : e.name ≠ "") (hv : ValidName e.name)
    {k : Key} (hk : k ∈ entryKeys base e) : ∃ suf ∈ suffixes, Inside base e.name suf k := by
  simp only [entryKeys, List.mem_cons, List.not_mem_nil, or_false] at hk
  rcases hk with rfl | rfl | rfl
  · have hin := inside_of_valid base hne hv (show "" ∈ suffixes by simp [suffixes])
    rw [String.append_empty] at hin
    exact ⟨"", by simp [suffixes], hin⟩
  · exact ⟨".download", by simp [suffixes], inside_of_valid base hne hv (by simp [suffixes])⟩
  · exact ⟨".digest", by simp [suffixes], inside_of_valid base hne hv (by simp [suffixes])⟩

/-- A path of an entry is no path of another one, and no directory of it. -/
theorem NamesApart.not_prefix {base : String} {files : FileList} (h : NamesApart files)
    (hok : validateTransferFileNames files.entries = .ok ()) {m n : ℕ} {e e' : FileEntry}
    (he : files.entries[m]? = some e) (he' : files.entries[n]? = some e') (hmn : m ≠ n) {k k' : Key}
    (hk : k ∈ entryKeys base e) (hk' : k' ∈ entryKeys base e') : ¬k <+: k' := by
  obtain ⟨hm, hem⟩ := List.getElem?_eq_some_iff.1 he
  obtain ⟨hn, hen⟩ := List.getElem?_eq_some_iff.1 he'
  have hvalid : ∀ d ∈ files.entries, d.name ≠ "" ∧ ValidName d.name := by
    intro d hd
    refine (validateTransferFileNames_ok hok hd).resolve_left fun hone => hmn ?_
    simp only [hone.2, List.length_singleton] at hm hn
    omega
  have hve := hvalid e (List.mem_of_getElem? he)
  have hve' := hvalid e' (List.mem_of_getElem? he')
  obtain ⟨suf, hsuf, hin⟩ := inside_entryKeys hve.1 hve.2 hk
  obtain ⟨suf', hsuf', hin'⟩ := inside_entryKeys hve'.1 hve'.2 hk'
  intro hpre
  have hseg := prefix_of_inside hin hin' hpre
  subst hem hen
  rcases Nat.lt_or_gt_of_ne hmn with hlt | hlt
  · exact (List.pairwise_iff_getElem.1 h _ _ hm hn hlt suf hsuf suf' hsuf').1 hseg
  · exact (List.pairwise_iff_getElem.1 h _ _ hn hm hlt suf' hsuf' suf hsuf).2 hseg

theorem NamesApart.entriesApart {base : String} {files : FileList} (h : NamesApart files)
    (hok : validateTransferFileNames files.entries = .ok ()) : EntriesApart base files := by
  refine List.pairwise_iff_getElem.2 fun m n hm hn hmn k hk hk' => ?_
  exact h.not_prefix hok (List.getElem?_eq_getElem hm) (List.getElem?_eq_getElem hn)
    (Nat.ne_of_lt hmn) hk hk' (List.prefix_refl k)

theorem Access.For.mem_entryKeys {p : String} {e : FileEntry} {a : Access} (h : a.For p e)
    {path : String} (hp : path ∈ a.paths) : components path ∈ entryKeys p e := by
  obtain ⟨suf, hsuf, rfl⟩ := h.1 path hp
  simp only [suffixes, List.mem_cons, List.not_mem_nil, or_false] at hsuf
  rcases hsuf with rfl | rfl | rfl
  · simp [entryKeys, finalKey]
  · simp [entryKeys, tempKey, downloadPath]
  · simp [entryKeys, digestKey, digestPath]

namespace WriteSys

variable {json : FileDigest → Bytes} {decompress : Bytes → Bytes} {io : Io} {p : String}
  {files : FileList} {s : WriteSys}

def AtEntry (p : String) (files : FileList) (s : WriteSys) : Prop :=
  ∀ k, s.OnFile k → ∃ e, files.entries[asUsize s.job.fileNum]? = some e ∧ k ∈ entryKeys p e

/-- Nothing keeps a block that turns to another entry from opening it, unless there
is no stream that could stay open. -/
def TurnOpens (p : String) (s : WriteSys) : WriteInput → Prop
  | .write io b => s.turns b = true → s.job.dataStream ≠ none →
      ∀ e ∈ s.job.files.entries[asUsize b.fileNum]?, entryOpens io p e = true
  | _ => True

variable {i : WriteInput} {e : FileEntry}

theorem covered_entry (h : Receives p files s) {k : Key} (hk : Covers (s.accesses i) k) :
    ∃ n ∈ s.numbers i, ∃ e, files.entries[n]? = some e ∧ k ∈ entryKeys p e := by
  obtain ⟨a, ha, path, hpath, rfl⟩ := hk
  obtain ⟨n, hn, e, he, hfor⟩ := accesses_at h i a ha
  exact ⟨n, hn, e, he, hfor.mem_entryKeys hpath⟩

theorem openStream_stream (htype : s.job.type = .generic) (hopen : entryOpens io p e = true) :
    (s.openStream json io p e).1.job.dataStream =
      some (.fileStream ⟨some (tempKey p e), 0, true⟩) := by
  obtain ⟨hj, -, -, hcreate⟩ := entryOpens_spec hopen
  have hstream : ∀ t : WriteSys, (t.createStream json io (join p e.name)
      (downloadPath (join p e.name)) (some (digestPath (join p e.name)))).1.job.dataStream =
        some (.fileStream ⟨some (tempKey p e), 0, true⟩) := by
    intro t
    rw [createStream, if_neg (by simpa [tempKey] using hcreate)]
    dsimp only
    split <;> rfl
  rw [openStream, htype]
  simp only [hj]
  rw [reopen]
  split
  · rename_i hex
    have hgone := removeFile_digest hopen hex
    rcases hr : s.removeFile io (digestPath (join p e.name)) with ⟨t, b⟩
    rw [hr] at hgone
    obtain rfl : b = true := hgone
    exact hstream t
  · exact hstream s

section

variable (hr : Receives p files s)

include hr

theorem atEntry_openStream (he : files.entries[asUsize s.job.fileNum]? = some e)
    (hok : s.job.dataStream = none ∨ entryOpens io p e = true) :
    AtEntry p files (s.openStream json io p e).1 := by
  intro k hk
  have heff := effect_openStream (N := fun _ => False) json io s p e
  rw [heff.fileNum]
  refine ⟨e, he, ?_⟩
  rcases hok with hnone | hok
  · rcases heff.stream k hk with ⟨hd, hs, -⟩ | ⟨a, ha, path, hpath, rfl⟩
    · simp [hnone] at hs
    · exact (openStreamCalls_for hr.type ha).mem_entryKeys hpath
  · obtain ⟨hd, hs, hl⟩ := hk
    rw [openStream_stream hr.type hok] at hs
    cases hs
    cases hl
    simp [entryKeys]

section

variable (h : AtEntry p files s)

include h

/-- The stream stays with the entry where a call is about the current one only
and leaves the number alone. -/
theorem AtEntry.current {t : WriteSys} (hi : s.numbers i = [asUsize s.job.fileNum])
    (hf : Frame (Covers (s.accesses i)) s t) (hnum : t.job.fileNum = s.job.fileNum) :
    AtEntry p files t := by
  intro k hk
  rw [hnum]
  refine (hf.stream k hk).elim (h k) fun hk => ?_
  obtain ⟨n, hn, he⟩ := covered_entry hr hk
  rw [hi, List.mem_singleton] at hn
  exact hn ▸ he

theorem atEntry_modifyTime : AtEntry p files (s.modifyTime io) :=
  have heff := effect_modifyTime io s
  h.current (i := .modifyTime io) hr rfl heff.toFrame heff.fileNum

theorem atEntry_write {b : FileTransferBlock} (hturn : s.TurnOpens p (.write io b)) :
    AtEntry p files (s.write json decompress io b).1 := by
  have hblock : ∀ t : WriteSys, AtEntry p files t →
      AtEntry p files (t.writeBlock decompress io b).1 := by
    intro t ht k hk
    have heff : Effect (fun _ => False) (fun _ => False) t _ := effect_writeBlock decompress io t b
    rw [heff.fileNum]
    exact (heff.stream k hk).elim (ht k) nofun
  unfold write
  split
  · exact h
  simp only [hr.source]
  split
  · exact h
  rename_i e he
  split <;> rename_i hturns
  · have hopen : AtEntry p files (s.openEntry json io p e b.fileNum).1 := by
      have hr' := hr.frame (effect_modifyTime (N := fun _ => False) io s).toFrame
      have hmod : AtEntry p files (s.modifyTime io) := atEntry_modifyTime hr h
      have hok : s.job.dataStream = none ∨ entryOpens io p e = true :=
        or_iff_not_imp_left.2 fun hs => hturn hturns hs e he
      unfold openEntry
      dsimp only
      split
      · exact hmod
      · exact atEntry_openStream { hr' with } (hr.list ▸ he)
          (hok.imp_left (stream_none_modifyTime io))
    split <;> rename_i ho <;> rw [ho] at hopen
    · exact hopen
    · exact hblock _ hopen
  · exact hblock _ h

theorem atEntry_confirm {r : SendConfirmRequest} : AtEntry p files ((s.confirm io r).getD s) := by
  by_cases hn : s.job.fileNum = r.fileNum
  · have hsame := h.current (i := .confirm io r) hr (by rw [numbers, hn]) (frame_confirm io s r)
    cases hc : s.job.confirm (io.os s.fs) r with
    | none =>
      simp only [confirm, hc]
      exact h
    | some j =>
      have hjob : ((s.confirm io r).getD s).job = j := by
        simp only [confirm, hc]
        split <;> rfl
      rcases TransferJob.confirm_cases hc with rfl | ⟨-, -, rfl⟩ | ⟨-, _, _, _, rfl⟩
      · exact hsame (by rw [hjob])
      · rintro k ⟨hd, hs, -⟩
        rw [hjob] at hs
        cases hs
      · exact hsame (by rw [hjob]; rfl)
  · rwa [confirm_other hn]

theorem atEntry_step (hturn : s.TurnOpens p i) : AtEntry p files (s.step json decompress i) := by
  cases i with
  | write => exact atEntry_write hr h hturn
  | confirm => exact atEntry_confirm hr h
  | modifyTime => exact atEntry_modifyTime hr h
  | removeDownloadFile io =>
    have heff := effect_removeDownloadFile (N := fun _ => False) io s
    exact h.current (i := .removeDownloadFile io) hr rfl heff.toFrame heff.fileNum
  | setDigest => exact h

end

end

end WriteSys

/-- Where no name leads to another, the entries of an accepted list share no path.
If nothing keeps a block that turns to another entry from opening it, a call keeps
the files of all entries but the current one and those it is about, and makes no
directory in their place. -/
theorem other_entries_kept (json : FileDigest → Bytes) (decompress : Bytes → Bytes)
    (symlinkMetadata : String → SymlinkMeta) (id : ℤ) (base : String) (fileNum : ℤ)
    (detection : Bool) (fs : Dir) (files : FileList) :
    let r := (Receiver.newWrite id .generic (.filePath base) fileNum detection fs).setFiles
      symlinkMetadata files
    let step := WriteSys.step json decompress
    r.2 = .ok () ∧ NamesApart files → EntriesApart base files ∧
      ∀ is, Run.Meets step (WriteSys.TurnOpens base) r.1.sys is →
        let s := Run.run step r.1.sys is
        ∀ i n e, files.entries[n]? = some e → n ≠ asUsize s.job.fileNum → n ∉ s.numbers i →
          ∀ k ∈ entryKeys base e, (step s i).fs k = s.fs k ∧
            ∀ a ∈ s.accesses i, ∀ dir ∈ a.dirs, ¬k <+: dir := by
  rintro r step ⟨hok, hapart⟩
  obtain ⟨hnames, hsys⟩ := setFiles_ok hok
  refine ⟨hapart.entriesApart hnames, ?_⟩
  intro is hturn s i n e he hcur hn k hk
  have hnew : r.1.sys.Receives base files ∧ r.1.sys.AtEntry base files := by
    rw [hsys]
    refine ⟨⟨rfl, rfl, rfl⟩, ?_⟩
    rintro k ⟨hd, hs, -⟩
    cases hs
  obtain ⟨hr, hat⟩ : s.Receives base files ∧ s.AtEntry base files :=
    Run.inv_run_of_meets (I := fun s : WriteSys => s.Receives base files ∧ s.AtEntry base files)
      (fun s i _ h ht => ⟨h.1.frame (WriteSys.frame_step json decompress s i),
        WriteSys.atEntry_step h.1 h.2 ht⟩) hnew hturn
  constructor
  · refine (WriteSys.frame_step json decompress s i).fs k (fun hcover => ?_) fun hon => ?_
    · obtain ⟨m, hm, e', he', hk'⟩ := WriteSys.covered_entry hr hcover
      exact hapart.not_prefix hnames he he' (fun hnm => hn (hnm ▸ hm)) hk hk' (List.prefix_refl k)
    · obtain ⟨e', he', hk'⟩ := hat k hon
      exact hapart.not_prefix hnames he he' hcur hk hk' (List.prefix_refl k)
  · -- the directory is the parent of another entry's path
    intro a ha dir hdir hpre
    obtain ⟨m, hm, e', he', hfor⟩ := WriteSys.accesses_at hr i a ha
    have hparent := parent_eq (hfor.2 dir hdir)
    refine hapart.not_prefix hnames he he' (fun hnm => hn (hnm ▸ hm)) hk
      (show finalKey base e' ∈ entryKeys base e' by simp [entryKeys]) ?_
    exact hpre.trans (hparent ▸ List.dropLast_prefix _)

/-- Finishing the first of two entries keeps the second. -/
theorem other_entries_kept_two : let files : FileList := ⟨[⟨"a", 1, 0⟩, ⟨"b", 1, 0⟩], by decide⟩
    let r := (Receiver.newWrite 1 .generic (.filePath "/d") 0 false fun _ => none).setFiles
      (fun _ => .notFound) files
    let step := WriteSys.step (fun _ => []) id
    let s := Run.run step r.1.sys [.write .plain ⟨1, 0, [7], false⟩]
    s.fs (tempKey "/d" ⟨"a", 1, 0⟩) = some [7] ∧
      ∀ k ∈ entryKeys "/d" ⟨"b", 1, 0⟩, (step s (.modifyTime .plain)).fs k = s.fs k := by
  intro files r step s
  have happly := (other_entries_kept (fun _ => []) id (fun _ => .notFound) 1 "/d" 0 false
    (fun _ => none) files ⟨by decide +kernel, by unfold NamesApart; decide +kernel⟩).2
    [.write .plain ⟨1, 0, [7], false⟩] ⟨fun _ hs => absurd rfl hs, trivial⟩
  exact ⟨by decide +kernel, fun k hk => (happly (.modifyTime .plain) 1 _ rfl (by decide +kernel)
    (by decide +kernel) k hk).1⟩

/-- Two names for one path, and a name that is another's with the suffix. The
block of `a` destroys what the entry `a.download` has received. -/
theorem entries_collide :
    let files : FileList := ⟨[⟨"a.download", 1, 0⟩, ⟨"a", 1, 0⟩, ⟨"b/c", 1, 0⟩, ⟨"b//c", 1, 0⟩],
      by decide⟩
    let r := (Receiver.newWrite 1 .generic (.filePath "/d") 0 false fun _ => none).setFiles
      (fun _ => .notFound) files
    let is : List WriteInput := [.write .plain ⟨1, 0, [7], false⟩, .write .plain ⟨1, 2, [8], false⟩]
    let step := WriteSys.step (fun _ => []) id
    let s := Run.run step r.1.sys is
    let e : FileEntry := ⟨"a.download", 1, 0⟩
    r.2 = .ok () ∧ s.numbers (.write .plain ⟨1, 1, [9], false⟩) = [2, 1] ∧
      s.fs (finalKey "/d" e) = some [7] ∧
      (step s (.write .plain ⟨1, 1, [9], false⟩)).fs (finalKey "/d" e) = some [9] ∧
      finalKey "/d" ⟨"b/c", 1, 0⟩ = finalKey "/d" ⟨"b//c", 1, 0⟩ := by
  decide +kernel

end CodeDesk.Fs
