/-
# Where a paste reaches

The names of a file clipboard come from the remote peer and go, as they are,
into `Path::join` with the directory of the paste. Below that directory is
what `Below` says: behind its components come one or more names and no way up.
If every name of the list is relative, has no `..` part and at least one
component, and the directory is there while the task works, then every path
the task creates, renames to, opens or removes is below the directory, in
every run (`paste_contained`): the suffix of a partial file, the number that
makes a name free and the parents that are made do not lead out of it.
Nothing in the task asks this of the names, and `../evil` is created beside
the directory.
-/
import Mathlib.Data.Set.List
import CodeDesk.Sealing
import CodeDesk.Clipboard.PasteTask

namespace CodeDesk.Clipboard

open Fs (Component components pushPath parent asUsize segments)
open Sealing (leBytes)

/-- The file `k` is properly below the directory, by names only. -/
def Below (targetDir : String) (k : Key) : Prop :=
  ∃ segs : List String, segs ≠ [] ∧ k = components targetDir ++ segs.map Component.normal

/-- The paths a call creates, opens for writing, renames or removes. -/
def Call.reaches : Call → List Key
  | .exists _ => []
  | .create path => [path]
  | .createDirAll path => [path]
  | .rename src dst => [src, dst]
  | .openWrite path => [path]
  | .remove path => [path]
  | .write _ => []

/-- A name that stays below the directory it is joined to. -/
structure SafeName (name : String) : Prop where
  relative : name.toList.head? ≠ some '/'
  noParent : ['.', '.'] ∉ name.toList.splitOn '/'
  some : segments name ≠ []

/-! ### Paths built from a safe name -/

variable {targetDir name : String} {k dir : Key}

theorem below_of_normal {segs : List Component} (hne : segs ≠ [])
    (h : ∀ c ∈ segs, ∃ seg, c = .normal seg) : Below targetDir (components targetDir ++ segs) := by
  obtain ⟨names, rfl⟩ : segs ∈ Set.range (List.map Component.normal) := by
    rw [Set.range_list_map]
    exact fun c hc => (h c hc).imp fun _ => Eq.symm
  exact ⟨names, fun hn => hne (by rw [hn]; rfl), rfl⟩

/-- What the task puts behind a path: nothing, or more than two characters
without a separator. -/
def Suffix (suf : String) : Prop := suf = "" ∨ '/' ∉ suf.toList ∧ 2 < suf.toList.length

variable {suf : String} {type : FileType} {log : List Call}

theorem below_join (ht : targetDir ≠ "") (hn : SafeName name) (hs : Suffix suf) :
    Below targetDir (components (pushPath targetDir name ++ suf)) := by
  have hne : name ≠ "" := by
    rintro rfl
    exact hn.some rfl
  have hhead : (name ++ suf).toList.head? ≠ some '/' := by
    rw [String.toList_append, List.head?_append_of_ne_nil _ (by simpa using hne)]
    exact hn.relative
  have hsegs : segments (name ++ suf) ≠ [] ∧ ['.', '.'] ∉ (name ++ suf).toList.splitOn '/' := by
    rcases hs with rfl | ⟨hsep, hlen⟩
    · rw [String.append_empty]
      exact ⟨hn.some, hn.noParent⟩
    · obtain ⟨h1, h2⟩ := Fs.segments_suffix name hsep hlen
      exact ⟨h1, h2 hn.noParent⟩
  rw [Fs.pushPath_append hne, Fs.components_pushPath ht hhead]
  refine below_of_normal hsegs.1 fun c hc => ?_
  obtain ⟨seg, hseg, -⟩ := Fs.segments_normal hsegs.2 c hc
  exact ⟨seg, hseg⟩

theorem Suffix.numbered (hs : Suffix suf) (i : ℕ) : Suffix (suf ++ " (" ++ toString i ++ ")") := by
  have hi : (toString i).toList = Nat.toDigits 10 i := by
    rw [Nat.toString_eq_ofList_toDigits, String.toList_ofList]
  have hdigits : '/' ∉ Nat.toDigits 10 i := by
    intro hmem
    cases Nat.isDigit_of_mem_toDigits (by decide) (by decide) hmem
  have hpos : 0 < (Nat.toDigits 10 i).length := Nat.length_toDigits_pos
  have hsep : '/' ∉ suf.toList := by
    rcases hs with rfl | hs
    · simp
    · exact hs.1
  refine .inr ⟨?_, ?_⟩
  · simp only [String.toList_append, hi, List.mem_append, not_or]
    exact ⟨⟨⟨hsep, by decide⟩, hdigits⟩, by decide⟩
  · simp only [String.toList_append, hi, List.length_append, show " (".toList.length = 2 from rfl]
    omega

theorem Below.sibling (h : Below targetDir k) (seg : String) :
    Below targetDir (k.dropLast ++ [.normal seg]) := by
  obtain ⟨segs, hne, rfl⟩ := h
  refine ⟨segs.dropLast ++ [seg], by simp, ?_⟩
  rw [List.dropLast_append_of_ne_nil (by simpa using hne), List.append_assoc, List.map_append,
    List.map_dropLast]
  rfl

theorem Below.parent (h : Below targetDir k) (hp : parent k = some dir) :
    dir = components targetDir ∨ Below targetDir dir := by
  obtain ⟨segs, hne, rfl⟩ := h
  obtain rfl := Fs.parent_eq hp
  rw [List.dropLast_append_of_ne_nil (by simpa using hne), ← List.map_dropLast]
  by_cases hd : segs.dropLast = []
  · exact .inl (by rw [hd]; simp)
  · exact .inr ⟨segs.dropLast, hd, rfl⟩

theorem below_numbered (ht : targetDir ≠ "") (hn : SafeName name) (hs : Suffix suf) {i : ℕ}
    (h : numbered (pushPath targetDir name ++ suf) type i = some k) : Below targetDir k := by
  have hplain : Below targetDir
      (components (pushPath targetDir name ++ suf ++ " (" ++ toString i ++ ")")) := by
    have hsuf := below_join ht hn (hs.numbered i)
    simpa only [String.append_assoc] using hsuf
  unfold numbered at h
  cases type with
  | file =>
    dsimp only at h
    split at h
    · cases h
      exact (below_join ht hn hs).sibling _
    · cases h
      exact hplain
  | directory =>
    cases h
    exact hplain
  | symlink => cases h

/-! ### Looking for a free name -/

/-- The calls from `log` to `log'` only asked. -/
def Asks (log log' : List Call) : Prop := ∃ l, log' = log ++ l ∧ ∀ c ∈ l, c.reaches = []

theorem Asks.trans {l₁ l₂ l₃ : List Call} (h : Asks l₁ l₂) (h' : Asks l₂ l₃) : Asks l₁ l₃ := by
  obtain ⟨a, rfl, ha⟩ := h
  obtain ⟨b, rfl, hb⟩ := h'
  exact ⟨a ++ b, List.append_assoc _ _ _, List.forall_mem_append.2 ⟨ha, hb⟩⟩

theorem asks_exists (log : List Call) (path : Key) : Asks log (log ++ [.exists path]) :=
  ⟨[.exists path], rfl, List.forall_mem_singleton.2 rfl⟩

variable (os : Os)

theorem firstFree_spec (candidate : ℕ → Option Key) (n i : ℕ) (log : List Call) :
    Asks log (firstFree os candidate n i log).2 ∧
      ∀ k, (firstFree os candidate n i log).1 = some k → ∃ j, candidate j = some k := by
  induction n generalizing i log with
  | zero => exact ⟨⟨[], by simp [firstFree], nofun⟩, nofun⟩
  | succ n ih =>
    unfold firstFree
    cases hc : candidate i with
    | none => exact ⟨⟨[], by simp, nofun⟩, nofun⟩
    | some path =>
      dsimp only
      split
      · obtain ⟨hlog, hk⟩ := ih (i + 1) (log ++ [.exists path])
        exact ⟨(asks_exists log path).trans hlog, hk⟩
      · refine ⟨asks_exists log path, fun k hk => ⟨i, ?_⟩⟩
        rw [hc, ← Option.some.inj hk]

theorem getFirstFilename_spec (path : String) (type : FileType) (log : List Call) :
    Asks log (getFirstFilename os path type log).2 ∧
      ∀ k, (getFirstFilename os path type log).1 = some k →
        k = components path ∨ ∃ i, numbered path type i = some k := by
  unfold getFirstFilename
  split
  · obtain ⟨hlog, hk⟩ := firstFree_spec os (numbered path type) 9999998 1
      (log ++ [.exists (components path)])
    exact ⟨(asks_exists _ _).trans hlog, fun k h => .inr (hk k h)⟩
  · exact ⟨asks_exists _ _, fun k h => .inl (Option.some.inj h).symm⟩

theorem getNewFilename_spec (targetDir : String) (file : FileDescription) (log : List Call) :
    Asks log (getNewFilename os targetDir file log).2 ∧
      ∀ k, (getNewFilename os targetDir file log).1 = some k →
        k = components (pushPath targetDir file.name) ∨
          ∃ i, numbered (pushPath targetDir file.name) file.kind i = some k := by
  unfold getNewFilename
  dsimp only
  split
  · obtain ⟨hlog, hk⟩ := getFirstFilename_spec os (pushPath targetDir file.name) file.kind
      (log ++ [.exists (components (pushPath targetDir file.name))])
    exact ⟨(asks_exists _ _).trans hlog, hk⟩
  · exact ⟨asks_exists _ _, fun k h => .inl (Option.some.inj h).symm⟩

theorem getFirstFilename_below (ht : targetDir ≠ "") (hn : SafeName name)
    (h : (getFirstFilename os (pushPath targetDir name ++ ".rddownload") type log).1 = some k) :
    Below targetDir k := by
  have hs : Suffix ".rddownload" := .inr (by decide)
  rcases (getFirstFilename_spec os _ type log).2 k h with rfl | ⟨i, hi⟩
  · exact below_join ht hn hs
  · exact below_numbered ht hn hs hi

/-! ### The task stays below -/

def Call.In (targetDir : String) (c : Call) : Prop := ∀ k ∈ c.reaches, Below targetDir k

theorem call_in_one {c : Call} (hc : c.reaches = [k]) (hk : Below targetDir k) : c.In targetDir := by
  rw [Call.In, hc]
  exact List.forall_mem_singleton.2 hk

/-- The task is about this directory and list, and what it did is below. -/
structure Contained (targetDir : String) (files : List FileDescription) (h : PasteTaskHandle) :
    Prop where
  target : h.targetDir = targetDir
  list : h.files = files
  path : h.downloadFilePath = [] ∨ Below targetDir h.downloadFilePath
  opened : h.fileHandle = true → Below targetDir h.downloadFilePath
  log : ∀ c ∈ h.log, c.In targetDir

theorem call_eq (os : Os) (h : PasteTaskHandle) (c : Call) :
    h.call os c = ((h.call os c).1, os h.log c) := rfl

/-- The directory is there, and every name of the list is safe. -/
structure Safe (os : Os) (targetDir : String) (files : List FileDescription) : Prop where
  named : targetDir ≠ ""
  there : ∀ log, os log (.exists (components targetDir)) = true
  names : ∀ f ∈ files, SafeName f.name

variable {os : Os} {files : List FileDescription} {h : PasteTaskHandle}

namespace Contained

variable (hc : Contained targetDir files h)

include hc

theorem call {c : Call} (hin : c.In targetDir) : Contained targetDir files (h.call os c).1 :=
  { hc with log := List.forall_mem_append.2 ⟨hc.log, List.forall_mem_singleton.2 hin⟩ }

theorem asked {log : List Call} (ha : Asks h.log log) :
    Contained targetDir files { h with log := log } := by
  obtain ⟨l, rfl, hl⟩ := ha
  refine { hc with log := List.forall_mem_append.2 ⟨hc.log, fun c hcl k hk => ?_⟩ }
  simp [hl c hcl] at hk

theorem closed : Contained targetDir files { h with fileHandle := false } :=
  { hc with opened := nofun }

theorem failed (err : CliprdrError) : Contained targetDir files { h with error := some err } :=
  { hc with }

theorem onCancelled : Contained targetDir files (h.onCancelled os) := by
  unfold PasteTaskHandle.onCancelled
  split_ifs with hne
  · exact hc.closed
  · exact hc.closed.call (call_in_one rfl (hc.path.resolve_left hne))

theorem onError (err : CliprdrError) : Contained targetDir files (h.onError os err) :=
  (hc.failed err).onCancelled

theorem forget (hf : h.fileHandle = false) :
    Contained targetDir files { h with downloadFilePath := [], downloadFileIndex := -1 } :=
  ⟨hc.target, hc.list, .inl rfl, fun ho => Bool.noConfusion (hf.symm.trans ho), hc.log⟩

theorem renameDone (hf : h.fileHandle = false) {dst : Key}
    (hsrc : Below targetDir h.downloadFilePath) (hdst : Below targetDir dst) :
    Contained targetDir files (h.renameDone os dst) := by
  have hren : (Call.rename h.downloadFilePath dst).In targetDir :=
    List.forall_mem_cons.2 ⟨hsrc, List.forall_mem_singleton.2 hdst⟩
  have hcall : Contained targetDir files (h.call os (.rename h.downloadFilePath dst)).1 :=
    hc.call hren
  unfold PasteTaskHandle.renameDone
  rw [call_eq]
  cases os h.log (.rename h.downloadFilePath dst) with
  | true => exact (hcall.call (call_in_one rfl hdst)).forget hf
  | false => exact hcall.forget hf

theorem createDownload {path : Key} (hp : Below targetDir path) (file : FileDescription) :
    Contained targetDir files (h.createDownload os file path) := by
  have hcall : Contained targetDir files (h.call os (.create path)).1 :=
    hc.call (call_in_one rfl hp)
  unfold PasteTaskHandle.createDownload
  rw [call_eq]
  cases os h.log (.create path) with
  | true => exact ⟨hcall.target, hcall.list, .inr hp, fun _ => hp, hcall.log⟩
  | false => exact hcall.failed _

theorem closeList : Contained targetDir files h.closeList := by
  unfold PasteTaskHandle.closeList
  split
  · exact hc
  · exact ⟨hc.target, hc.list, hc.path, hc.opened, hc.log⟩

variable (hs : Safe os targetDir files)

include hs

theorem newFilename {file : FileDescription} (hmem : file ∈ files) {dst : Option Key}
    {log : List Call} (hr : getNewFilename os h.targetDir file h.log = (dst, log)) :
    Contained targetDir files { h with log := log } ∧ ∀ k, dst = some k → Below targetDir k := by
  obtain ⟨hlog, hbelow⟩ := getNewFilename_spec os h.targetDir file h.log
  rw [hr] at hlog hbelow
  rw [hc.target] at hbelow
  refine ⟨hc.asked hlog, fun k hk => ?_⟩
  have hsuf : Suffix "" := .inl rfl
  rcases hbelow k hk with rfl | ⟨i, hi⟩
  · simpa using below_join hs.named (hs.names file hmem) hsuf
  · exact below_numbered hs.named (hs.names file hmem) hsuf (by simpa using hi)

theorem onDone : Contained targetDir files (h.onDone os) := by
  unfold PasteTaskHandle.onDone
  split
  · exact hc
  rename_i hopen
  split
  · exact hc
  dsimp only
  cases hfile : h.files[asUsize h.downloadFileIndex]? with
  | none => exact hc.closed
  | some file =>
    have hmem : file ∈ files := hc.list ▸ List.mem_of_getElem? hfile
    dsimp only
    rcases hr : getNewFilename os h.targetDir file h.log with ⟨dst, log⟩
    obtain ⟨hasked, hbelow⟩ := hc.closed.newFilename hs hmem hr
    cases dst with
    | none => exact hasked
    | some dst => exact hasked.renameDone rfl (hc.opened (by simpa using hopen)) (hbelow dst rfl)

theorem onFinished : Contained targetDir files (h.onFinished os) := by
  have hend : Contained targetDir files
      (if h.error.isSome then h.onCancelled os else h.onDone os) := by
    split
    · exact hc.onCancelled
    · exact hc.onDone hs
  unfold PasteTaskHandle.onFinished
  generalize (if h.error.isSome then h.onCancelled os else h.onDone os) = h' at hend ⊢
  dsimp only
  split
  · exact hend.failed _
  · exact hend

theorem makeDir (hd : dir = components targetDir ∨ Below targetDir dir) :
    Contained targetDir files (h.makeDir os dir).1 := by
  have hask : Contained targetDir files (h.call os (.exists dir)).1 :=
    hc.call nofun
  unfold PasteTaskHandle.makeDir
  rw [call_eq]
  cases hx : os h.log (.exists dir) with
  | true => exact hask
  | false =>
    refine hask.call (call_in_one rfl (hd.resolve_left ?_))
    rintro rfl
    simp [hs.there] at hx

theorem openNewWriter : Contained targetDir files (h.openNewWriter os).1 := by
  unfold PasteTaskHandle.openNewWriter
  cases hfile : h.files[asUsize h.listIndex]? with
  | none => exact hc
  | some file =>
    have hmem : file ∈ files := hc.list ▸ List.mem_of_getElem? hfile
    dsimp only
    have hlog := (getFirstFilename_spec os (pushPath h.targetDir file.name ++ ".rddownload")
      file.kind h.log).1
    rcases hr : getFirstFilename os (pushPath h.targetDir file.name ++ ".rddownload") file.kind h.log
      with ⟨path, log⟩
    rw [hr] at hlog
    cases path with
    | none => exact hc.asked hlog
    | some path =>
      have hfirst : (getFirstFilename os (pushPath targetDir file.name ++ ".rddownload") file.kind
          h.log).1 = some path := by
        rw [← hc.target, hr]
      have hpath : Below targetDir path :=
        getFirstFilename_below os hs.named (hs.names file hmem) hfirst
      dsimp only
      cases hp : parent path with
      | none => exact hc.asked hlog
      | some dir =>
        have hdir := (hc.asked hlog).makeDir hs (hpath.parent hp)
        dsimp only
        rcases hm : ({ h with log := log } : PasteTaskHandle).makeDir os dir with ⟨h', made⟩
        rw [hm] at hdir
        cases made with
        | false => exact hdir
        | true => exact hdir.createDownload hpath file

theorem createEmpty {file : FileDescription} (hmem : file ∈ files) :
    Contained targetDir files (h.createEmpty os file) := by
  unfold PasteTaskHandle.createEmpty
  rcases hr : getNewFilename os h.targetDir file h.log with ⟨path, log⟩
  obtain ⟨hasked, hbelow⟩ := hc.newFilename hs hmem hr
  cases path with
  | none => exact hasked
  | some path => exact hasked.call (call_in_one rfl (hbelow path rfl))

theorem updateLoop (n : ℕ) (i : ℤ) :
    Contained targetDir files (PasteTaskHandle.updateLoop os n i h).1 := by
  induction n generalizing i h with
  | zero => exact hc
  | succ n ih =>
    unfold PasteTaskHandle.updateLoop
    cases hfile : h.files[asUsize i]? with
    | none => exact hc
    | some file =>
      have hmem : file ∈ files := hc.list ▸ List.mem_of_getElem? hfile
      dsimp only
      cases file.kind with
      | file =>
        dsimp only
        split
        · exact ih (hc.createEmpty hs hmem) (i + 1)
        · refine openNewWriter ?_ hs
          exact { hc with }
      | directory =>
        refine ih (hc.makeDir hs (.inr ?_)) (i + 1)
        rw [hc.target]
        simpa using below_join hs.named (hs.names file hmem) (.inl rfl : Suffix "")
      | symlink => exact ih hc (i + 1)

theorem updateNext (size : ℕ) : Contained targetDir files (h.updateNext os size).1 := by
  unfold PasteTaskHandle.updateNext
  split
  · exact hc
  have hsize : Contained targetDir files { h with currentSize := h.currentSize + size } :=
    { hc with }
  dsimp only
  split
  · have hdone : Contained targetDir files
        (if h.listIndex = -1 then { h with currentSize := h.currentSize + size }
          else ({ h with currentSize := h.currentSize + size }).onDone os) := by
      split
      · exact hsize
      · exact hsize.onDone hs
    generalize (if h.listIndex = -1 then { h with currentSize := h.currentSize + size }
      else ({ h with currentSize := h.currentSize + size }).onDone os) = h' at hdone ⊢
    have hloop := hdone.updateLoop hs (asI32 h'.files.length - (h'.listIndex + 1)).toNat
      (h'.listIndex + 1)
    rcases hr : PasteTaskHandle.updateLoop os (asI32 h'.files.length - (h'.listIndex + 1)).toNat
      (h'.listIndex + 1) h' with ⟨h'', res⟩
    rw [hr] at hloop
    cases res with
    | error => exact hloop
    | ok => exact hloop.closeList
  · refine closeList ?_
    exact { hc with }

theorem handleFileContentsResponse (data : Bytes) :
    Contained targetDir files (h.handleFileContentsResponse os data).1 := by
  unfold PasteTaskHandle.handleFileContentsResponse
  split
  · have hw : Contained targetDir files (h.writeAll os data).1 := by
      unfold PasteTaskHandle.writeAll
      split
      · exact hc
      · exact hc.call nofun
    rcases hr : h.writeAll os data with ⟨h', ok⟩
    rw [hr] at hw
    cases ok with
    | true => exact hw.updateNext hs data.length
    | false => exact hw
  · exact hc

theorem begin : Contained targetDir files (h.begin os) := by
  have hnext := hc.updateNext hs 0
  unfold PasteTaskHandle.begin
  generalize (h.updateNext os 0).1 = h' at hnext ⊢
  dsimp only
  split
  · exact hnext.onFinished hs
  · split
    · exact hnext
    · exact hnext.onError _

end Contained

theorem contained_new (targetDir : String) (files : List FileDescription) :
    Contained targetDir files (PasteTaskHandle.new targetDir files) :=
  ⟨rfl, rfl, .inl rfl, nofun, nofun⟩

/-! ### Runs -/

/-- What the theorem asks of an input: the directory of the task is there, and
a list that starts one has safe names only. -/
def Admissible (utf16 : Bytes → Option (List Char)) (t : PasteTask) : PasteInput → Prop
  | .formatData os targetDir connId formatData => ∀ dir, targetDir = some dir →
      dir ≠ "" ∧ (∀ log, os log (.exists (components dir)) = true) ∧
        ∀ files, parseFileDescriptors utf16 connId formatData = .ok files →
          ∀ f ∈ files, SafeName f.name
  | .response os _ => ∀ h, t.handle = some h → ∀ log, os log (.exists (components h.targetDir)) = true
  | .timeout os _ => ∀ h, t.handle = some h → ∀ log, os log (.exists (components h.targetDir)) = true
  | .cancel _ => True

/-- The task, if there is one, is about safe names and what it did is below. -/
def PasteTask.Inv (t : PasteTask) : Prop :=
  ∀ h, t.handle = some h → h.targetDir ≠ "" ∧ (∀ f ∈ h.files, SafeName f.name) ∧
    Contained h.targetDir h.files h

namespace PasteTask

variable {t : PasteTask}

theorem inv_of_contained {n : ℕ} (hnamed : targetDir ≠ "") (hnames : ∀ f ∈ files, SafeName f.name)
    (hc : Contained targetDir files h) : Inv ⟨some h, n⟩ := by
  intro h' hh
  cases hh
  rw [hc.target, hc.list]
  exact ⟨hnamed, hnames, hc⟩

theorem inv_afterResponse {n : ℕ} (hs : Safe os targetDir files) (hc : Contained targetDir files h) :
    Inv (afterResponse os n h) := by
  unfold afterResponse
  split
  · exact inv_of_contained hs.named hs.names (hc.onFinished hs)
  · split
    · exact inv_of_contained hs.named hs.names hc
    · exact inv_of_contained hs.named hs.names (hc.onError _)

theorem inv_onResponse (hi : t.Inv) (r : FileContentsResponse)
    (hthere : ∀ h, t.handle = some h → ∀ log, os log (.exists (components h.targetDir)) = true) :
    (t.onResponse os r).Inv := by
  unfold onResponse
  cases hh : t.handle with
  | none => exact hi
  | some h =>
    obtain ⟨hnamed, hnames, hc⟩ := hi h hh
    have hs : Safe os h.targetDir h.files := ⟨hnamed, hthere h hh, hnames⟩
    dsimp only
    split
    · exact hi
    split
    · exact hi
    split
    · refine inv_afterResponse hs ?_
      split
      · exact hc.failed _
      · exact hc
    split
    · exact hi
    split
    · exact hi
    have hr := hc.handleFileContentsResponse hs r.requestedData
    rcases hx : h.handleFileContentsResponse os r.requestedData with ⟨h', res⟩
    rw [hx] at hr
    cases res with
    | ok => exact inv_afterResponse hs hr
    | error err => exact inv_afterResponse hs (hr.onError err)

theorem inv_onTimeout (hi : t.Inv) (late : Bool)
    (hthere : ∀ h, t.handle = some h → ∀ log, os log (.exists (components h.targetDir)) = true) :
    (t.onTimeout os late).Inv := by
  unfold onTimeout
  cases hh : t.handle with
  | none => exact hi
  | some h =>
    obtain ⟨hnamed, hnames, hc⟩ := hi h hh
    have hs : Safe os h.targetDir h.files := ⟨hnamed, hthere h hh, hnames⟩
    dsimp only
    split
    · exact inv_of_contained hnamed hnames ((hc.failed _).onFinished hs)
    · exact hi

theorem inv_cancel (hi : t.Inv) : (t.cancel os).Inv := by
  unfold cancel
  cases hh : t.handle with
  | none => exact hi
  | some h =>
    obtain ⟨hnamed, hnames, hc⟩ := hi h hh
    have hcan : Contained h.targetDir h.files { h with isCanceled := true } :=
      ⟨rfl, rfl, hc.path, hc.opened, hc.log⟩
    exact inv_of_contained hnamed hnames hcan.onCancelled

theorem inv_formatData {utf16 : Bytes → Option (List Char)} {connId : ℤ} {formatData : Bytes}
    {targetDir : Option String} (hi : t.Inv)
    (ha : ∀ dir, targetDir = some dir → dir ≠ "" ∧
      (∀ log, os log (.exists (components dir)) = true) ∧
        ∀ files, parseFileDescriptors utf16 connId formatData = .ok files →
          ∀ f ∈ files, SafeName f.name) :
    (t.handleFormatDataResponse utf16 os targetDir connId formatData).1.Inv := by
  unfold handleFormatDataResponse
  cases targetDir with
  | none => exact hi
  | some dir =>
    obtain ⟨hnamed, hthere, hnames⟩ := ha dir rfl
    dsimp only
    rw [if_pos (hthere [])]
    cases hp : parseFileDescriptors utf16 connId formatData with
    | error => exact hi
    | ok files =>
      have hs : Safe os dir files := ⟨hnamed, hthere, hnames files hp⟩
      dsimp only
      unfold start
      split
      · exact hi
      · exact inv_of_contained hnamed hs.names ((contained_new dir files).begin hs)

theorem inv_step {utf16 : Bytes → Option (List Char)} (hi : t.Inv) (i : PasteInput)
    (ha : Admissible utf16 t i) : (t.step utf16 i).Inv := by
  cases i with
  | formatData => exact inv_formatData hi ha
  | response os r => exact inv_onResponse hi r ha
  | timeout os late => exact inv_onTimeout hi late ha
  | cancel => exact inv_cancel hi

end PasteTask

/-- **With safe names a paste stays in its directory.** In every run whose
lists have only relative names with a component and without a `..` part, and
whose directories are there, every path a task creates, opens for writing,
renames or removes is properly below its target directory, by names only. -/
theorem paste_contained (utf16 : Bytes → Option (List Char)) (is : List PasteInput)
    (hm : Run.Meets (PasteTask.step utf16) (Admissible utf16) .init is) {h : PasteTaskHandle}
    (hh : (Run.run (PasteTask.step utf16) .init is).handle = some h) :
    ∀ c ∈ h.log, ∀ k ∈ c.reaches, Below h.targetDir k := by
  have hinit : PasteTask.init.Inv := nofun
  have hinv : (Run.run (PasteTask.step utf16) .init is).Inv :=
    Run.inv_run_of_meets (fun t i _ hi ha => PasteTask.inv_step hi i ha) hinit hm
  exact (hinv h hh).2.2.log

def offer (name : String) (size : ℕ) : Bytes :=
  let units := name.toList.flatMap fun c => leBytes 2 c.toNat
  leBytes 4 1 ++ leBytes 4 0x04 ++ List.replicate 32 0 ++ leBytes 4 0x80 ++ List.replicate 12 0 ++
    leBytes 4 0 ++ leBytes 8 0 ++ leBytes 4 0 ++ leBytes 4 size ++ units ++
    List.replicate (520 - units.length) 0

/-- A system with an empty directory that lets the task do what it asks. -/
def desktop : Os
  | _, .exists path =>
    decide (path ∈ [components "/Users/me/Desktop", components "/Users/me/Desktop/.."])
  | _, _ => true

def pasteRun (name : String) : List PasteInput :=
  [.formatData desktop (some "/Users/me/Desktop") 7 (offer name 3),
    .response desktop ⟨7, 1, 0, [1, 2, 3]⟩]

def pasted (name : String) : Option PasteTaskHandle :=
  (Run.run (PasteTask.step decodeUtf16le) .init (pasteRun name)).handle

theorem paste_contained_plain : ∃ h, pasted "sub\\a.txt" = some h ∧
    .rename (components "/Users/me/Desktop/sub/a.txt.rddownload")
      (components "/Users/me/Desktop/sub/a.txt") ∈ h.log ∧
    ∀ c ∈ h.log, ∀ k ∈ c.reaches, Below h.targetDir k := by
  have hparse : parseFileDescriptors decodeUtf16le 7 (offer "sub\\a.txt" 3) =
      .ok [⟨7, "sub/a.txt", .file, 0, 3, 0o755⟩] := by decide +kernel
  have hsafe : SafeName "sub/a.txt" := ⟨by decide +kernel, by decide +kernel, by decide +kernel⟩
  have hthere : ∀ log, desktop log (.exists (components "/Users/me/Desktop")) = true := fun _ =>
    rfl
  have hfirst : ((PasteTask.init.step decodeUtf16le (.formatData desktop
      (some "/Users/me/Desktop") 7 (offer "sub\\a.txt" 3))).handle.map (·.targetDir)) =
      some "/Users/me/Desktop" := by decide +kernel
  have hdone : (pasted "sub\\a.txt").map (fun h => decide
      (.rename (components "/Users/me/Desktop/sub/a.txt.rddownload")
        (components "/Users/me/Desktop/sub/a.txt") ∈ h.log)) = some true := by decide +kernel
  obtain ⟨h, hh, hlog⟩ := Option.map_eq_some_iff.1 hdone
  refine ⟨h, hh, of_decide_eq_true hlog, paste_contained decodeUtf16le (pasteRun "sub\\a.txt") ?_ hh⟩
  refine ⟨?_, ?_, trivial⟩
  · intro dir hdir
    cases hdir
    refine ⟨by decide, hthere, fun files hf f hmem => ?_⟩
    rw [hparse] at hf
    obtain rfl := Except.ok.inj hf
    rwa [List.mem_singleton.1 hmem]
  · intro h' hh' log
    rw [hh'] at hfirst
    have htarget : h'.targetDir = "/Users/me/Desktop" := Option.some.inj hfirst
    rw [htarget]
    exact hthere log

/-- A name with a way up is created beside the directory. -/
theorem paste_escapes : ∃ h, pasted "..\\evil" = some h ∧
    .create (components "/Users/me/Desktop/../evil.rddownload") ∈ h.log ∧
    ¬Below h.targetDir (components "/Users/me/Desktop/../evil.rddownload") := by
  have hdone : (pasted "..\\evil").map (fun h => decide (h.targetDir = "/Users/me/Desktop" ∧
      .create (components "/Users/me/Desktop/../evil.rddownload") ∈ h.log)) = some true := by
    decide +kernel
  obtain ⟨h, hh, hlog⟩ := Option.map_eq_some_iff.1 hdone
  obtain ⟨htarget, hmem⟩ := of_decide_eq_true hlog
  refine ⟨h, hh, hmem, ?_⟩
  rw [htarget]
  rintro ⟨segs, -, hk⟩
  have hpath : components "/Users/me/Desktop/../evil.rddownload" =
      components "/Users/me/Desktop" ++ [.parentDir, .normal "evil.rddownload"] := by decide +kernel
  rw [hpath] at hk
  -- the first component behind the directory is no name
  rcases segs with _ | ⟨seg, segs⟩ <;> cases List.append_cancel_left hk

end CodeDesk.Clipboard
