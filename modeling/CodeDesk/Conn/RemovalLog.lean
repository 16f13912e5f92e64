/-
# The log of removals

`FileRemoveLogControl` of `src/server/connection.rs` keeps the removals of a
connection until none has come for a second, and then reports them. When a
directory is removed, what was in it is to be forgotten, so that a deleted
tree shows as one line. For directories this is so. The test for files has its
arguments the wrong way round: it forgets a file whose path is the parent of
the directory (`onRemoveDir`), and the files of the directory stay
(`file_stays`). A tree removed from the bottom up (`BottomUp`) is thus reported
as its top and all of its files (`removals_reported`).
-/
import Mathlib.Data.Int.Notation
import CodeDesk.Run
import CodeDesk.Fs.Path

namespace CodeDesk.Conn

open Fs

structure FileRemoveFile where
  id : ℤ
  path : String
  fileNum : ℤ
  deriving DecidableEq, Repr

structure FileRemoveDir where
  id : ℤ
  path : String
  recursive : Bool
  deriving DecidableEq, Repr

/-- The text of a `FileTransferLog` for `"remove"`. -/
structure FileActionLog where
  id : ℤ
  connId : ℤ
  path : String
  dir : Bool
  deriving DecidableEq, Repr

/-- Times are in milliseconds. -/
structure FileRemoveLogControl where
  connId : ℤ
  instant : ℕ
  removedFiles : List FileRemoveFile := []
  removedDirs : List FileRemoveDir := []
  deriving DecidableEq, Repr

def directChild (parent child : String) : Bool :=
  Fs.parent (components child) == some (components parent)

theorem directChild_length {p q : String} (h : directChild p q = true) :
    (components q).length = (components p).length + 1 := by
  have hparent : Fs.parent (components q) = some (components p) := by simpa [directChild] using h
  unfold Fs.parent at hparent
  split at hparent
  · cases hparent
  · cases hparent
  · rename_i hlast
    obtain ⟨r, hr⟩ := List.getLast?_eq_some_iff.1 hlast
    rw [hr, Option.some.injEq, List.dropLast_concat] at hparent
    rw [hr, ← hparent, List.length_append, List.length_singleton]

theorem directChild_asymm {p q : String} (h : directChild p q = true) : directChild q p = false := by
  by_contra hqp
  rw [Bool.not_eq_false] at hqp
  have hlen := directChild_length h
  have hlen' := directChild_length hqp
  omega

theorem directChild_self (p : String) : directChild p p = false := by
  by_contra h
  rw [Bool.not_eq_false] at h
  have hasymm := directChild_asymm h
  simp [h] at hasymm

namespace FileRemoveLogControl

variable (c : FileRemoveLogControl)

def fileLog (f : FileRemoveFile) : FileActionLog := ⟨f.id, c.connId, f.path, false⟩

def dirLog (d : FileRemoveDir) : FileActionLog := ⟨d.id, c.connId, d.path, true⟩

/-- The log that the call returns is not used by its callers. -/
def onRemoveFile (now : ℕ) (f : FileRemoveFile) : FileRemoveLogControl :=
  { c with instant := now, removedFiles := c.removedFiles ++ [f] }

def onRemoveDir (now : ℕ) (d : FileRemoveDir) : FileRemoveLogControl :=
  let removedFiles := c.removedFiles.filter fun f => !directChild f.path d.path
  let removedDirs := c.removedDirs.filter fun x => !directChild d.path x.path
  { c with
    instant := now
    removedFiles := removedFiles
    removedDirs :=
      if removedDirs.any fun x => directChild x.path d.path then removedDirs
      else removedDirs ++ [d] }

def onTimer (now : ℕ) : FileRemoveLogControl × List FileActionLog :=
  if (now - c.instant) / 1000 < 1 then (c, [])
  else
    ({ c with removedFiles := [], removedDirs := [] },
      c.removedFiles.map c.fileLog ++ c.removedDirs.map c.dirLog)

inductive Call where
  | file (now : ℕ) (f : FileRemoveFile)
  | dir (now : ℕ) (d : FileRemoveDir)
  deriving DecidableEq, Repr

def Call.path : Call → String
  | .file _ f => f.path
  | .dir _ d => d.path

def call (c : FileRemoveLogControl) : Call → FileRemoveLogControl
  | .file now f => c.onRemoveFile now f
  | .dir now d => c.onRemoveDir now d

/-! ### One call -/

variable {c} {xs : List Call} {now : ℕ}

theorem dirs_onRemoveDir (now : ℕ) (d : FileRemoveDir) :
    ∀ x ∈ (c.onRemoveDir now d).removedDirs, directChild d.path x.path = false := by
  intro x hx
  have hcases : x ∈ (c.removedDirs.filter fun x => !directChild d.path x.path) ++ [d] := by
    simp only [onRemoveDir] at hx
    split at hx
    · exact List.mem_append_left _ hx
    · exact hx
  rcases List.mem_append.1 hcases with hx | hx
  · simpa using (List.mem_filter.1 hx).2
  · rw [List.mem_singleton.1 hx]
    exact directChild_self d.path

/-! ### A tree from the bottom up -/

def files (xs : List Call) : List FileRemoveFile :=
  xs.filterMap fun | .file _ f => some f | .dir .. => none

def dirs (xs : List Call) : List FileRemoveDir :=
  xs.filterMap fun | .file .. => none | .dir _ d => some d

theorem exists_call_of_mem_files {f : FileRemoveFile} (h : f ∈ files xs) :
    ∃ x ∈ xs, x.path = f.path := by
  obtain ⟨x, hx, hf⟩ := List.mem_filterMap.1 h
  cases x with
  | file => exact ⟨_, hx, congrArg FileRemoveFile.path (Option.some.inj hf)⟩
  | dir => cases hf

theorem exists_call_of_mem_dirs {d : FileRemoveDir} (h : d ∈ dirs xs) :
    ∃ x ∈ xs, x.path = d.path := by
  obtain ⟨x, hx, hd⟩ := List.mem_filterMap.1 h
  cases x with
  | file => cases hd
  | dir => exact ⟨_, hx, congrArg FileRemoveDir.path (Option.some.inj hd)⟩

/-- The calls and then the removal of `top` remove a tree from the bottom up: no directory goes
before what is directly in it, and all but the top is directly in a directory that is removed. -/
structure BottomUp (xs : List Call) (now : ℕ) (top : FileRemoveDir) : Prop where
  order : List.Pairwise (fun x y : Call => directChild x.path y.path = false) (xs ++ [.dir now top])
  parent : ∀ x ∈ xs, ∃ d ∈ dirs xs ++ [top], directChild d.path x.path = true

/-- The directories removed whose parents are not. -/
def topmost (xs : List Call) : List FileRemoveDir :=
  (dirs xs).filter fun d => !(dirs xs).any fun x => directChild x.path d.path

theorem topmost_append {d : FileRemoveDir} (h : ∀ y ∈ xs, directChild y.path d.path = false) :
    topmost (xs ++ [.dir now d]) =
      ((topmost xs).filter fun x => !directChild d.path x.path) ++ [d] := by
  have hdirs : dirs (xs ++ [.dir now d]) = dirs xs ++ [d] := by simp [dirs]
  have hd : ((dirs xs ++ [d]).any fun x => directChild x.path d.path) = false := by
    rw [List.any_eq_false]
    intro x hx
    rcases List.mem_append.1 hx with hx | hx
    · obtain ⟨y, hy, hpath⟩ := exists_call_of_mem_dirs hx
      rw [← hpath, h y hy]
      exact Bool.false_ne_true
    · rw [List.mem_singleton.1 hx, directChild_self]
      exact Bool.false_ne_true
  unfold topmost
  rw [hdirs, List.filter_append, List.filter_filter, List.filter_singleton, hd]
  refine congrArg₂ _ (List.filter_congr fun x _ => ?_) rfl
  simp [Bool.and_comm]

/-- What the log has after the calls: every file, and of the directories those on top. -/
structure Holds (xs : List Call) (c : FileRemoveLogControl) : Prop where
  files : c.removedFiles = files xs
  dirs : c.removedDirs = topmost xs

/-- One more removal, of something that is in nothing that is removed already. -/
theorem Holds.call (h : Holds xs c) {x : Call} (hx : ∀ y ∈ xs, directChild y.path x.path = false) :
    Holds (xs ++ [x]) (c.call x) := by
  cases x with
  | file =>
    constructor
    · simp [FileRemoveLogControl.call, onRemoveFile, h.files, FileRemoveLogControl.files]
    · simp [FileRemoveLogControl.call, onRemoveFile, h.dirs, topmost, FileRemoveLogControl.dirs]
  | dir now d =>
    have hfiles : c.removedFiles.filter (fun f => !directChild f.path d.path) = c.removedFiles := by
      refine List.filter_eq_self.2 fun f hf => ?_
      obtain ⟨y, hy, hpath⟩ := exists_call_of_mem_files (h.files ▸ hf)
      rw [← hpath, show directChild y.path d.path = false from hx y hy]
      rfl
    have hany : ((c.removedDirs.filter fun x => !directChild d.path x.path).any
        fun x => directChild x.path d.path) = false := by
      rw [List.any_eq_false]
      intro x hmem
      have hx' : x ∈ topmost xs := h.dirs ▸ (List.mem_filter.1 hmem).1
      obtain ⟨y, hy, hpath⟩ := exists_call_of_mem_dirs (List.mem_filter.1 hx').1
      rw [← hpath, show directChild y.path d.path = false from hx y hy]
      exact Bool.false_ne_true
    constructor
    · show c.removedFiles.filter (fun f => !directChild f.path d.path) = _
      rw [hfiles, h.files]
      simp [FileRemoveLogControl.files]
    · have hdirs : (c.onRemoveDir now d).removedDirs =
          (c.removedDirs.filter fun x => !directChild d.path x.path) ++ [d] := by
        simp [onRemoveDir, hany]
      rw [FileRemoveLogControl.call, hdirs, h.dirs, topmost_append hx]

theorem holds_run (hxs : xs.Pairwise fun x y => directChild x.path y.path = false) (connId : ℤ)
    (instant : ℕ) : Holds xs (Run.run call ⟨connId, instant, [], []⟩ xs) := by
  induction xs using List.reverseRecOn with
  | nil => exact ⟨rfl, rfl⟩
  | append_singleton xs x ih =>
    obtain ⟨hxs, -, hx⟩ := List.pairwise_append.1 hxs
    rw [Run.run_append]
    exact (ih hxs).call fun y hy => hx y hy x (List.mem_singleton_self x)

theorem topmost_of_bottomUp {top : FileRemoveDir} (h : BottomUp xs now top) :
    topmost (xs ++ [.dir now top]) = [top] := by
  obtain ⟨-, -, hlast⟩ := List.pairwise_append.1 h.order
  have habove : ∀ y ∈ xs, directChild y.path top.path = false := fun y hy =>
    hlast y hy (.dir now top) (List.mem_singleton_self _)
  rw [topmost_append habove, List.append_left_eq_self, List.filter_eq_nil_iff]
  intro x hx
  obtain ⟨hmem, hno⟩ := List.mem_filter.1 hx
  obtain ⟨y, hy, hpath⟩ := exists_call_of_mem_dirs hmem
  obtain ⟨d, hd, hchild⟩ := h.parent y hy
  rw [hpath] at hchild
  rcases List.mem_append.1 hd with hd | hd
  · have hany : ((dirs xs).any fun x' => directChild x'.path x.path) = true :=
      List.any_eq_true.2 ⟨d, hd, hchild⟩
    simp [hany] at hno
  · rw [List.mem_singleton.1 hd] at hchild
    simp [hchild]

/-- After `on_remove_dir(d)` no directory that is directly in `d` is in the log, and no such file if
and only if there was none before. A tree removed from the bottom up is reported as its files and
its top, and as its top alone if and only if it has only directories. -/
theorem removals_reported (c : FileRemoveLogControl) (d : FileRemoveDir) (xs : List Call)
    (top : FileRemoveDir) (connId : ℤ) (instant last now : ℕ) :
    (∀ x ∈ (c.onRemoveDir now d).removedDirs, directChild d.path x.path = false) ∧
    ((∀ f ∈ (c.onRemoveDir now d).removedFiles, directChild d.path f.path = false) ↔
      ∀ f ∈ c.removedFiles, directChild d.path f.path = false) ∧
    (BottomUp xs last top → let c := Run.run call ⟨connId, instant, [], []⟩ (xs ++ [.dir last top])
      1000 ≤ now - c.instant →
      (c.onTimer now).2 = (files xs).map c.fileLog ++ [c.dirLog top] ∧
        ((c.onTimer now).2 = [c.dirLog top] ↔ ∀ x ∈ xs, ∃ t d, x = .dir t d)) := by
  refine ⟨dirs_onRemoveDir now d, ⟨fun h f hf => ?_, fun h f hf => ?_⟩, ?_⟩
  · by_contra hchild
    rw [Bool.not_eq_false] at hchild
    have hf' : f ∈ (c.onRemoveDir now d).removedFiles := by
      simpa [onRemoveDir, directChild_asymm hchild] using hf
    simp [h f hf'] at hchild
  · exact h f (List.mem_filter.1 hf).1
  · intro hxs c hnow
    have hc : Holds (xs ++ [.dir last top]) c := holds_run hxs.order connId instant
    have hfiles : files (xs ++ [.dir last top]) = files xs := by simp [files]
    have hlog : (c.onTimer now).2 = (files xs).map c.fileLog ++ [c.dirLog top] := by
      rw [onTimer, if_neg (by omega), hc.files, hc.dirs, hfiles, topmost_of_bottomUp hxs]
      rfl
    refine ⟨hlog, ?_⟩
    rw [hlog, List.append_left_eq_self, List.map_eq_nil_iff, files, List.filterMap_eq_nil_iff]
    refine forall₂_congr fun x _ => ?_
    cases x <;> simp

/-- The file is directly in the directory that is removed. -/
theorem file_stays : let xs : List Call := [.file 0 ⟨1, "/a/f", 0⟩]
    let c := Run.run call ⟨7, 0, [], []⟩ (xs ++ [.dir 0 ⟨1, "/a", true⟩])
    BottomUp xs 0 ⟨1, "/a", true⟩ ∧ (∃ f ∈ c.removedFiles, directChild "/a" f.path = true) ∧
      (c.onTimer 1000).2 = [⟨1, 7, "/a/f", false⟩, ⟨1, 7, "/a", true⟩] := by
  refine ⟨⟨by decide +kernel, by decide +kernel⟩, by decide +kernel⟩

end FileRemoveLogControl
end CodeDesk.Conn
