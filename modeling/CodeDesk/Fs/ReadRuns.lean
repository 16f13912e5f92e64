/-
# Runs of the read jobs of a connection

From what a tick and a confirm do to the jobs (`Fs/Completion.lean`) to every
run: over any sequence of ticks and confirms whose ticks meet `tickOk`, a
`FileTransferDone` goes out, and a job is removed, only after every listed
file from the job's start on has ended and its end was reported. Without
`tickOk` one file that cannot be opened is enough to lose all that follow it.
-/
import CodeDesk.Fs.Completion

namespace CodeDesk.Fs

open TransferJob

variable {σ : Type} {compress : Bytes → Bytes} {os : Os σ}
  {send : Send} {js js' : List (TransferJob σ)}
  {sent : List FileResponse} {confirms : List SendConfirmRequest}

/-! ### One tick -/

/-- Each job of `js'` does the task of a job of `js`. -/
def Origin (js js' : List (TransferJob σ)) : Prop := ∀ j ∈ js', ∃ j₀ ∈ js, j.task = j₀.task

theorem origin_of_forall₂ (h : List.Forall₂ (fun j j' : TransferJob σ => j'.task = j.task) js js') :
    Origin js js' := by
  induction h with
  | nil => simp [Origin]
  | @cons j j' js js' ht _ ih =>
    refine List.forall_mem_cons.mpr ⟨⟨j, List.mem_cons_self, ht⟩, fun i hi => ?_⟩
    obtain ⟨i₀, hi₀, h⟩ := ih i hi
    exact ⟨i₀, List.mem_cons_of_mem _ hi₀, h⟩

variable {js'' pre post : List (TransferJob σ)} {j j' j'' : TransferJob σ}
  {P : TransferJob σ → Prop} {r : SendConfirmRequest} {s : Sys σ}

theorem Origin.trans (h : Origin js js') (h' : Origin js' js'') : Origin js js'' := by
  intro j hj
  obtain ⟨j₁, h₁, ht⟩ := h' j hj
  obtain ⟨j₀, h₀, ht₀⟩ := h j₁ h₁
  exact ⟨j₀, h₀, ht.trans ht₀⟩

theorem Origin.of_subset (h : js' ⊆ js) : Origin js js' := fun j hj => ⟨j, h hj, rfl⟩

theorem Origin.append (h : Origin js js') (h' : Origin js js'') : Origin js (js' ++ js'') := by
  exact List.forall_mem_append.mpr ⟨h, h'⟩

/-- What a tick on `js` keeps, after `sent` and `confirms`. -/
structure TickSound (sent : List FileResponse) (confirms : List SendConfirmRequest)
    (js : List (TransferJob σ)) (t : Tick σ) : Prop where
  origin : Origin js (t.jobs ++ t.removed.toList)
  sound : t.res.isOk = true → ∀ j ∈ t.jobs, Sound (sent ++ t.sent) confirms j
  removed : ∀ j ∈ t.removed, Sound (sent ++ t.sent) confirms j ∧
    (Watched j → j.numFiles ≤ asUsize j.fileNum)
  done : ∀ id n, FileResponse.done id n ∈ t.sent →
    ∃ j, t.removed = some j ∧ j.id = id ∧ j.fileNum = n

/-- The job taken out by `remove_job` is the served one, not a stored job
with its id. -/
theorem getJob_served (hrel : List.Forall₂ (InitRel os send) js (pre ++ j' :: post))
    (hpre : ∀ p ∈ pre, p.isLastJob = true) (hs : servedJob js = some j) (hj : j'.task = j.task)
    (hj' : j''.task = j'.task) (hok : tickOk os send js = true) :
    getJob j''.id (pre ++ j'' :: post) = some j'' := by
  have hid : j''.id = j.id := (id_eq_of_task hj').trans (id_eq_of_task hj)
  cases hp : pre.find? (·.id == j''.id) with
  | none => simp [getJob, List.find?_append, hp]
  | some p =>
    have hget : getJob j.id (pre ++ j' :: post) = some p := by
      rw [← hid, getJob, List.find?_append, hp, Option.some_or]
    obtain ⟨p₀, hp₀, ht⟩ := getJob_task (hrel.imp fun _ _ h => InitRel.task h) hget
    have hlast : p₀.isLastJob = true := by
      rw [← isLastJob_eq_of_task ht]
      exact hpre p (List.mem_of_find?_eq_some hp)
    simp [tickOk, hs, hp₀, hlast] at hok

theorem served_sound {out : List FileResponse} {fin : Option ℤ} {log : Option (JobLog σ)}
    (hs : ∀ i ∈ pre ++ j' :: post, Sound sent confirms i)
    (hrel : List.Forall₂ (InitRel os send) js (pre ++ j' :: post))
    (hpre : ∀ p ∈ pre, p.isLastJob = true) (hsv : servedJob js = some j)
    (hlast : j.isLastJob = false) (hj : InitRel os send j j')
    (hserve : serve compress os send j' = (j'', out, fin, log, .ok ()))
    (hok : tickOk os send js = true) :
    (∀ i ∈ pre ++ j'' :: post, Sound (sent ++ out) confirms i) ∧
      (fin = none → ∀ id n, FileResponse.done id n ∉ out) ∧
      ∀ jid, fin = some jid → getJob jid (pre ++ j'' :: post) = some j'' ∧
        (Watched j'' → j''.numFiles ≤ asUsize j''.fileNum) ∧
        ∀ id n, FileResponse.done id n ∈ out → j''.id = id ∧ j''.fileNum = n := by
  refine ⟨fun i hi => ?_, fun hf id n h => ?_, fun jid hf => ?_⟩
  · by_cases he : i = j''
    · exact he ▸ serve_sound (hs j' (by simp)) hserve
    · refine (hs i ?_).append _
      simp only [List.mem_append, List.mem_cons, he, false_or] at hi ⊢
      tauto
  · subst hf
    cases serve_ok hserve <;> simp at h
  · subst hf
    cases serve_ok hserve with
    | finished m hread hc hm =>
      refine ⟨getJob_served hrel hpre hsv hj.task (serve_task hserve) hok, fun hw => ?_, ?_⟩
      · refine complete_of_finished hw hj hlast (fun hw₀ => ?_) hread hc
        simp only [tickOk, hsv, hw₀, decide_true, Bool.not_true, Bool.false_or,
          Bool.and_eq_true] at hok
        exact hok.2
      · intro id n h
        obtain ⟨h1, h2⟩ := hm id n (List.mem_singleton.mp h).symm
        exact ⟨h1.symm, h2.symm⟩

theorem handleReadJobs_sound (compress : Bytes → Bytes)
    (hs : ∀ j ∈ js, Sound sent confirms j) (hok : tickOk os send js = true) :
    TickSound sent confirms js (handleReadJobs compress os send js) := by
  have horigin : Origin js (initJobs os send js).1 := origin_of_forall₂ (initJobs_task os send js)
  have hnd := fun id n => initJobs_no_done os send id n js
  unfold handleReadJobs
  rcases hi : initJobs os send js with ⟨js₁, out, res⟩
  rw [hi] at horigin hnd
  cases res with
  | error =>
    exact ⟨by simpa using horigin, by simp [Except.isOk, Except.toBool], by simp,
      fun id n h => absurd h (hnd id n)⟩
  | ok u =>
    have hsound := initJobs_sound hs hi
    have hrel := initJobs_rel hi
    rcases readFirst_rel compress hrel with
      ⟨-, hr⟩ | ⟨pre, j, j', post, rfl, hpre, hsv, hlast, hj, j'', out', fin, log, res, hserve, hr⟩
    · simp only [hr]
      refine ⟨by simpa using horigin, fun _ => by simpa using hsound, by simp, fun id n h => ?_⟩
      exact absurd (by simpa using h) (hnd id n)
    have hor : Origin js (pre ++ j'' :: post) := by
      refine horigin.trans fun i hi => ?_
      rcases List.mem_append.mp hi with hi | hi
      · exact ⟨i, List.mem_append_left _ hi, rfl⟩
      rcases List.mem_cons.mp hi with rfl | hi
      · exact ⟨j', by simp, serve_task hserve⟩
      · exact ⟨i, by simp [hi], rfl⟩
    simp only [hr]
    cases res with
    | error =>
      obtain rfl := serve_error hserve
      refine ⟨by simpa using hor, by simp [Except.isOk, Except.toBool], by simp, fun id n h => ?_⟩
      exact absurd (by simpa using h) (hnd id n)
    | ok =>
      obtain ⟨hall, hnone, hsome⟩ := served_sound hsound hrel hpre hsv hlast hj hserve hok
      rw [List.append_assoc] at hall
      cases fin with
      | none =>
        refine ⟨by simpa using hor, fun _ => hall, by simp, fun id n h => ?_⟩
        rcases List.mem_append.mp h with h | h
        · exact absurd h (hnd id n)
        · exact absurd h (hnone rfl id n)
      | some jid =>
        obtain ⟨hget, hcomplete, hdone⟩ := hsome jid rfl
        refine ⟨?_, fun _ i hi => hall i (List.mem_of_mem_eraseP hi), ?_, fun id n h => ?_⟩
        · refine Origin.append (hor.trans (.of_subset List.eraseP_subset)) (hor.trans ?_)
          exact .of_subset (by simp [hget])
        · intro i hi
          obtain rfl : j'' = i := by simpa [hget] using hi
          exact ⟨hall _ (by simp), hcomplete⟩
        · rcases List.mem_append.mp h with h | h
          · exact absurd h (hnd id n)
          · exact ⟨j'', hget, hdone id n h⟩

/-! ### The other inputs -/

/-- `j` is the job `j₀` as it was added, apart from its progress. -/
structure SameJob (j₀ j : TransferJob σ) : Prop where
  id : j.id = j₀.id
  type : j.type = j₀.type
  isFilePath : j.isFilePath = j₀.isFilePath
  files : j.files = j₀.files
  enableOverwriteDetection : j.enableOverwriteDetection = j₀.enableOverwriteDetection
  start : j.log.start = j₀.fileNum

theorem SameJob.of_task {j₀ : TransferJob σ} (h : SameJob j₀ j) (ht : j'.task = j.task) :
    SameJob j₀ j' where
  id := (id_eq_of_task ht).trans h.id
  type := (congrArg Task.type ht).trans h.type
  isFilePath := (congrArg Task.isFilePath ht).trans h.isFilePath
  files := (files_eq_of_task ht).trans h.files
  enableOverwriteDetection :=
    (congrArg Task.enableOverwriteDetection ht).trans h.enableOverwriteDetection
  start := (start_eq_of_task ht).trans h.start

theorem resumeJobs_forall {jid : ℤ}
    (hP : ∀ j, P j → ∀ fin, P { j with isLastJob := false, isResume := true, finishedSize := fin }) :
    ∀ {js : List (TransferJob σ)}, (∀ j ∈ js, P j) → ∀ j ∈ resumeJobs jid js, P j
  | [], _ => by simp [resumeJobs]
  | j :: js, hs => by
    obtain ⟨hj, hs'⟩ := List.forall_mem_cons.mp hs
    unfold resumeJobs
    split
    · split
      · refine List.forall_mem_cons.mpr ⟨?_, hs'⟩
        unfold setFinishedSizeOnResume
        split
        · exact hP j hj _
        · exact hP j hj j.finishedSize
      · exact hs
    · exact List.forall_mem_cons.mpr ⟨hj, resumeJobs_forall hP hs'⟩

/-! ### Runs -/

/-- Every tick meets `tickOk`; nothing is asked of the other inputs. -/
def Sys.InputOk (s : Sys σ) : Input σ → Prop
  | .tick os send => s.closed = true ∨ tickOk os send s.jobs = true
  | _ => True

instance (s : Sys σ) (i : Input σ) : Decidable (s.InputOk i) := by
  cases i <;> unfold Sys.InputOk <;> infer_instance

structure Sys.Inv (s : Sys σ) : Prop where
  origin : ∀ j ∈ s.jobs ++ s.removed, ∃ j₀ ∈ s.added, SameJob j₀ j
  sound : s.closed = false → ∀ j ∈ s.jobs, Sound s.sent s.confirms j
  removed : ∀ j ∈ s.removed, Sound s.sent s.confirms j ∧
    (Watched j → j.numFiles ≤ asUsize j.fileNum)
  done : ∀ id n, FileResponse.done id n ∈ s.sent → ∃ j ∈ s.removed, j.id = id ∧ j.fileNum = n

theorem Sys.inv_start : Sys.Inv (Sys.start : Sys σ) := by
  constructor <;> simp [Sys.start]

theorem Sys.inv_tick (hI : s.Inv) (hc : s.closed = false)
    (hok : tickOk os send s.jobs = true) : Sys.Inv (s.step compress (.tick os send)) := by
  have ht := handleReadJobs_sound compress (hI.sound hc) hok
  simp only [Sys.step, hc, Bool.false_eq_true, ↓reduceIte]
  set t := handleReadJobs compress os send s.jobs
  refine ⟨fun j hj => ?_, fun h => ?_, fun j hj => ?_, fun id n h => ?_⟩
  · have hj : j ∈ s.removed ∨ j ∈ t.jobs ++ t.removed.toList := by
      simp only [List.mem_append] at hj ⊢
      tauto
    rcases hj with hj | hj
    · exact hI.origin j (List.mem_append_right _ hj)
    · obtain ⟨j₁, h₁, hj₁⟩ := ht.origin j hj
      obtain ⟨j₀, h₀, hs⟩ := hI.origin j₁ (List.mem_append_left _ h₁)
      exact ⟨j₀, h₀, hs.of_task hj₁⟩
  · exact ht.sound (by simpa using h)
  · rcases List.mem_append.mp hj with hj | hj
    · refine ⟨(hI.removed j hj).1.append _, ?_⟩
      exact (hI.removed j hj).2
    · exact ht.removed j (by simpa using hj)
  · rcases List.mem_append.mp h with h | h
    · obtain ⟨j, hj, hid⟩ := hI.done id n h
      exact ⟨j, List.mem_append_left _ hj, hid⟩
    · obtain ⟨j, hj, hid⟩ := ht.done id n h
      exact ⟨j, List.mem_append_right _ (by simp [hj]), hid⟩

theorem Sys.inv_add (hI : s.Inv) (hends : j.log.ends = []) (hstart : j.log.start = j.fileNum) :
    Sys.Inv { s with jobs := s.jobs ++ [j], added := s.added ++ [j] } := by
  refine ⟨fun i hi => ?_, fun hc i hi => ?_, hI.removed, hI.done⟩
  · have hi : i ∈ s.jobs ++ s.removed ∨ i = j := by
      simp only [List.mem_append, List.mem_singleton] at hi ⊢
      tauto
    rcases hi with hi | rfl
    · obtain ⟨j₀, h₀, hs⟩ := hI.origin i hi
      exact ⟨j₀, List.mem_append_left _ h₀, hs⟩
    · exact ⟨i, by simp, rfl, rfl, rfl, rfl, rfl, hstart⟩
  · rcases List.mem_append.mp hi with hi | hi
    · exact hI.sound hc i hi
    · obtain rfl := List.mem_singleton.mp hi
      -- nothing lies between the start and the current number of a new job
      exact ⟨fun k _ hs hn => by rw [hstart] at hs; omega, by simp [hends]⟩

theorem Sys.inv_resume (hI : s.Inv) (jid : ℤ) :
    Sys.Inv { s with jobs := resumeJobs jid s.jobs } := by
  refine ⟨fun j hj => ?_, fun hc => ?_, hI.removed, hI.done⟩
  · rcases List.mem_append.mp hj with hj | hj
    · refine resumeJobs_forall (P := fun j => ∃ j₀ ∈ s.added, SameJob j₀ j) ?_
        (fun j hj => hI.origin j (List.mem_append_left _ hj)) j hj
      rintro j ⟨j₀, h₀, hs⟩ fin
      exact ⟨j₀, h₀, hs.id, hs.type, hs.isFilePath, hs.files, hs.enableOverwriteDetection, hs.start⟩
    · exact hI.origin j (List.mem_append_right _ hj)
  · exact resumeJobs_forall (fun j hj _ => { hj with }) (hI.sound hc)

theorem Sys.inv_cancel (hI : s.Inv) (jid : ℤ) :
    Sys.Inv { s with jobs := removeJob jid s.jobs } := by
  refine ⟨fun j hj => hI.origin j ?_, fun hc j hj => hI.sound hc j (List.mem_of_mem_eraseP hj),
    hI.removed, hI.done⟩
  rcases List.mem_append.mp hj with hj | hj
  · exact List.mem_append_left _ (List.mem_of_mem_eraseP hj)
  · exact List.mem_append_right _ hj

theorem Sys.inv_confirm (hI : s.Inv) (h : confirmJobs os r s.jobs = some js) :
    Sys.Inv { s with jobs := js, confirms := s.confirms ++ [r] } := by
  have hc : s.confirms ⊆ s.confirms ++ [r] := List.subset_append_left _ _
  refine ⟨fun j hj => ?_, fun hcl => ?_, fun j hj => ?_, hI.done⟩
  · rcases List.mem_append.mp hj with hj | hj
    · refine confirmJobs_forall (P := fun j => ∃ j₀ ∈ s.added, SameJob j₀ j) ?_
        (fun j hj => hI.origin j (List.mem_append_left _ hj)) h j hj
      rintro j j' ⟨j₀, h₀, hs⟩ - hconf
      exact ⟨j₀, h₀, hs.of_task (confirm_task hconf)⟩
    · exact hI.origin j (List.mem_append_right _ hj)
  · refine confirmJobs_forall (fun j j' hj hid hconf => hj.confirm hid (by simp) hconf)
      (fun j hj => (hI.sound hcl j hj).mono (List.Subset.refl _) hc) h
  · exact ⟨(hI.removed j hj).1.mono (List.Subset.refl _) hc, (hI.removed j hj).2⟩

theorem Sys.inv_step {i : Input σ} (hI : s.Inv) (hok : s.InputOk i) :
    Sys.Inv (s.step compress i) := by
  by_cases hc : s.closed = true
  · simpa [Sys.step, hc] using hI
  have hc : s.closed = false := by simpa using hc
  cases i with
  | tick => exact Sys.inv_tick hI hc (by simpa [Sys.InputOk, hc] using hok)
  | add =>
    simpa [Sys.step, hc] using Sys.inv_add hI (j := _) (by rfl) (by rfl)
  | resume jid => simpa [Sys.step, hc] using Sys.inv_resume hI jid
  | cancel jid => simpa [Sys.step, hc] using Sys.inv_cancel hI jid
  | confirm os r =>
    simp only [Sys.step, hc, Bool.false_eq_true, ↓reduceIte]
    split
    · rename_i h
      simpa [hc] using Sys.inv_confirm hI h
    · exact { hI with sound := by simp }

/-- The end of file `i` of job `j`, in the history of the job and reported in
the messages of the connection. -/
def Ended (s : Sys σ) (j : TransferJob σ) (i : ℕ) : Prop :=
  ∃ e, (i, e) ∈ j.log.ends ∧ Reported s.sent s.confirms j.id i e

/-- In every run whose ticks meet `tickOk`, a job that a tick removed has
reached the end of its list, and every file from its start on has ended; and
every `FileTransferDone` is of such a job. -/
theorem removed_only_when_all_ended (compress : Bytes → Bytes) (is : List (Input σ))
    (hok : Run.Meets (Sys.step compress) Sys.InputOk Sys.start is) :
    let s := Run.run (Sys.step compress) Sys.start is
    (∀ j ∈ s.removed, ∃ j₀ ∈ s.added, SameJob j₀ j ∧ (Watched j₀ → j₀.numFiles ≤ asUsize j.fileNum ∧
        ∀ i, asUsize j₀.fileNum ≤ i → i < j₀.numFiles → Ended s j i)) ∧
    ∀ id n, FileResponse.done id n ∈ s.sent → ∃ j ∈ s.removed, j.id = id ∧ j.fileNum = n := by
  intro s
  have hI : Sys.Inv s :=
    Run.inv_run_of_meets (fun _ _ _ hI hok => Sys.inv_step hI hok) Sys.inv_start hok
  refine ⟨fun j hj => ?_, hI.done⟩
  obtain ⟨j₀, h₀, hs⟩ := hI.origin j (List.mem_append_right _ hj)
  refine ⟨j₀, h₀, hs, fun hw => ?_⟩
  obtain ⟨hsound, hcomplete⟩ := hI.removed j hj
  have hn : j.numFiles = j₀.numFiles := congrArg (·.entries.length) hs.files
  have hend : j₀.numFiles ≤ asUsize j.fileNum := by
    rw [← hn]
    exact hcomplete ⟨hs.type.trans hw.1, hs.isFilePath.trans hw.2.1,
      hs.enableOverwriteDetection.trans hw.2.2⟩
  refine ⟨hend, fun i hi hlt => ?_⟩
  rw [← hs.start] at hi
  obtain ⟨e, he⟩ := hsound.logged i (hn ▸ hlt) hi (lt_of_lt_of_le hlt hend)
  exact ⟨e, he, hsound.reported i e he⟩

/-- Two files under `d`; of an open file the model keeps the bytes left. -/
def twoFiles : FileList := ⟨[⟨"a", 2, 0⟩, ⟨"b", 3, 0⟩], by decide⟩

/-- A file system in which only `d/a` can be opened, or only `d/b`. -/
def osWith (readable : String) (content : Bytes) : Os Bytes where
  symlinkMetadata := fun _ => .notFound
  pathExists := fun _ => true
  openFile := fun p => if p = readable then .ok content else .error "Permission denied"
  openWrite := fun _ => .error "Permission denied"
  seek := fun f n => .ok (f.drop n)
  metadata := fun f => .ok (0, f.length)
  readFile := fun f n => .ok (f.take n, f.drop n)

/-- `a` is announced, confirmed and read to its end; `b`, the last file,
cannot be opened. -/
def goodRun : List (Input Bytes) :=
  [.add false 1 .generic (.filePath "d") 0 twoFiles true,
   .tick (osWith "d/a" [7, 8]) (fun _ => .ok ()),
   .confirm (osWith "d/a" [7, 8]) ⟨1, 0, some (.offsetBlk 0)⟩,
   .tick (osWith "d/a" [7, 8]) (fun _ => .ok ()),
   .tick (osWith "d/a" [7, 8]) (fun _ => .ok ()),
   .tick (osWith "d/a" [7, 8]) (fun _ => .ok ())]

theorem goodRun_done : FileResponse.done 1 2 ∈ (Run.run (Sys.step id) Sys.start goodRun).sent ∧
      ∃ j ∈ (Run.run (Sys.step id) Sys.start goodRun).removed, j.id = 1 ∧ j.fileNum = 2 := by
  have hdone : FileResponse.done 1 2 ∈ (Run.run (Sys.step id) Sys.start goodRun).sent := by decide
  exact ⟨hdone, (removed_only_when_all_ended id goodRun (by decide)).2 1 2 hdone⟩

/-- The first of two files cannot be opened: the tick that reports it also
sends `FileTransferDone` and removes the job, and the second file is never
read, skipped or reported. -/
theorem done_after_first_open_failure :
    let s := Run.run (Sys.step id) Sys.start
      [.add false 1 .generic (.filePath "d") 0 twoFiles true,
       .tick (osWith "d/b" [7, 8, 9]) (fun _ => .ok ())]
    s.sent = [FileResponse.error 1 "Permission denied" 1, FileResponse.done 1 1] ∧
      s.jobs.length = 0 ∧ s.confirms = [] ∧
      (∃ j ∈ s.removed, Watched j ∧ j.fileNum = 1 ∧ j.numFiles = 2 ∧
        j.log.ends = [(0, FileEnd.failed "Permission denied")]) := by
  decide

end CodeDesk.Fs
