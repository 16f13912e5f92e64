/-
# When a read job is finished

`handle_read_jobs` takes a job to be finished when a read gave nothing and
no flag is set, not when the file number has reached the end of the list.
Here is what that costs and where it does not: if stream initialisation of
the job being served never fails before the last file, every job a tick
removes has left every file behind, read to its end, skipped or reported.

`Kept` and `Left e` say what a function can do to a job; `Sound` is what the
history of a job owes to the messages of the connection.
-/
import Mathlib.Data.List.Forall2
import CodeDesk.Fs.ReadJobs

namespace CodeDesk.Fs

variable {σ : Type}

/-! ### File numbers -/

variable {i : ℕ} {id : ℤ} {e : FileEnd} {res : Except String Unit} {m : FileResponse} {err : String}
  {fin : Option ℤ} {log : Option (JobLog σ)} {compress : Bytes → Bytes} {os : Os σ}
  {send : Send} {j j' : TransferJob σ} {sent sent' out : List FileResponse}
  {r : SendConfirmRequest} {got : Except String (Option FileTransferBlock)}

/-- The next file number passes only the current file, also where the `i32`
wraps around. -/
theorem lt_asUsize_i32Succ {n : ℤ} (hi : i < 2147483647) (h : i < asUsize (i32Succ n)) :
    i < asUsize n ∨ i = asUsize n := by
  unfold asUsize i32Succ at *
  split at h <;> omega

namespace TransferJob

/-! ### What can happen to a job -/

/-- The fields no function of a read job changes. -/
structure Task where
  id : ℤ
  type : JobType
  isFilePath : Bool
  isLastJob : Bool
  files : FileList
  enableOverwriteDetection : Bool
  start : ℤ

def task (j : TransferJob σ) : Task where
  id := j.id
  type := j.type
  isFilePath := j.isFilePath
  isLastJob := j.isLastJob
  files := j.files
  enableOverwriteDetection := j.enableOverwriteDetection
  start := j.log.start

/-- `j'` is `j` at the same file. -/
structure Kept (j j' : TransferJob σ) : Prop where
  task : j'.task = j.task
  fileNum : j'.fileNum = j.fileNum
  log : j'.log = j.log

/-- `j'` is `j` at the next file, after the current one ended with `e`. -/
structure Left (e : FileEnd) (j j' : TransferJob σ) : Prop where
  task : j'.task = j.task
  fileNum : j'.fileNum = i32Succ j.fileNum
  log : j'.log = j.logEnd e

theorem Kept.refl (j : TransferJob σ) : Kept j j := ⟨rfl, rfl, rfl⟩

theorem Kept.trans {j j' j'' : TransferJob σ} (h : Kept j j') (h' : Kept j' j'') : Kept j j'' :=
  ⟨h'.task.trans h.task, h'.fileNum.trans h.fileNum, h'.log.trans h.log⟩

section

variable (h : j'.task = j.task)

include h

theorem id_eq_of_task : j'.id = j.id := congrArg Task.id h

theorem files_eq_of_task : j'.files = j.files := congrArg Task.files h

theorem isLastJob_eq_of_task : j'.isLastJob = j.isLastJob := congrArg Task.isLastJob h

theorem start_eq_of_task : j'.log.start = j.log.start := congrArg Task.start h

end

theorem openDataStream_spec {res : Except String Bool} (h : openDataStream os j = (j', res)) :
    ((∃ b, res = .ok b) ∧ Kept j j') ∨ ∃ err, res = .error err ∧ Left (.failed err) j j' := by
  unfold openDataStream at h
  split at h <;> rename_i hsrc
  · split at h
    · cases h
      exact .inl ⟨⟨_, rfl⟩, rfl, rfl, rfl⟩
    split at h
    · cases h
      exact .inl ⟨⟨_, rfl⟩, Kept.refl _⟩
    split at h <;> cases h
    · exact .inl ⟨⟨_, rfl⟩, rfl, rfl, rfl⟩
    · exact .inr ⟨_, rfl, rfl, rfl, rfl⟩
  · split at h <;> cases h
    · exact .inl ⟨⟨_, rfl⟩, Kept.refl _⟩
    · refine .inl ⟨⟨_, rfl⟩, ?_, rfl, rfl⟩
      -- the cursor is swapped out of the data source, which stays a cursor
      simp [task, isFilePath, hsrc]

theorem initDataStream_spec (h : initDataStream os send j = (j', sent, res)) :
    (res = .ok () ∧ Kept j j') ∨
      ∃ err, res = .error err ∧ (Kept j j' ∨ Left (.failed err) j j') := by
  unfold initDataStream at h
  split at h <;> rename_i hopen
  · rcases openDataStream_spec hopen with ⟨⟨b, hb⟩, -⟩ | ⟨err, he, hl⟩
    · cases hb
    · cases he
      obtain ⟨rfl, -, rfl⟩ := by simpa using h
      exact .inr ⟨_, rfl, .inr hl⟩
  · rcases openDataStream_spec hopen with ⟨-, hk⟩ | ⟨err, he, -⟩
    · obtain ⟨rfl, -, rfl⟩ := by simpa using h
      exact .inl ⟨rfl, hk⟩
    · cases he
  · rcases openDataStream_spec hopen with ⟨-, hk⟩ | ⟨err, he, -⟩
    · split at h
      · split at h <;> obtain ⟨rfl, -, rfl⟩ := by simpa using h
        · exact .inr ⟨_, rfl, .inl hk⟩
        · exact .inl ⟨rfl, hk.trans ⟨rfl, rfl, rfl⟩⟩
      · obtain ⟨rfl, -, rfl⟩ := by simpa using h
        exact .inl ⟨rfl, hk⟩
    · cases he

/-- What a read can do: at an error or at the end of a file the job goes to
the next one, else it stays. -/
inductive ReadEffect (j j' : TransferJob σ) : Except String (Option FileTransferBlock) → Prop
  | kept (res : Except String (Option FileTransferBlock)) : Kept j j' → ReadEffect j j' res
  | failed (err : String) : Left (.failed err) j j' → ReadEffect j j' (.error err)
  | eof : Left .eof j j' → ReadEffect j j' (.ok (some ⟨j.id, j.fileNum, [], false⟩))

theorem readBlock_spec (h : readBlock compress os j = (j', got)) : ReadEffect j j' got := by
  unfold readBlock at h
  split at h
  · cases h
    exact .kept _ (Kept.refl _)
  split at h
  · cases h
    exact .failed _ ⟨rfl, rfl, rfl⟩
  split at h
  · split at h <;> cases h
    · exact .eof ⟨rfl, rfl, rfl⟩
    · exact .kept _ ⟨rfl, rfl, rfl⟩
  · cases h
    exact .kept _ ⟨rfl, rfl, rfl⟩

theorem read_spec (h : j.read compress os = (j', got)) : ReadEffect j j' got := by
  unfold read at h
  split at h
  · cases h
    exact .kept _ (Kept.refl _)
  split at h
  · cases h
    exact .kept _ ⟨rfl, rfl, rfl⟩
  · exact readBlock_spec h

theorem confirm_spec (h : j.confirm os r = some j') :
    Kept j j' ∨ (j.fileNum = r.fileNum ∧ r.union = some (ConfirmUnion.skip true) ∧
      Left .skipped j j') := by
  rcases confirm_cases h with rfl | ⟨hn, hu, rfl⟩ | ⟨-, st, tr, fin, rfl⟩
  · exact .inl (Kept.refl _)
  · exact .inr ⟨hn, hu, rfl, rfl, rfl⟩
  · exact .inl ⟨rfl, rfl, rfl⟩

end TransferJob

open TransferJob

/-! ### Histories and messages -/

/-- The messages that stand for the end of file `i` of job `id`: the empty
block at the end of the file, a confirm that skips it, or an error with its
text. An error is sent after the job went on, so it carries the next number. -/
def Reported (sent : List FileResponse) (confirms : List SendConfirmRequest) (id : ℤ) (i : ℕ) :
    FileEnd → Prop
  | .eof => ∃ n, asUsize n = i ∧ FileResponse.block ⟨id, n, [], false⟩ ∈ sent
  | .skipped => ∃ r ∈ confirms,
      r.id = id ∧ asUsize r.fileNum = i ∧ r.union = some (ConfirmUnion.skip true)
  | .failed err => ∃ n, asUsize n = i ∧ FileResponse.error id err (i32Succ n) ∈ sent

/-- The history of a job: every file between its start and its current number
ended, and every end was reported. -/
structure Sound (sent : List FileResponse) (confirms : List SendConfirmRequest)
    (j : TransferJob σ) : Prop where
  logged : ∀ i < j.numFiles, asUsize j.log.start ≤ i → i < asUsize j.fileNum →
    ∃ e, (i, e) ∈ j.log.ends
  reported : ∀ i e, (i, e) ∈ j.log.ends → Reported sent confirms j.id i e

variable {confirms confirms' : List SendConfirmRequest}

theorem Reported.mono (hs : sent ⊆ sent') (hc : confirms ⊆ confirms')
    (h : Reported sent confirms id i e) : Reported sent' confirms' id i e := by
  cases e with
  | eof | failed =>
    obtain ⟨n, hn, hm⟩ := h
    exact ⟨n, hn, hs hm⟩
  | skipped =>
    obtain ⟨r, hr, h⟩ := h
    exact ⟨r, hc hr, h⟩

section

variable (h : Sound sent confirms j)

include h

theorem Sound.mono (hs : sent ⊆ sent') (hc : confirms ⊆ confirms') : Sound sent' confirms' j :=
  ⟨h.logged, fun i e he => (h.reported i e he).mono hs hc⟩

theorem Sound.append (out : List FileResponse) : Sound (sent ++ out) confirms j :=
  h.mono (List.subset_append_left _ _) (List.Subset.refl _)

theorem Sound.kept (hk : Kept j j') : Sound sent confirms j' := by
  refine ⟨fun i hi hs hn => ?_, fun i e he => ?_⟩
  · rw [hk.log] at hs ⊢
    rw [hk.fileNum] at hn
    rw [numFiles, files_eq_of_task hk.task] at hi
    exact h.logged i hi hs hn
  · rw [hk.log] at he
    rw [id_eq_of_task hk.task]
    exact h.reported i e he

theorem Sound.left (hl : Left e j j')
    (hr : Reported sent confirms j.id (asUsize j.fileNum) e) : Sound sent confirms j' := by
  have hends : j'.log.ends = j.log.ends ++ [(asUsize j.fileNum, e)] := by rw [hl.log]; rfl
  refine ⟨fun i hi hs hn => ?_, fun i e' he => ?_⟩
  · rw [numFiles, files_eq_of_task hl.task] at hi
    rw [start_eq_of_task hl.task] at hs
    rw [hl.fileNum] at hn
    rw [hends]
    have hsmall : i < 2147483647 := by
      have := j.files.small
      omega
    rcases lt_asUsize_i32Succ hsmall hn with hlt | rfl
    · obtain ⟨e', he'⟩ := h.logged i hi hs hlt
      exact ⟨e', List.mem_append_left _ he'⟩
    · exact ⟨e, List.mem_append_right _ (List.mem_singleton_self _)⟩
  · rw [id_eq_of_task hl.task]
    rw [hends, List.mem_append, List.mem_singleton] at he
    rcases he with he | he
    · exact h.reported i e' he
    · cases he
      exact hr

theorem Sound.init (hi : initDataStream os send j = (j', out, res))
    (herr : ∀ err, res = .error err → FileResponse.error j'.id err j'.fileNum ∈ sent) :
    Sound sent confirms j' := by
  rcases initDataStream_spec hi with ⟨-, hk⟩ | ⟨err, rfl, hk | hl⟩
  · exact h.kept hk
  · exact h.kept hk
  · refine h.left hl ⟨j.fileNum, rfl, ?_⟩
    have := herr err rfl
    rwa [hl.fileNum, id_eq_of_task hl.task] at this

theorem Sound.read (hr : j.read compress os = (j', got))
    (hblock : ∀ b, got = .ok (some b) → FileResponse.block b ∈ sent)
    (herr : ∀ err, got = .error err → FileResponse.error j'.id err j'.fileNum ∈ sent) :
    Sound sent confirms j' := by
  cases read_spec hr with
  | kept _ hk => exact h.kept hk
  | failed err hl =>
    refine h.left hl ⟨j.fileNum, rfl, ?_⟩
    have := herr err rfl
    rwa [hl.fileNum, id_eq_of_task hl.task] at this
  | eof hl => exact h.left hl ⟨j.fileNum, rfl, hblock _ rfl⟩

theorem Sound.confirm (hid : j.id = r.id) (hr : r ∈ confirms)
    (hc : j.confirm os r = some j') : Sound sent confirms j' := by
  rcases confirm_spec hc with hk | ⟨hn, hu, hl⟩
  · exact h.kept hk
  · exact h.left hl ⟨r, hr, hid.symm, by rw [hn], hu⟩

end

/-! ### The tick, job by job -/

variable {js js' : List (TransferJob σ)}

/-- What a successful `init_jobs` does to one job of the list. -/
def InitRel (os : Os σ) (send : Send) (j j' : TransferJob σ) : Prop :=
  (j.isLastJob = true ∧ j' = j) ∨ (j.isLastJob = false ∧ ∃ out res,
    initDataStream os send j = (j', out, res) ∧
      ∀ err, res = .error err → send (.error j'.id err j'.fileNum) = .ok ())

theorem initDataStream_task (h : initDataStream os send j = (j', out, res)) : j'.task = j.task := by
  rcases initDataStream_spec h with ⟨-, hk⟩ | ⟨err, -, hk | hl⟩
  · exact hk.task
  · exact hk.task
  · exact hl.task

theorem InitRel.task (h : InitRel os send j j') : j'.task = j.task := by
  rcases h with ⟨-, rfl⟩ | ⟨-, out, res, h, -⟩
  · rfl
  · exact initDataStream_task h

theorem initJobs_task (os : Os σ) (send : Send) : ∀ js : List (TransferJob σ),
      List.Forall₂ (fun j j' => j'.task = j.task) js (initJobs os send js).1
  | [] => .nil
  | j :: js => by
    have ih := initJobs_task os send js
    unfold initJobs
    split
    · exact .cons rfl ih
    split
    · rename_i h
      exact .cons (initDataStream_task h) ih
    · rename_i h
      split
      · exact .cons (initDataStream_task h) (List.forall₂_same.mpr fun _ _ => rfl)
      · exact .cons (initDataStream_task h) ih

theorem initJobs_cons_ok (h : initJobs os send (j :: js) = (js', out, .ok ())) :
    ∃ j' js₁ out₁ out₂, js' = j' :: js₁ ∧ out = out₁ ++ out₂ ∧
      initJobs os send js = (js₁, out₂, .ok ()) ∧ InitRel os send j j' ∧
      (∀ {sent confirms}, Sound sent confirms j → Sound (sent ++ out₁) confirms j') := by
  unfold initJobs at h
  rcases hr : initJobs os send js with ⟨js₁, out₂, res⟩
  simp only [hr] at h
  split_ifs at h with hlast
  · cases h
    exact ⟨j, _, [], _, rfl, rfl, rfl, .inl ⟨hlast, rfl⟩, (·.append _)⟩
  rw [Bool.not_eq_true] at hlast
  split at h
  · rename_i j' out₁ hi
    cases h
    exact ⟨j', _, out₁, _, rfl, rfl, rfl, .inr ⟨hlast, _, _, hi, nofun⟩, fun hj =>
      (hj.init hi nofun).append _⟩
  · rename_i j' out₁ err hi
    split at h <;> cases h
    rename_i hsend
    refine ⟨j', _, out₁ ++ [.error j'.id err j'.fileNum], _, rfl, by simp, rfl,
      .inr ⟨hlast, _, _, hi, ?_⟩, fun hj => (hj.append _).init hi ?_⟩
    · rintro _ ⟨⟩
      exact hsend
    · rintro _ ⟨⟩
      simp

theorem initJobs_rel : ∀ {js js' : List (TransferJob σ)} {out : List FileResponse},
    initJobs os send js = (js', out, .ok ()) → List.Forall₂ (InitRel os send) js js'
  | [], js', out, h => by
    obtain ⟨rfl, -⟩ := by simpa [initJobs] using h
    exact .nil
  | j :: js, js', out, h => by
    obtain ⟨j', js₁, out₁, out₂, rfl, -, hjs, hrel, -⟩ := initJobs_cons_ok h
    exact .cons hrel (initJobs_rel hjs)

theorem initJobs_sound : ∀ {js js' : List (TransferJob σ)} {sent out : List FileResponse},
    (∀ j ∈ js, Sound sent confirms j) → initJobs os send js = (js', out, .ok ()) →
      ∀ j ∈ js', Sound (sent ++ out) confirms j
  | [], js', _, out, _, h => by
    obtain ⟨rfl, -⟩ := by simpa [initJobs] using h
    simp
  | j :: js, js', _, out, hs, h => by
    obtain ⟨hj, hs⟩ := List.forall_mem_cons.mp hs
    obtain ⟨j', js₁, out₁, out₂, rfl, rfl, hjs, -, hsound⟩ := initJobs_cons_ok h
    rw [← List.append_assoc]
    exact List.forall_mem_cons.mpr ⟨(hsound hj).append _,
      initJobs_sound (fun i hi => (hs i hi).append _) hjs⟩

/-- To open a file sends at most the digest of that file. -/
theorem initDataStream_sends (h : initDataStream os send j = (j', out, res)) :
    ∀ m ∈ out, ∃ t size, m = .digest j'.id j'.fileNum t size j'.isResume := by
  unfold initDataStream at h
  split at h
  case h_1 | h_2 =>
    obtain ⟨-, rfl, -⟩ := by simpa using h
    simp
  · rename_i j₁ _
    have hdigest : ∀ m ∈ (sendCurrentDigest os send j₁).1,
        ∃ t size, m = .digest j₁.id j₁.fileNum t size j₁.isResume := by
      unfold sendCurrentDigest
      split
      · simp
      · split <;> simp
    split at h
    · split at h <;> rename_i hd <;> rw [hd] at hdigest <;> obtain ⟨rfl, rfl, -⟩ := by simpa using h
      · exact hdigest
      · exact hdigest
    · obtain ⟨-, rfl, -⟩ := by simpa using h
      simp

theorem initJobs_no_done (os : Os σ) (send : Send) (id n : ℤ) :
    ∀ js : List (TransferJob σ), FileResponse.done id n ∉ (initJobs os send js).2.1
  | [] => nofun
  | j :: js => by
    have ih := initJobs_no_done os send id n js
    have hinit : FileResponse.done id n ∉ (initDataStream os send j).2.1 := by
      intro hm
      obtain ⟨_, _, he⟩ := initDataStream_sends rfl _ hm
      cases he
    unfold initJobs
    split
    · exact ih
    split
    · rename_i hi
      simpa [ih, hi] using hinit
    · rename_i hi
      split <;> simpa [ih, hi] using hinit

theorem confirm_task (h : j.confirm os r = some j') : j'.task = j.task := by
  rcases TransferJob.confirm_spec h with hk | ⟨-, -, hl⟩
  · exact hk.task
  · exact hl.task

theorem confirmJobs_forall {P : TransferJob σ → Prop}
    (hP : ∀ j j', P j → j.id = r.id → j.confirm os r = some j' → P j') :
    ∀ {js js' : List (TransferJob σ)}, (∀ j ∈ js, P j) → confirmJobs os r js = some js' →
      ∀ j ∈ js', P j
  | [], js', _, h => by
    obtain rfl : js' = [] := by simpa [confirmJobs] using h.symm
    simp
  | j :: js, js', hs, h => by
    obtain ⟨hj, hs⟩ := List.forall_mem_cons.mp hs
    unfold confirmJobs at h
    split_ifs at h with hid
    · obtain ⟨j', hc, rfl⟩ := Option.map_eq_some_iff.mp h
      exact List.forall_mem_cons.mpr ⟨hP j j' hj hid hc, hs⟩
    · obtain ⟨js'', hc, rfl⟩ := Option.map_eq_some_iff.mp h
      exact List.forall_mem_cons.mpr ⟨hj, confirmJobs_forall hP hs hc⟩

/-! ### The job being served -/

def servedJob (js : List (TransferJob σ)) : Option (TransferJob σ) := js.find? (!·.isLastJob)

/-- A `Generic` job that reads files under a path, with overwrite detection. -/
def Watched (j : TransferJob σ) : Prop :=
  j.type = .generic ∧ j.isFilePath = true ∧ j.enableOverwriteDetection = true

instance (j : TransferJob σ) : Decidable (Watched j) := by unfold Watched; infer_instance

theorem Watched.of_task (ht : j'.task = j.task) (h : Watched j') : Watched j := by
  obtain ⟨h1, h2, h3⟩ := h
  exact ⟨(congrArg Task.type ht).symm.trans h1, (congrArg Task.isFilePath ht).symm.trans h2,
    (congrArg Task.enableOverwriteDetection ht).symm.trans h3⟩

theorem openDataStream_done (hp : j.isFilePath = true) (h : openDataStream os j = (j', .ok true)) :
    j'.numFiles ≤ asUsize j'.fileNum := by
  unfold openDataStream at h
  split at h
  · split at h
    · rename_i hnone
      obtain ⟨rfl, -⟩ := Prod.mk.inj h
      exact List.getElem?_eq_none_iff.mp hnone
    split at h
    · simp at h
    split at h <;> simp at h
  · rename_i hsrc
    simp [isFilePath, hsrc] at hp

theorem initDataStream_pending (hw : Watched j) (h : initDataStream os send j = (j', out, .ok ())) :
    j'.numFiles ≤ asUsize j'.fileNum ∨ j'.fileConfirmed = true ∨ j'.fileIsWaiting = true := by
  unfold initDataStream at h
  split at h <;> rename_i j₁ hopen
  · simp at h
  · obtain ⟨rfl, -⟩ := by simpa using h
    exact .inl (openDataStream_done hw.2.1 hopen)
  · have ht : j₁.task = j.task := by
      rcases openDataStream_spec hopen with ⟨-, hk⟩ | ⟨err, he, -⟩
      · exact hk.task
      · cases he
    have hw₁ : Watched j₁ := hw.of_task ht.symm
    split_ifs at h with hask
    · split at h
      · simp at h
      · obtain ⟨rfl, -⟩ := by simpa using h
        exact .inr (.inr rfl)
    · obtain ⟨rfl, -⟩ := by simpa using h
      right
      simpa [asksPeer, hw₁.1, hw₁.2.2, imp_iff_not_or] using hask

theorem read_none (hw : Watched j) (h : j.read compress os = (j', .ok none)) :
    (j' = j ∧ j.fileConfirmed = false) ∨ j'.numFiles ≤ asUsize j'.fileNum := by
  unfold TransferJob.read at h
  split at h
  · rename_i hc
    obtain ⟨rfl, -⟩ := Prod.mk.inj h
    simp only [Bool.and_eq_true, Bool.not_eq_true'] at hc
    exact .inl ⟨rfl, hc.2⟩
  split at h
  · rename_i hn
    obtain ⟨rfl, -⟩ := Prod.mk.inj h
    simp only [Bool.and_eq_true, decide_eq_true_eq] at hn
    exact .inr hn.2
  · unfold readBlock at h
    split at h
    · simp at h
    split at h
    · simp at h
    split at h
    · simp [hw.2.1] at h
    · simp at h

/-- Initialisation may fail only at the last file. (If the report of the
failure cannot be sent, the tick ends the connection instead.) -/
def initOk (os : Os σ) (send : Send) (j : TransferJob σ) : Bool :=
  match initDataStream os send j with
  | (_, _, .ok ()) => true
  | (j', _, .error err) =>
    decide (j'.numFiles ≤ asUsize j'.fileNum) || !(send (.error j'.id err j'.fileNum)).isOk

/-- If the served job is `Watched` its initialisation meets `initOk`; and its id leads
to no stored job, which `remove_job` would take instead. -/
def tickOk (os : Os σ) (send : Send) (js : List (TransferJob σ)) : Bool :=
  match servedJob js with
  | none => true
  | some j => (getJob j.id js).all (!·.isLastJob) && (!decide (Watched j) || initOk os send j)

theorem complete_of_finished {j'' : TransferJob σ} (hw : Watched j'') (hrel : InitRel os send j j')
    (hlast : j.isLastJob = false) (hok : Watched j → initOk os send j = true)
    (hread : j'.read compress os = (j'', .ok none)) (hc : j''.jobCompleted = true) :
    j''.numFiles ≤ asUsize j''.fileNum := by
  have hk : Kept j' j'' := by
    cases read_spec hread with
    | kept _ hk => exact hk
  have hw' : Watched j' := hw.of_task hk.task
  have hw₀ : Watched j := hw'.of_task hrel.task
  rcases read_none hw' hread with ⟨rfl, hconf⟩ | hn
  · have hwait : j''.fileIsWaiting = false := by
      simpa [jobCompleted, hw.2.2, hconf] using hc
    rcases hrel with ⟨ht, -⟩ | ⟨-, out, res, hi, hsend⟩
    · simp [hlast] at ht
    cases res with
    | ok =>
      rcases initDataStream_pending hw₀ hi with h | h | h
      · exact h
      · simp [hconf] at h
      · simp [hwait] at h
    | error err =>
      have := hok hw₀
      simpa [initOk, hi, hsend err rfl, Except.isOk, Except.toBool] using this
  · exact hn

/-! ### The reading loop -/

/-- What the loop body can do when its message goes out: the messages and the
id pushed to `finished`. -/
inductive ServeEffect (compress : Bytes → Bytes) (os : Os σ) (j j' : TransferJob σ) :
    List FileResponse → Option ℤ → Prop
  | failed (err : String) : j.read compress os = (j', .error err) →
      ServeEffect compress os j j' [.error j'.id err j'.fileNum] none
  | block (b : FileTransferBlock) : j.read compress os = (j', .ok (some b)) →
      ServeEffect compress os j j' [.block b] none
  | waiting : j.read compress os = (j', .ok none) → ServeEffect compress os j j' [] none
  | finished (m : FileResponse) : j.read compress os = (j', .ok none) → j'.jobCompleted = true →
      (∀ id n, m = .done id n → id = j'.id ∧ n = j'.fileNum) →
      ServeEffect compress os j j' [m] (some j'.id)

theorem sendOne_ok (h : (sendOne send m).2 = .ok ()) : (sendOne send m).1 = [m] := by
  unfold sendOne at *
  split at h <;> simp_all

theorem sendOne_error (h : (sendOne send m).2 = .error err) : (sendOne send m).1 = [] := by
  unfold sendOne at *
  split at h <;> simp_all

theorem serve_ok (h : serve compress os send j = (j', out, fin, log, .ok ())) :
    ServeEffect compress os j j' out fin := by
  unfold serve at h
  split at h <;> rename_i hread
  · obtain ⟨rfl, rfl, rfl, -, hres⟩ := by simpa using h
    rw [sendOne_ok hres]
    exact .failed _ hread
  · obtain ⟨rfl, rfl, rfl, -, hres⟩ := by simpa using h
    rw [sendOne_ok hres]
    exact .block _ hread
  · split_ifs at h with hc
    · split at h <;> obtain ⟨rfl, rfl, rfl, -, hres⟩ := by simpa using h
      · rw [sendOne_ok hres]
        exact .finished _ hread hc nofun
      · rw [sendOne_ok hres]
        exact .finished _ hread hc (by rintro _ _ ⟨⟩; exact ⟨rfl, rfl⟩)
    · obtain ⟨rfl, rfl, rfl, -⟩ := by simpa using h
      exact .waiting hread

theorem serve_error
    (h : serve compress os send j = (j', out, fin, log, .error err)) : out = [] := by
  unfold serve at h
  split at h
  case h_3 =>
    split_ifs at h
    · split at h <;> obtain ⟨-, rfl, -, -, hres⟩ := by simpa using h
      all_goals exact sendOne_error hres
    · simp at h
  all_goals
    obtain ⟨-, rfl, -, -, hres⟩ := by simpa using h
    exact sendOne_error hres

theorem read_task (compress : Bytes → Bytes) (os : Os σ) (j : TransferJob σ) :
    (j.read compress os).1.task = j.task := by
  rcases hr : j.read compress os with ⟨j', res⟩
  cases read_spec hr with
  | kept _ hk => exact hk.task
  | failed _ hl | eof hl => exact hl.task

theorem serve_task
    (h : serve compress os send j = (j', out, fin, log, res)) : j'.task = j.task := by
  have key := read_task compress os j
  unfold serve at h
  split at h <;> rename_i hr <;> rw [hr] at key <;> repeat' split at h
  all_goals exact (Prod.mk.inj h).1 ▸ key

theorem serve_sound (hs : Sound sent confirms j)
    (h : serve compress os send j = (j', out, fin, log, .ok ())) :
    Sound (sent ++ out) confirms j' := by
  have hs' : Sound (sent ++ out) confirms j := hs.append out
  cases serve_ok h with
  | failed err hread => exact hs'.read hread nofun (by rintro _ ⟨⟩; simp)
  | block b hread => exact hs'.read hread (by rintro _ ⟨⟩; simp) nofun
  | waiting hread | finished _ hread => exact hs'.read hread nofun nofun

theorem readFirst_rel (compress : Bytes → Bytes) (h : List.Forall₂ (InitRel os send) js js') :
    (servedJob js = none ∧ readFirst compress os send js' = ⟨js', [], none, none, .ok ()⟩) ∨
      ∃ pre j j' post, js' = pre ++ j' :: post ∧ (∀ p ∈ pre, p.isLastJob = true) ∧
        servedJob js = some j ∧ j.isLastJob = false ∧ InitRel os send j j' ∧
        ∃ j'' out fin log res, serve compress os send j' = (j'', out, fin, log, res) ∧
          readFirst compress os send js' = ⟨pre ++ j'' :: post, out, fin, log, res⟩ := by
  induction h with
  | nil => exact .inl ⟨rfl, rfl⟩
  | @cons j j' js js' hrel _ ih =>
    have hlast : j'.isLastJob = j.isLastJob := isLastJob_eq_of_task hrel.task
    cases hl : j.isLastJob with
    | true =>
      rcases ih with ⟨hs, hr⟩ |
        ⟨pre, i, i', post, rfl, hpre, hs, hi, hir, i'', out, fin, log, res, hsv, hr⟩
      · refine .inl ⟨by simp [servedJob, hl] at hs ⊢; exact hs, ?_⟩
        simp [readFirst, hlast, hl, hr]
      · refine .inr ⟨j' :: pre, i, i', post, rfl, ?_, ?_, hi, hir, i'', out, fin, log, res, hsv, ?_⟩
        · exact List.forall_mem_cons.mpr ⟨hlast.trans hl, hpre⟩
        · simpa [servedJob, hl] using hs
        · simp [readFirst, hlast, hl, hr]
    | false =>
      refine .inr ⟨[], j, j', js', rfl, by simp, by simp [servedJob, hl], hl, hrel, ?_⟩
      rcases hsv : serve compress os send j' with ⟨j'', out, fin, log, res⟩
      exact ⟨j'', out, fin, log, res, rfl, by simp [readFirst, hlast, hl, hsv]⟩

theorem getJob_task {p' : TransferJob σ}
    (h : List.Forall₂ (fun j j' : TransferJob σ => j'.task = j.task) js js')
    (hp : getJob id js' = some p') : ∃ p, getJob id js = some p ∧ p'.task = p.task := by
  induction h with
  | nil => simp [getJob] at hp
  | @cons j j' js js' ht _ ih =>
    have hid : j'.id = j.id := id_eq_of_task ht
    by_cases hj : j.id = id
    · have hp' : j' = p' := by simpa [getJob, hid, hj] using hp
      exact ⟨j, by simp [getJob, hj], hp' ▸ ht⟩
    · obtain ⟨p, hp, ht⟩ := ih (by simpa [getJob, hid, hj] using hp)
      exact ⟨p, by simpa [getJob, hj] using hp, ht⟩

end CodeDesk.Fs
