/-
# One id of a connection

A connection serves its read jobs in turn. What happens to the jobs of one id
does not depend on the others, except that a tick that serves another job
only initialises them: `Share` is what a connection keeps of one id, and
`Sys.share_tick`, `Sys.share_confirm` and `Sys.share_elsewhere` are what a
tick, a confirm of the id and the other inputs make of it.
-/
import CodeDesk.Fs.Completion

namespace CodeDesk.Fs

open TransferJob

variable {σ : Type} {compress : Bytes → Bytes} {os : Os σ}
  {send : Send} {j j' : TransferJob σ} {js : List (TransferJob σ)}
  {id : ℤ}

/-! ### Whose message it is -/

def FileResponse.jobId : FileResponse → ℤ
  | .digest id _ _ _ _ => id
  | .block b => b.id
  | .error id _ _ => id
  | .done id _ => id

variable {out : List FileResponse} {res : Except String Unit} {b : FileTransferBlock}
  {pre post : List (TransferJob σ)} {fin : Option ℤ} {log : Option (JobLog σ)} {i : ℤ} {s : Sys σ}
  {r : SendConfirmRequest}

theorem initDataStream_jobId
    (h : initDataStream os send j = (j', out, res)) : ∀ m ∈ out, m.jobId = j'.id := by
  intro m hm
  obtain ⟨t, size, rfl⟩ := initDataStream_sends h m hm
  rfl

theorem readBlock_names (h : readBlock compress os j = (j', .ok (some b))) :
    b.id = j.id ∧ b.fileNum = j.fileNum := by
  unfold readBlock at h
  split at h
  · cases h
  split at h
  · cases h
  split at h
  · split at h
    · cases h
      exact ⟨rfl, rfl⟩
    · cases h
  · cases h
    unfold packBlock
    split <;> exact ⟨rfl, rfl⟩

theorem read_names (h : j.read compress os = (j', .ok (some b))) :
    b.id = j.id ∧ b.fileNum = j.fileNum := by
  unfold TransferJob.read at h
  split at h
  · cases h
  split at h
  · cases h
  · exact readBlock_names h

/-! ### One id of a connection -/

def initOne (os : Os σ) (send : Send) (j : TransferJob σ) : TransferJob σ × List FileResponse :=
  if j.isLastJob then (j, [])
  else
    match initDataStream os send j with
    | (j, sent, .ok ()) => (j, sent)
    | (j, sent, .error err) => (j, sent ++ [.error j.id err j.fileNum])

theorem initOne_task (j : TransferJob σ) : (initOne os send j).1.task = j.task := by
  unfold initOne
  split
  · rfl
  · split <;> rename_i h <;> exact initDataStream_task h

theorem initOne_jobId (os : Os σ) (send : Send) (j : TransferJob σ) :
    ∀ m ∈ (initOne os send j).2, m.jobId = j.id := by
  have hid : (initOne os send j).1.id = j.id := id_eq_of_task (initOne_task j)
  rw [← hid]
  unfold initOne
  split
  · simp
  · split <;> rename_i h
    · exact initDataStream_jobId h
    · exact List.forall_mem_append.2 ⟨initDataStream_jobId h, List.forall_mem_singleton.2 rfl⟩

theorem readFirst_cases (compress : Bytes → Bytes) (os : Os σ)
    (send : Send) : ∀ js : List (TransferJob σ),
    ((∀ j ∈ js, j.isLastJob = true) ∧
      readFirst compress os send js = ⟨js, [], none, none, .ok ()⟩) ∨
    ∃ pre j post, js = pre ++ j :: post ∧ (∀ i ∈ pre, i.isLastJob = true) ∧ j.isLastJob = false
  | [] => .inl ⟨by simp, rfl⟩
  | j :: js => by
    cases hl : j.isLastJob with
    | false => exact .inr ⟨[], j, js, rfl, by simp, hl⟩
    | true =>
      rcases readFirst_cases compress os send js with ⟨hall, hr⟩ | ⟨pre, i, post, rfl, hpre, hi⟩
      · exact .inl ⟨List.forall_mem_cons.2 ⟨hl, hall⟩, by simp [readFirst, hl, hr]⟩
      · exact .inr ⟨j :: pre, i, post, rfl, List.forall_mem_cons.2 ⟨hl, hpre⟩, hi⟩

theorem readFirst_served (hpre : ∀ i ∈ pre, i.isLastJob = true) (hj : j.isLastJob = false)
    (hserve : serve compress os send j = (j', out, fin, log, res)) :
    readFirst compress os send (pre ++ j :: post) = ⟨pre ++ j' :: post, out, fin, log, res⟩ := by
  induction pre with
  | nil => simp [readFirst, hj, hserve]
  | cons i pre ih =>
    have hi : i.isLastJob = true := hpre i List.mem_cons_self
    have ih := ih fun k hk => hpre k (List.mem_cons_of_mem _ hk)
    simp [readFirst, hi, ih]

theorem filter_removeJob_ne (hi : i ≠ id) (js : List (TransferJob σ)) :
    (removeJob i js).filter (·.id == id) = js.filter (·.id == id) := by
  induction js with
  | nil => rfl
  | cons j js ih =>
    unfold removeJob at ih ⊢
    by_cases hj : j.id = i
    · have hne : (j.id == id) = false := by simpa [hj] using hi
      rw [List.eraseP_cons_of_pos (by simpa using hj), List.filter_cons_of_neg (by simp [hne])]
    · rw [List.eraseP_cons_of_neg (by simpa using hj), List.filter_cons, List.filter_cons, ih]

theorem filter_removeJob (id : ℤ) (js : List (TransferJob σ)) :
    (removeJob id js).filter (·.id == id) = removeJob id (js.filter (·.id == id)) := by
  induction js with
  | nil => rfl
  | cons j js ih =>
    unfold removeJob at ih ⊢
    by_cases hj : j.id = id
    · simp [hj]
    · simp [hj, ih]

theorem getJob_filter (id : ℤ) (js : List (TransferJob σ)) :
    getJob id (js.filter (·.id == id)) = getJob id js := by
  rw [getJob, List.find?_filter]
  congr 1
  funext j
  simp only [and_self, Bool.decide_eq_true]

theorem getJob_id (h : getJob i js = some j) : j.id = i := by
  have hp : (j.id == i) = true := List.find?_some (p := fun j : TransferJob σ => j.id == i) h
  simpa using hp

section finished

variable {fin : Option ℤ} {id : ℤ} (js : List (TransferJob σ))

/-- The job that a tick finishes is taken from the jobs of its id. -/
theorem filter_elim_removeJob (hfin : ∀ i, fin = some i → i = id) :
    (fin.elim js (removeJob · js)).filter (·.id == id) =
      fin.elim (js.filter (·.id == id)) (removeJob · (js.filter (·.id == id))) := by
  cases fin with
  | none => rfl
  | some i =>
    obtain rfl := hfin i rfl
    exact filter_removeJob i js

theorem filter_elim_removeJob_ne (hfin : ∀ i, fin = some i → i ≠ id) :
    (fin.elim js (removeJob · js)).filter (·.id == id) = js.filter (·.id == id) := by
  cases fin with
  | none => rfl
  | some i => exact filter_removeJob_ne (hfin i rfl) js

theorem filter_bind_getJob (hfin : ∀ i, fin = some i → i = id) :
    (fin.bind (getJob · js)).toList.filter (·.id == id) =
      (fin.bind (getJob · (js.filter (·.id == id)))).toList := by
  cases fin with
  | none => rfl
  | some i =>
    obtain rfl := hfin i rfl
    simp only [Option.bind_some]
    rw [getJob_filter]
    refine List.filter_eq_self.2 fun k hk => ?_
    simpa using getJob_id (Option.mem_toList.1 hk)

theorem filter_bind_getJob_ne (hfin : ∀ i, fin = some i → i ≠ id) :
    (fin.bind (getJob · js)).toList.filter (·.id == id) = [] := by
  cases fin with
  | none => rfl
  | some i =>
    refine List.filter_eq_nil_iff.2 fun k hk => ?_
    have hk : k.id = i := getJob_id (Option.mem_toList.1 hk)
    simpa [hk] using hfin i rfl

end finished

/-- What a connection keeps of one id: its jobs, the messages they sent, and
the jobs that ticks removed. -/
structure Share (σ : Type) where
  jobs : List (TransferJob σ)
  sent : List FileResponse
  removed : List (TransferJob σ)

def Sys.share (id : ℤ) (s : Sys σ) : Share σ :=
  ⟨s.jobs.filter (·.id == id), s.sent.filter (·.jobId == id), s.removed.filter (·.id == id)⟩

namespace Share

def tick (compress : Bytes → Bytes) (os : Os σ) (send : Send) (h : Share σ) : Share σ :=
  let t := handleReadJobs compress os send h.jobs
  ⟨t.jobs, h.sent ++ t.sent, h.removed ++ t.removed.toList⟩

def wait (os : Os σ) (send : Send) (h : Share σ) : Share σ :=
  let r := initJobs os send h.jobs
  ⟨r.1, h.sent ++ r.2.1, h.removed⟩

end Share

section

variable (hsend : ∀ m, send m = .ok ())

include hsend

theorem sendOne_of_ok (m : FileResponse) : sendOne send m = ([m], .ok ()) := by
  rw [sendOne, hsend]

theorem serve_share (compress : Bytes → Bytes) (os : Os σ) (j : TransferJob σ) :
    ∃ j' out fin log, serve compress os send j = (j', out, fin, log, .ok ()) ∧ j'.id = j.id ∧
      (∀ m ∈ out, m.jobId = j.id) ∧ ∀ i, fin = some i → i = j.id := by
  rcases hserve : serve compress os send j with ⟨j', out, fin, log, res⟩
  have hid : j'.id = j.id := id_eq_of_task (serve_task hserve)
  unfold serve at hserve
  simp only [sendOne_of_ok hsend] at hserve
  split at hserve <;> rename_i hread
  · obtain ⟨rfl, rfl, rfl, rfl, rfl⟩ := by simpa using hserve
    exact ⟨_, _, _, _, rfl, hid, by simpa [FileResponse.jobId] using hid, by simp⟩
  · obtain ⟨rfl, rfl, rfl, rfl, rfl⟩ := by simpa using hserve
    exact ⟨_, _, _, _, rfl, hid, by simpa [FileResponse.jobId] using (read_names hread).1, by simp⟩
  · split at hserve
    · split at hserve <;> obtain ⟨rfl, rfl, rfl, rfl, rfl⟩ := by simpa using hserve
      · exact ⟨_, _, _, _, rfl, hid, by simpa [FileResponse.jobId] using hid, by simp [hid]⟩
      · exact ⟨_, _, _, _, rfl, hid, by simpa [FileResponse.jobId] using hid, by simp [hid]⟩
    · obtain ⟨rfl, rfl, rfl, rfl, rfl⟩ := by simpa using hserve
      exact ⟨_, _, _, _, rfl, hid, by simp, by simp⟩

theorem initJobs_eq : ∀ js : List (TransferJob σ), initJobs os send js =
      (js.map fun j => (initOne os send j).1, js.flatMap fun j => (initOne os send j).2, .ok ())
  | [] => rfl
  | j :: js => by
    have ih := initJobs_eq js
    unfold initJobs
    split_ifs with hl
    · simp [initOne, hl, ih]
    · split <;> rename_i h
      · simp [initOne, hl, h, ih]
      · simp [initOne, hl, h, ih, hsend]

theorem initJobs_filter (os : Os σ) (id : ℤ) (js : List (TransferJob σ)) :
    (initJobs os send js).1.filter (·.id == id) = (initJobs os send (js.filter (·.id == id))).1 ∧
      (initJobs os send js).2.1.filter (·.jobId == id) =
        (initJobs os send (js.filter (·.id == id))).2.1 := by
  rw [initJobs_eq hsend, initJobs_eq hsend]
  constructor
  · have hid : ∀ j : TransferJob σ, (initOne os send j).1.id = j.id :=
      fun j => id_eq_of_task (initOne_task j)
    simp [List.filter_map, Function.comp_def, hid]
  · induction js with
    | nil => rfl
    | cons j js ih =>
      have hj := initOne_jobId os send j
      by_cases hid : j.id = id
      · have hall : (initOne os send j).2.filter (·.jobId == id) = (initOne os send j).2 :=
          List.filter_eq_self.2 fun m hm => by simp [hj m hm, hid]
        simp [hid, hall, ih]
      · have hnone : (initOne os send j).2.filter (·.jobId == id) = [] :=
          List.filter_eq_nil_iff.2 fun m hm => by simp [hj m hm, hid]
        simp [hid, hnone, ih]

theorem handleReadJobs_idle (compress : Bytes → Bytes)
    (hall : ∀ j ∈ (initJobs os send js).1, j.isLastJob = true) :
    handleReadJobs compress os send js =
      ⟨(initJobs os send js).1, (initJobs os send js).2.1, none, .ok none⟩ := by
  rcases hi : initJobs os send js with ⟨js₁, sent, res⟩
  obtain rfl : res = .ok () := by
    rw [initJobs_eq hsend] at hi
    exact (congrArg (·.2.2) hi).symm
  rw [hi] at hall
  have hr : readFirst compress os send js₁ = ⟨js₁, [], none, none, .ok ()⟩ := by
    rcases readFirst_cases compress os send js₁ with ⟨-, hr⟩ | ⟨pre, j, post, rfl, -, hj⟩
    · exact hr
    · have hlast := hall j (by simp)
      simp [hj] at hlast
  simp [handleReadJobs, hi, hr]

theorem handleReadJobs_served (hjs : (initJobs os send js).1 = pre ++ j :: post)
    (hpre : ∀ i ∈ pre, i.isLastJob = true) (hj : j.isLastJob = false)
    (hserve : serve compress os send j = (j', out, fin, log, .ok ())) :
    handleReadJobs compress os send js =
      ⟨fin.elim (pre ++ j' :: post) (removeJob · (pre ++ j' :: post)),
        (initJobs os send js).2.1 ++ out, fin.bind (getJob · (pre ++ j' :: post)), .ok log⟩ := by
  rcases hi : initJobs os send js with ⟨js₁, sent, res⟩
  obtain rfl : res = .ok () := by
    rw [initJobs_eq hsend] at hi
    exact (congrArg (·.2.2) hi).symm
  rw [hi] at hjs
  obtain rfl : js₁ = pre ++ j :: post := hjs
  cases fin with
  | none | some => simp [handleReadJobs, hi, readFirst_served hpre hj hserve]

/-- A tick for the jobs of one id is a tick for them alone, or it serves
another job and only initialises them. -/
theorem handleReadJobs_share (compress : Bytes → Bytes) (os : Os σ) (id : ℤ)
    (js : List (TransferJob σ)) :
    let t := handleReadJobs compress os send js
    let own := js.filter (·.id == id)
    let o := handleReadJobs compress os send own
    t.res.isOk = true ∧
      ((t.jobs.filter (·.id == id) = o.jobs ∧ t.sent.filter (·.jobId == id) = o.sent ∧
        t.removed.toList.filter (·.id == id) = o.removed.toList) ∨
      (t.jobs.filter (·.id == id) = (initJobs os send own).1 ∧
        t.sent.filter (·.jobId == id) = (initJobs os send own).2.1 ∧
        t.removed.toList.filter (·.id == id) = [])) := by
  intro t own o
  obtain ⟨hjobs, hsent⟩ := initJobs_filter hsend os id js
  rcases readFirst_cases compress os send (initJobs os send js).1 with
    ⟨hall, -⟩ | ⟨pre, j, post, hjs, hpre, hj⟩
  · have ht : t = _ := handleReadJobs_idle hsend compress hall
    have ho : o = _ := handleReadJobs_idle hsend compress fun j hj =>
      hall j (List.mem_of_mem_filter (hjobs ▸ hj))
    rw [ht, ho]
    exact ⟨rfl, .inl ⟨hjobs, hsent, rfl⟩⟩
  obtain ⟨j', out, fin, log, hserve, hid, hout, hfin⟩ := serve_share hsend compress os j
  have ht : t = _ := handleReadJobs_served hsend hjs hpre hj hserve
  rw [hjs, List.filter_append, List.filter_cons] at hjobs
  have hpre' : ∀ i ∈ pre.filter (·.id == id), i.isLastJob = true :=
    fun i hi => hpre i (List.mem_of_mem_filter hi)
  rw [ht]
  refine ⟨rfl, ?_⟩
  by_cases hown : j.id = id
  · -- the job served is one of them
    rw [if_pos (by simpa using hown)] at hjobs
    have ho : o = _ := handleReadJobs_served hsend hjobs.symm hpre' hj hserve
    have hl : (pre ++ j' :: post).filter (·.id == id) =
        pre.filter (·.id == id) ++ j' :: post.filter (·.id == id) := by
      simp [List.filter_append, hid, hown]
    have hall : out.filter (·.jobId == id) = out :=
      List.filter_eq_self.2 fun m hm => by simp [hout m hm, hown]
    have hfin' : ∀ i, fin = some i → i = id := fun i hi => (hfin i hi).trans hown
    rw [ho, ← hl]
    exact .inl ⟨filter_elim_removeJob _ hfin', by rw [List.filter_append, hsent, hall],
      filter_bind_getJob _ hfin'⟩
  · rw [if_neg (by simpa using hown)] at hjobs
    have hl : (pre ++ j' :: post).filter (·.id == id) =
        pre.filter (·.id == id) ++ post.filter (·.id == id) := by
      simp [List.filter_append, hid, hown]
    have hnone : out.filter (·.jobId == id) = [] :=
      List.filter_eq_nil_iff.2 fun m hm => by simp [hout m hm, hown]
    have hfin' : ∀ i, fin = some i → i ≠ id := fun i hi h => hown ((hfin i hi).symm.trans h)
    exact .inr ⟨(filter_elim_removeJob_ne _ hfin').trans (hl.trans hjobs),
      by rw [List.filter_append, hsent, hnone, List.append_nil], filter_bind_getJob_ne _ hfin'⟩

theorem Sys.share_tick (compress : Bytes → Bytes) (os : Os σ) (id : ℤ) (hc : s.closed = false) :
    (s.step compress (.tick os send)).closed = false ∧
      ((s.step compress (.tick os send)).share id = (s.share id).tick compress os send ∨
        (s.step compress (.tick os send)).share id = (s.share id).wait os send) := by
  obtain ⟨hres, h⟩ := handleReadJobs_share hsend compress os id s.jobs
  simp only [Sys.step, hc, Bool.false_eq_true, ↓reduceIte]
  refine ⟨by simp [hres], ?_⟩
  rcases h with ⟨hjobs, hsent, hremoved⟩ | ⟨hjobs, hsent, hremoved⟩
  · left
    simp [Sys.share, Share.tick, hjobs, hsent, hremoved]
  · right
    simp [Sys.share, Share.wait, hjobs, hsent, hremoved]

end

def Input.Elsewhere (id : ℤ) : Input σ → Prop
  | .add _ jid _ _ _ _ _ => jid ≠ id
  | .resume jid => jid ≠ id
  | .cancel jid => jid ≠ id
  | .confirm _ r => r.id ≠ id
  | .tick _ _ => False

theorem filter_resumeJobs (hi : i ≠ id) : ∀ js : List (TransferJob σ),
    (resumeJobs i js).filter (·.id == id) = js.filter (·.id == id)
  | [] => rfl
  | j :: js => by
    unfold resumeJobs
    split
    · rename_i hj
      have hne : j.id ≠ id := hj ▸ hi
      split
      · have hid : (setFinishedSizeOnResume { j with isLastJob := false, isResume := true }).id =
            j.id := by
          unfold setFinishedSizeOnResume
          split <;> rfl
        simp [hid, hne]
      · rfl
    · simp only [List.filter_cons, filter_resumeJobs hi js]

theorem confirm_id (h : j.confirm os r = some j') : j'.id = j.id := by
  rcases confirm_spec h with hk | ⟨-, -, hl⟩
  · exact id_eq_of_task hk.task
  · exact id_eq_of_task hl.task

theorem filter_confirmJobs (hr : r.id ≠ id) :
    ∀ {js js' : List (TransferJob σ)}, confirmJobs os r js = some js' →
      js'.filter (·.id == id) = js.filter (·.id == id)
  | [], _, h => by rw [← Option.some.inj h]
  | j :: js, js', h => by
    unfold confirmJobs at h
    split_ifs at h with hj
    · obtain ⟨j', hc, rfl⟩ := Option.map_eq_some_iff.1 h
      have hne : j.id ≠ id := hj ▸ hr
      simp [confirm_id hc, hne]
    · obtain ⟨js₁, hc, rfl⟩ := Option.map_eq_some_iff.1 h
      simp only [List.filter_cons, filter_confirmJobs hr hc]

theorem confirmJobs_filter (os : Os σ) (hr : r.id = id) :
    ∀ js : List (TransferJob σ), (confirmJobs os r js).map (·.filter (·.id == id)) =
      confirmJobs os r (js.filter (·.id == id))
  | [] => rfl
  | j :: js => by
    have ih := confirmJobs_filter os hr js
    by_cases hj : j.id = r.id
    · have hjid : j.id = id := hj.trans hr
      rw [List.filter_cons_of_pos (by simpa using hjid), confirmJobs, confirmJobs, if_pos hj, if_pos hj,
        Option.map_map]
      cases hc : j.confirm os r with
      | none => rfl
      | some => simp [confirm_id hc, hjid]
    · have hjid : j.id ≠ id := fun h => hj (h.trans hr.symm)
      rw [List.filter_cons_of_neg (by simpa using hjid), confirmJobs, if_neg hj, ← ih, Option.map_map]
      congr 1
      funext l
      simp [hjid]

theorem Sys.share_confirm (compress : Bytes → Bytes) (os : Os σ)
    (hr : r.id = id) (hc : s.closed = false) :
    (s.step compress (.confirm os r)).share id = { s.share id with
      jobs := (confirmJobs os r (s.share id).jobs).getD (s.share id).jobs } := by
  have h := confirmJobs_filter os hr s.jobs
  simp only [Sys.step, hc, Bool.false_eq_true, ↓reduceIte, Sys.share]
  rw [← h]
  cases confirmJobs os r s.jobs with
  | none | some => rfl

theorem Sys.share_elsewhere {i : Input σ} (compress : Bytes → Bytes)
    (hi : i.Elsewhere id) : (s.step compress i).share id = s.share id := by
  unfold Sys.step
  split
  · rfl
  cases i with
  | add last jid =>
    have hne : jid ≠ id := hi
    simp [Sys.share, newRead, hne]
  | resume jid => simp [Sys.share, filter_resumeJobs (show jid ≠ id from hi)]
  | cancel jid => simp [Sys.share, filter_removeJob_ne (show jid ≠ id from hi)]
  | tick => exact hi.elim
  | confirm os r =>
    simp only
    split
    · rename_i js hc
      simp [Sys.share, filter_confirmJobs (show r.id ≠ id from hi) hc]
    · rfl

end CodeDesk.Fs
