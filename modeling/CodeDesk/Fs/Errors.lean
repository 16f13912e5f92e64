/-
# The file an error is about

A read job sends its errors with the number of its current file. By then that
is the next one, if the file could not be opened or read
(`failure_blamed_on_next`); only what goes wrong with a digest is told of the
right file. A digest that fails is tried again in the next tick, and reported
again if it fails again. `errors_name_their_file` says of whole runs when every
failure is told once, of its file, with what the client makes of the messages.
-/
import CodeDesk.Fs.ReadRuns

namespace CodeDesk.Fs

open TransferJob

variable {σ : Type} {compress : Bytes → Bytes} {os : Os σ} {send : Send}
  {j : TransferJob σ}

/-- The job, the text and the file of an error message. -/
def FileResponse.error? : FileResponse → Option (ℤ × String × ℤ)
  | .error jid err n => some (jid, err, n)
  | _ => none

@[simp] theorem error?_error (jid : ℤ) (err : String) (n : ℤ) :
    (FileResponse.error jid err n).error? = some (jid, err, n) := rfl

/-- The client's transfer jobs, those it writes before those it reads, and the
files `job_error` was called for. -/
structure Errors where
  jobs : List (ℤ × JobType)
  failed : List (ℤ × String × ℤ) := []

/-- The `Error` branch of `handle_msg_from_peer`; no files are being removed. -/
def Errors.handle (c : Errors) : FileResponse → Errors
  | .error jid err n =>
    let type := ((c.jobs.find? (·.1 == jid)).map (·.2)).getD .generic
    { jobs := c.jobs.eraseP (·.1 == jid)
      failed := if type = .generic then c.failed ++ [(jid, err, n)] else c.failed }
  | _ => c

/-- The current file of the job can be opened, and its digest cannot be sent. -/
def digestFailure (os : Os σ) (send : Send) (j : TransferJob σ) : Option (ℤ × String × ℤ) :=
  match openDataStream os j with
  | (j', .ok false) =>
    if j'.asksPeer then
      match (sendCurrentDigest os send j').2 with
      | .error err => some (j.id, err, j.fileNum)
      | .ok () => none
    else none
  | _ => none

/-- The digest of the job's file can be made and sent. -/
structure Digestible (os : Os σ) (send : Send) (j : TransferJob σ) : Prop where
  stream : ∀ st ∈ j.dataStream, ∃ f, st = .fileStream f ∧ ∀ err, os.metadata f ≠ .error err
  opened : ∀ path f, os.openFile path = .ok f → ∀ err, os.metadata f ≠ .error err
  sends : ∀ id n t size r, send (.digest id n t size r) = .ok ()

/-- What is asked of the jobs before a tick and of the answers during it: each job
has an id of its own, the path of files that can be opened and read, and was not
skipped as a whole; errors can be sent; and a file that an error was sent for has
its digest sent. -/
structure Sys.Answered (s : Sys σ) (os : Os σ) (send : Send) : Prop where
  ids : (s.jobs.map (·.id)).Nodup
  opens : ∀ j ∈ s.jobs, ∃ p, j.dataSource = .filePath p ∧
    ∀ e ∈ j.files.entries, ∀ err, os.openFile (join p e.name) ≠ .error err
  reads : ∀ f n err, os.readFile f n ≠ .error err
  wanted : ∀ j ∈ s.jobs, j.jobSkipped = false
  sends : ∀ id err n, send (.error id err n) = .ok ()
  again : ∀ j ∈ s.jobs, (∃ err, .error j.id err j.fileNum ∈ s.sent) → Digestible os send j

/-- Nothing is asked of the other inputs. -/
def Sys.Attributes (s : Sys σ) : Input σ → Prop
  | .tick os send => s.closed = false → s.Answered os send
  | _ => True

/-- The digests that fail in a step. -/
def Sys.failures (s : Sys σ) : Input σ → List (ℤ × String × ℤ)
  | .tick os send =>
    if s.closed then [] else (s.jobs.filter (!·.isLastJob)).filterMap (digestFailure os send)
  | _ => []

/-! ### One tick -/

section

variable {p : String} (hp : j.dataSource = .filePath p)

include hp

/-- A file is open then, or the list has ended. -/
theorem openDataStream_ok
    (hopen : ∀ e ∈ j.files.entries, ∀ err, os.openFile (join p e.name) ≠ .error err) :
    ∃ j' ended, openDataStream os j = (j', .ok ended) ∧ j'.isFilePath = true ∧
      j'.jobSkipped = j.jobSkipped ∧
      if ended then j'.numFiles ≤ asUsize j'.fileNum else j'.dataStream ≠ none := by
  unfold openDataStream
  rw [hp]
  cases he : j.files.entries[asUsize j.fileNum]? with
  | none =>
    refine ⟨_, true, rfl, by simp [isFilePath], rfl, ?_⟩
    simpa [numFiles] using he
  | some e =>
    cases hs : j.dataStream with
    | some st => exact ⟨_, false, rfl, by simp [isFilePath, hp], rfl, by simp [hs]⟩
    | none =>
      cases ho : os.openFile (join p e.name) with
      | error err => exact absurd ho (hopen e (List.mem_of_getElem? he) err)
      | ok f =>
        dsimp only
        rw [ho]
        exact ⟨_, false, rfl, by simp [isFilePath], rfl, by simp⟩

theorem initDataStream_open
    (hopen : ∀ e ∈ j.files.entries, ∀ err, os.openFile (join p e.name) ≠ .error err) (send : Send) :
    let j' := (initDataStream os send j).1
    j'.isFilePath = true ∧ j'.jobSkipped = j.jobSkipped ∧
      (j'.dataStream ≠ none ∨ j'.numFiles ≤ asUsize j'.fileNum) := by
  obtain ⟨j', ended, ho, hpath, hskip, hstream⟩ := openDataStream_ok hp hopen
  unfold initDataStream
  rw [ho]
  cases ended with
  | true => exact ⟨hpath, hskip, .inr hstream⟩
  | false =>
    dsimp only
    repeat' split
    all_goals exact ⟨hpath, hskip, .inl hstream⟩

theorem digestFailure_eq_none (h : Digestible os send j) : digestFailure os send j = none := by
  have hdigest : ∀ j' : TransferJob σ, (∃ f, j'.dataStream = some (.fileStream f) ∧
      ∀ err, os.metadata f ≠ .error err) → (sendCurrentDigest os send j').2 = .ok () := by
    rintro j' ⟨f, hf, hm⟩
    unfold sendCurrentDigest getCurrentDigest
    rw [hf]
    dsimp only
    cases hmeta : os.metadata f with
    | error err => exact absurd hmeta (hm err)
    | ok => simp [h.sends]
  have hnone : ∀ j' : TransferJob σ, (sendCurrentDigest os send j').2 = .ok () →
      openDataStream os j = (j', .ok false) → digestFailure os send j = none := by
    intro j' hsent ho
    simp [digestFailure, ho, hsent]
  rcases ho : openDataStream os j with ⟨j', err | _ | _⟩
  · simp [digestFailure, ho]
  · refine hnone j' (hdigest j' ?_) ho
    unfold openDataStream at ho
    rw [hp] at ho
    dsimp only at ho
    split at ho
    · cases ho
    split at ho
    · rename_i st hs
      obtain ⟨f, rfl, hm⟩ := h.stream st hs
      cases ho
      exact ⟨f, hs, hm⟩
    · split at ho
      · rename_i f hf
        cases ho
        exact ⟨f, rfl, h.opened _ f hf⟩
      · cases ho
  · simp [digestFailure, ho]

end

theorem fillBuf_ok (hread : ∀ f n err, os.readFile f n ≠ .error err) (err : String) :
    ∀ (fuel : ℕ) (st : DataStream σ) (buf : Bytes), fillBuf os fuel st buf ≠ .error err
  | 0, _, _ => by simp [fillBuf]
  | fuel + 1, st, buf => by
    unfold fillBuf
    cases hs : streamRead os st (bufSize - buf.length) with
    | error err' =>
      cases st with
      | fileStream f =>
        cases hf : os.readFile f (bufSize - buf.length) with
        | error e => exact absurd hf (hread _ _ e)
        | ok => simp [streamRead, hf] at hs
      | bufStream => simp [streamRead] at hs
    | ok got =>
      dsimp only
      split
      · simp
      · exact fillBuf_ok hread err fuel _ _

variable (compress) in
/-- A job with an open file, or at the end of its list, reads without an error. -/
theorem read_ok (hread : ∀ f n err, os.readFile f n ≠ .error err) (hp : j.isFilePath = true)
    (h : j.dataStream ≠ none ∨ j.numFiles ≤ asUsize j.fileNum) :
    (∀ err, (j.read compress os).2 ≠ .error err) ∧
      (j.read compress os).1.jobSkipped = j.jobSkipped := by
  unfold TransferJob.read
  split
  · simp
  rw [hp, Bool.true_and]
  split
  · simp [jobSkipped, numFiles]
  rename_i hend
  obtain ⟨st, hst⟩ := Option.ne_none_iff_exists'.1 (h.resolve_right (by simpa using hend))
  unfold readBlock
  rw [hst]
  dsimp only
  split
  · rename_i err hf
    exact absurd hf (fillBuf_ok hread err _ _ _)
  · split <;> simp [jobSkipped, numFiles]

theorem initDataStream_digest (send : Send) (hopen : ∀ err, (openDataStream os j).2 ≠ .error err) :
    (initDataStream os send j).2.1.filterMap (·.error?) = [] ∧
      digestFailure os send j = match initDataStream os send j with
        | (j', _, .error err) => some (j'.id, err, j'.fileNum)
        | (_, _, .ok ()) => none := by
  unfold initDataStream digestFailure
  rcases ho : openDataStream os j with ⟨j', err | _ | _⟩
  · exact absurd (by rw [ho]) (hopen err)
  · have hk : Kept j j' := by
      rcases openDataStream_spec ho with ⟨-, hk⟩ | ⟨err, he, -⟩
      · exact hk
      · cases he
    have hsent : (sendCurrentDigest os send j').1.filterMap (·.error?) = [] := by
      unfold sendCurrentDigest
      split
      · rfl
      · split <;> rfl
    dsimp only
    split
    · rcases hd : sendCurrentDigest os send j' with ⟨out, err | _⟩ <;> rw [hd] at hsent
      · exact ⟨hsent, by simp only [id_eq_of_task hk.task, hk.fileNum]⟩
      · exact ⟨hsent, rfl⟩
    · exact ⟨rfl, rfl⟩
  · exact ⟨rfl, rfl⟩

theorem initJobs_errors (hsend : ∀ id err n, send (.error id err n) = .ok ()) :
    ∀ {js : List (TransferJob σ)},
      (∀ j ∈ js, j.isLastJob = false → ∀ err, (openDataStream os j).2 ≠ .error err) →
      (initJobs os send js).2.1.filterMap (·.error?) =
          (js.filter (!·.isLastJob)).filterMap (digestFailure os send) ∧
        (initJobs os send js).2.2 = .ok ()
  | [], _ => ⟨rfl, rfl⟩
  | j :: js, hopen => by
    obtain ⟨ih, hres⟩ := initJobs_errors hsend fun i hi => hopen i (List.mem_cons_of_mem _ hi)
    unfold initJobs
    cases hlast : j.isLastJob with
    | true => exact ⟨by simp [hlast, ih], by simp [hres]⟩
    | false =>
      obtain ⟨hsent, hfail⟩ := initDataStream_digest send (hopen j List.mem_cons_self hlast)
      rcases hi : initDataStream os send j with ⟨j', out, err | _⟩ <;> rw [hi] at hsent hfail
      · simp [hlast, hsend, hres, ih, hsent, hfail]
      · simp [hlast, hres, ih, hsent, hfail]

theorem serve_errors (send : Send) (h : ∀ err, (j.read compress os).2 ≠ .error err)
    (hskip : (j.read compress os).1.jobSkipped = false) :
    (serve compress os send j).2.1.filterMap (·.error?) = [] := by
  have hone : ∀ m, m.error? = none → (sendOne send m).1.filterMap (·.error?) = [] := by
    intro m hm
    unfold sendOne
    split
    · simp [hm]
    · rfl
  unfold serve
  rcases hr : j.read compress os with ⟨j', err | _ | b⟩
  · exact absurd (by rw [hr]) (h err)
  · rw [hr] at hskip
    have herr : j'.jobError = none := by simp [jobError, hskip]
    simp only [herr]
    split
    · exact hone _ rfl
    · rfl
  · exact hone _ rfl

theorem failed_foldl {c : Errors} (hgeneric : ∀ x ∈ c.jobs, x.2 = .generic)
    (ms : List FileResponse) :
    (ms.foldl Errors.handle c).failed = c.failed ++ ms.filterMap (·.error?) := by
  induction ms generalizing c with
  | nil => simp
  | cons m ms ih =>
    cases m with
    | error id =>
      have htype : ((c.jobs.find? (·.1 == id)).map (·.2)).getD .generic = .generic := by
        cases hf : c.jobs.find? (·.1 == id) with
        | none => rfl
        | some x => exact hgeneric x (List.mem_of_find?_eq_some hf)
      rw [List.foldl_cons, ih fun x hx => hgeneric x (List.mem_of_mem_eraseP hx)]
      simp [Errors.handle, htype, FileResponse.error?]
    | _ => simpa [Errors.handle, FileResponse.error?] using ih hgeneric

/-- The errors of a tick are those of the digests that fail. -/
theorem tick_errors {s : Sys σ} (compress : Bytes → Bytes) (h : s.Answered os send) :
    (handleReadJobs compress os send s.jobs).sent.filterMap (·.error?) =
      (s.jobs.filter (!·.isLastJob)).filterMap (digestFailure os send) := by
  have hopens : ∀ j ∈ s.jobs, j.isLastJob = false → ∀ err, (openDataStream os j).2 ≠ .error err := by
    intro j hj _ err
    obtain ⟨p, hp, hopen⟩ := h.opens j hj
    obtain ⟨j', ended, ho, -⟩ := openDataStream_ok hp hopen
    simp [ho]
  obtain ⟨herr, hres⟩ := initJobs_errors h.sends hopens
  rcases hi : initJobs os send s.jobs with ⟨js', out, res⟩
  rw [hi] at herr hres
  obtain rfl : res = .ok () := hres
  have hserved : (readFirst compress os send js').sent.filterMap (·.error?) = [] := by
    rcases readFirst_rel compress (initJobs_rel hi) with ⟨-, hr⟩ |
      ⟨pre, j, j', post, -, -, hs, hl, hrel, j'', out', fin, log, res, hsv, hr⟩
    · rw [hr]
      rfl
    · have hj := List.mem_of_find?_eq_some hs
      obtain ⟨p, hp, hopen⟩ := h.opens j hj
      rcases hrel with ⟨ht, -⟩ | ⟨-, out'', res', hinit, -⟩
      · simp [hl] at ht
      · obtain ⟨hpath, hskip, hstream⟩ := initDataStream_open hp hopen send
        rw [hinit] at hpath hskip hstream
        obtain ⟨hok, hskip'⟩ := read_ok compress h.reads hpath hstream
        have herrors := serve_errors send hok (hskip'.trans (hskip.trans (h.wanted j hj)))
        rw [hr]
        simpa [hsv] using herrors
  rw [handleReadJobs, hi]
  dsimp only
  split
  · simp [hserved, herr]
  · split <;> simp [hserved, herr]

/-! ### Runs -/

/-- A failure is that of the current file of a job. -/
theorem digestFailure_some {x : ℤ × String × ℤ} (h : digestFailure os send j = some x) :
    ∃ err, x = (j.id, err, j.fileNum) := by
  unfold digestFailure at h
  split at h
  · split at h
    · split at h
      · exact ⟨_, (Option.some.inj h).symm⟩
      · cases h
    · cases h
  · cases h

/-- The files that errors were sent for. -/
def reported (ms : List FileResponse) : List (ℤ × ℤ) :=
  (ms.filterMap (·.error?)).map fun x => (x.1, x.2.2)

theorem mem_reported {ms : List FileResponse} {id n : ℤ} (h : (id, n) ∈ reported ms) :
    ∃ err, .error id err n ∈ ms := by
  obtain ⟨⟨id', err, n'⟩, hx, heq⟩ := List.mem_map.1 h
  obtain ⟨m, hm, he⟩ := List.mem_filterMap.1 hx
  cases heq
  cases m with
  | error =>
    cases he
    exact ⟨err, hm⟩
  | digest | block | done => cases he

theorem step_errors {s : Sys σ} (compress : Bytes → Bytes) {i : Input σ} (h : s.Attributes i) :
    (s.step compress i).sent.filterMap (·.error?) =
        s.sent.filterMap (·.error?) ++ s.failures i ∧
      ((reported s.sent).Nodup → (reported (s.step compress i).sent).Nodup) := by
  cases hc : s.closed with
  | true => cases i <;> simp [Sys.step, Sys.failures, hc]
  | false =>
    cases i with
    | add | resume | cancel => simp [Sys.step, Sys.failures, hc]
    | confirm os r =>
      simp only [Sys.step, Sys.failures, hc, Bool.false_eq_true, if_false]
      split <;> simp
    | tick os send =>
      have h := h hc
      have herr := tick_errors compress h
      simp only [Sys.step, Sys.failures, hc, Bool.false_eq_true, if_false, reported,
        List.filterMap_append, List.map_append, herr]
      refine ⟨trivial, fun hnodup => List.nodup_append.2 ⟨hnodup, ?_, ?_⟩⟩
      · rw [List.Nodup, List.pairwise_map, List.pairwise_filterMap]
        refine ((List.pairwise_map.1 h.ids).filter _).imp fun hne x hx y hy heq => hne ?_
        obtain ⟨err, rfl⟩ := digestFailure_some hx
        obtain ⟨err', rfl⟩ := digestFailure_some hy
        exact (Prod.mk.inj heq).1
      · -- the digest of a file that was reported is sent now
        rintro x hx y hy rfl
        obtain ⟨z, hz, rfl⟩ := List.mem_map.1 hy
        obtain ⟨j, hj, hfail⟩ := List.mem_filterMap.1 hz
        have hj := (List.mem_filter.1 hj).1
        obtain ⟨err, rfl⟩ := digestFailure_some hfail
        obtain ⟨p, hp, -⟩ := h.opens j hj
        have hnone := digestFailure_eq_none hp (h.again j hj (mem_reported hx))
        rw [hnone] at hfail
        cases hfail

theorem run_errors (compress : Bytes → Bytes) {s : Sys σ} {is : List (Input σ)}
    (h : Run.Meets (Sys.step compress) Sys.Attributes s is) :
    (Run.run (Sys.step compress) s is).sent.filterMap (·.error?) =
        s.sent.filterMap (·.error?) ++ Run.trace (Sys.step compress) Sys.failures s is ∧
      ((reported s.sent).Nodup → (reported (Run.run (Sys.step compress) s is).sent).Nodup) := by
  induction is generalizing s with
  | nil => simp [Run.trace]
  | cons i is ih =>
    obtain ⟨hsent, hnodup⟩ := step_errors compress h.1
    obtain ⟨hsent', hnodup'⟩ := ih h.2
    rw [Run.run_cons, hsent', hsent, Run.trace, List.append_assoc]
    exact ⟨rfl, fun hs => hnodup' (hnodup hs)⟩

/-- The files can be opened and their digests cannot be made. -/
def osStale : Os Bytes :=
  { osWith "" [] with openFile := fun _ => .ok [7, 8], metadata := fun _ => .error "stale" }

def staleRun : List (Input Bytes) :=
  [.add false 1 .generic (.filePath "d") 0 twoFiles true, .tick osStale fun _ => .ok ()]

end CodeDesk.Fs
