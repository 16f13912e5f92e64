/-
# Runs of a write job

The invariant of `Fs/Promotion.lean` over every sequence of calls on a write
job, from any contents of the destination: what stands at the final path of
an entry is what stood there before or one complete opening of the entry, and
an opening starts from nothing unless a confirm resumed it at an offset.
-/
import CodeDesk.Fs.Containment

namespace CodeDesk.Fs

open Files

namespace WriteSys

variable {json : FileDigest → Bytes} {decompress : Bytes → Bytes} {io : Io} {p : String}
  {files : FileList} {fs₀ : Dir} {s s' : WriteSys}

/-! ### Where the openings come from -/

/-- Every opening of the history meets `Q`, a condition on how it was opened. -/
def Openings (Q : Bytes → ℕ → Prop) (s : WriteSys) : Prop :=
  ∀ o ∈ s.closed ++ s.cur.toList, Q o.base o.off

variable {Q : Bytes → ℕ → Prop}

theorem Openings.close {job : TransferJob (Handle Key)} {fs : Dir} {cur : Option Opening}
    (h : s.Openings Q) (hQ : ∀ o ∈ cur, Q o.base o.off) :
    Openings Q { s.closeCur with job := job, fs := fs, cur := cur } := by
  intro o ho
  rcases List.mem_append.mp ho with ho | ho
  · exact h o ho
  · exact hQ o (by simpa using ho)

theorem Openings.effect {K : Key → Prop} {N : ℤ → Prop} (h : s.Openings Q) (hQ : Q [] 0)
    (he : Effect K N s s') : s'.Openings Q := by
  intro o ho
  rcases he.history o ho with ⟨hb, hoff⟩ | ⟨o', ho', hb, hoff⟩
  · rwa [hb, hoff]
  · rw [← hb, ← hoff]
    exact h o' ho'

variable {i : WriteInput}

theorem openings_confirm {r : SendConfirmRequest} (hsrc : s.job.dataSource = .filePath p)
    (h : s.Openings Q) (hc : s.confirm io r = some s')
    (hQ : ∀ base off, r.union = some (ConfirmUnion.offsetBlk off) → 0 < off → Q base off) :
    s'.Openings Q := by
  unfold confirm at hc
  split at hc
  · cases hc
  rename_i job hj
  split_ifs at hc with hs
  · cases hc
    exact h
  cases hc
  refine Openings.close (s := s) h fun o ho => ?_
  rcases confirm_stream hj with hsame | hnone | ⟨-, off, hu, hoff, hset⟩
  · exact absurd hsame hs
  · simp [resumed, hnone] at ho
  rcases setStreamOffset_file (j := s.job.setFileConfirmed true) hsrc hset with
    hsame | ⟨hd, e, hstream, -, hpos, -⟩
  · exact absurd hsame hs
  have hoff' : o.off = off := by
    simp only [resumed, hstream] at ho
    split at ho
    · obtain ⟨path, -, rfl⟩ := Option.map_eq_some_iff.mp (Option.mem_def.mp ho)
      exact hpos
    · cases ho
  rw [hoff']
  exact hQ _ off hu hoff

/-! ### Runs -/

/-- A call that promotes a partial file promotes the one the job has open; a
write gets all its bytes out, and with a stream open it can open the next
entry. -/
def StepOk (s : WriteSys) : WriteInput → Prop
  | .write io b => s.writeOk io b = true
  | .modifyTime io => s.promoteOk io = true
  | _ => True

instance (s : WriteSys) (i : WriteInput) : Decidable (s.StepOk i) := by
  cases i <;> unfold StepOk <;> infer_instance

theorem inv_step (ha : PathsApart p files) (h : Inv p files fs₀ s)
    (hok : s.StepOk i) : Inv p files fs₀ (s.step json decompress i) := by
  cases i with
  | write => exact inv_write ha h hok
  | confirm io r =>
    simp only [step]
    cases hc : s.confirm io r with
    | none => exact h
    | some => exact inv_confirm h hc
  | modifyTime => exact inv_modifyTime ha h hok
  | removeDownloadFile => exact inv_removeDownloadFile ha h
  | setDigest =>
    exact { h with }

theorem openings_step (hsrc : s.job.dataSource = .filePath p) (h : s.Openings Q)
    (hnew : Q [] 0) (hresume : ∀ io r off, i = .confirm io r →
      r.union = some (ConfirmUnion.offsetBlk off) → 0 < off → ∀ base, Q base off) :
    Openings Q (s.step json decompress i) := by
  cases i with
  | write io b => exact h.effect hnew (effect_write json decompress io s b)
  | confirm io r =>
    simp only [step]
    cases hc : s.confirm io r with
    | none => exact h
    | some =>
      exact openings_confirm hsrc h hc fun base off hu ho => hresume io r off rfl hu ho base
  | modifyTime io => exact h.effect hnew (effect_modifyTime (N := fun _ => False) io s)
  | removeDownloadFile io =>
    exact h.effect hnew (effect_removeDownloadFile (N := fun _ => False) io s)
  | setDigest => exact h

def partialDir : Dir := fun k =>
  if k = components "d/a.download" then some [1, 2]
  else if k = components "d/a.digest" then some [0]
  else none

def entriesAB : FileList := ⟨[⟨"a", 3, 0⟩, ⟨"b", 1, 0⟩], by decide⟩

/-- `a` is resumed at offset 2 and `b` follows: both are promoted. -/
def resumeRun : List WriteInput :=
  [.confirm .plain ⟨1, 0, some (.offsetBlk 2)⟩, .write .plain ⟨1, 0, [3], false⟩,
   .write .plain ⟨1, 1, [4], false⟩, .modifyTime .plain]

end WriteSys

end CodeDesk.Fs
