/-
# The network delay of a user

`RttCalculator` and `UserDelay` of `src/server/video_qos.rs`: three bounded
memories of the same samples (the smallest ever, the last 60 and the last
three) from which the delay is to be what the last three took on average
above the round trip. From ten samples on the estimate of the round trip is
the mean of the smallest sample and the smallest of the last 60
(`getRtt_eq`): before 60 samples the two are the same.

The estimate is never above the average, but `avg_delay` subtracts it only if
it is below. When the two are equal the whole average counts as delay: on a
line where every packet takes 100 ms, and no longer, it is 100 and not 0
(`delay_of_steady_line`).

The weighted mean is computed in `f32` in the source; here it is that of the
integers.
-/
import Mathlib.Algebra.Order.BigOperators.Group.List
import Mathlib.Algebra.Group.Action.Defs
import Mathlib.Algebra.Order.Ring.Nat
import Mathlib.Data.List.DropRight
import CodeDesk.Run

namespace CodeDesk.Server

structure RttCalculator where
  minRtt : Option ℕ := none
  windowMinRtt : Option ℕ := none
  smoothedRtt : Option ℕ := none
  samples : List ℕ := []

namespace RttCalculator

def windowSamples : ℕ := 60

def minSamples : ℕ := 10

def update (c : RttCalculator) (delay : ℕ) : RttCalculator :=
  let minRtt := match c.minRtt with
    | some m => if delay < m then some delay else some m
    | none => some delay
  let samples :=
    (if windowSamples ≤ c.samples.length then c.samples.tail else c.samples) ++ [delay]
  let windowMinRtt := samples.min?
  let smoothedRtt := if windowSamples ≤ samples.length then
      match minRtt, windowMinRtt with
      | some m, some w => some ((m + w) / 2)
      | _, _ => c.smoothedRtt
    else c.smoothedRtt
  { minRtt, windowMinRtt, smoothedRtt, samples }

def getRtt (c : RttCalculator) : Option ℕ :=
  match c.smoothedRtt with
  | some rtt => some rtt
  | none => if minSamples ≤ c.samples.length then c.minRtt else none

end RttCalculator

structure UserDelay where
  delayHistory : List ℕ := []
  rttCalculator : RttCalculator := {}

namespace UserDelay

def historyDelayLen : ℕ := 2

def addDelay (u : UserDelay) (delay : ℕ) : UserDelay where
  rttCalculator := u.rttCalculator.update delay
  delayHistory :=
    (if historyDelayLen < u.delayHistory.length then u.delayHistory.tail else u.delayHistory) ++
      [delay]

def avgDelay (u : UserDelay) : ℕ :=
  if 0 < u.delayHistory.length then
    let avg := u.delayHistory.sum % 2 ^ 32 / u.delayHistory.length
    match u.rttCalculator.getRtt with
    | some rtt => if rtt < avg then avg - rtt else avg
    | none => avg
  else 150

end UserDelay

/-! ### What is remembered -/

variable {ds : List ℕ} {c : RttCalculator} {u : UserDelay} {d m n : ℕ}

/-- A queue that drops its head when it is full holds the last samples. -/
theorem push_rtake :
    (if n < (ds.rtake (n + 1)).length then (ds.rtake (n + 1)).tail else ds.rtake (n + 1)) ++ [d] =
      (ds ++ [d]).rtake (n + 1) := by
  rw [List.rtake_concat_succ]
  congr 1
  rw [List.rtake, List.length_drop, List.tail_drop]
  split
  · congr 1
    omega
  · congr 1
    omega

theorem min?_concat (h : ds.min? = some m) :
    (ds ++ [d]).min? = if d < m then some d else some m := by
  obtain ⟨hm, hle⟩ := List.min?_eq_some_iff.1 h
  split <;> rename_i hlt <;> refine List.min?_eq_some_iff.2 ⟨by simp [hm], fun b hb => ?_⟩ <;>
    rcases List.mem_append.1 hb with hb | hb
  · exact hlt.le.trans (hle b hb)
  · exact (List.mem_singleton.1 hb).ge
  · exact hle b hb
  · exact (List.mem_singleton.1 hb) ▸ not_lt.1 hlt

theorem exists_min? (h : ds ≠ []) : ∃ m, ds.min? = some m := by
  cases ds with
  | nil => exact absurd rfl h
  | cons => exact ⟨_, List.min?_cons⟩

structure RttCalculator.After (ds : List ℕ) (c : RttCalculator) : Prop where
  samples : c.samples = ds.rtake 60
  minRtt : c.minRtt = ds.min?
  early : ds.length < 60 → c.smoothedRtt = none
  late : 60 ≤ ds.length → ∀ m ∈ ds.min?, ∀ w ∈ (ds.rtake 60).min?,
    c.smoothedRtt = some ((m + w) / 2)

theorem RttCalculator.update_smoothed (c : RttCalculator) (d : ℕ) :
    (c.update d).smoothedRtt = if 60 ≤ (c.update d).samples.length then
      match (c.update d).minRtt, (c.update d).samples.min? with
      | some m, some w => some ((m + w) / 2)
      | _, _ => c.smoothedRtt
    else c.smoothedRtt := rfl

theorem RttCalculator.After.update (h : c.After ds) (d : ℕ) : (c.update d).After (ds ++ [d]) := by
  have hsamples : (c.update d).samples = (ds ++ [d]).rtake 60 := by
    rw [← push_rtake (n := 59), ← h.samples]
    rfl
  have hmin : (c.update d).minRtt = (ds ++ [d]).min? := by
    cases hm : ds.min? with
    | none =>
      obtain rfl := List.min?_eq_none_iff.1 hm
      simp [RttCalculator.update, h.minRtt]
    | some => rw [min?_concat hm, RttCalculator.update, h.minRtt, hm]
  have hlen : (c.update d).samples.length = min 60 (ds ++ [d]).length := by
    rw [hsamples, List.rtake, List.length_drop]
    omega
  refine ⟨hsamples, hmin, fun hlt => ?_, fun hle m hm w hw => ?_⟩
  · rw [RttCalculator.update_smoothed, if_neg (by omega)]
    rw [List.length_append] at hlt
    exact h.early (by omega)
  · rw [RttCalculator.update_smoothed, if_pos (by omega), hmin, hsamples, hm, hw]

structure UserDelay.After (ds : List ℕ) (u : UserDelay) : Prop where
  history : u.delayHistory = ds.rtake 3
  rtt : u.rttCalculator.After ds

theorem UserDelay.after_run (ds : List ℕ) : (Run.run UserDelay.addDelay {} ds).After ds := by
  induction ds using List.reverseRecOn with
  | nil => exact ⟨rfl, rfl, rfl, fun _ => rfl, nofun⟩
  | append_singleton ds d ih =>
    rw [Run.run_append]
    refine ⟨?_, ih.rtt.update d⟩
    rw [← push_rtake (n := 2), ← ih.history]
    rfl

/-! ### The estimate and the average -/

/-- From ten samples on the round trip is taken to be the mean of the smallest
sample and the smallest of the last 60. -/
theorem getRtt_eq (h : c.After ds) (h10 : 10 ≤ ds.length) :
    ∃ m w, ds.min? = some m ∧ (ds.rtake 60).min? = some w ∧ c.getRtt = some ((m + w) / 2) := by
  have hne : ds.rtake 60 ≠ [] := by
    rw [List.rtake, ne_eq, List.drop_eq_nil_iff]
    omega
  obtain ⟨m, hm⟩ : ∃ m, ds.min? = some m := exists_min? (by rintro rfl; simp at h10)
  obtain ⟨w, hw⟩ := exists_min? hne
  refine ⟨m, w, hm, hw, ?_⟩
  by_cases hlate : 60 ≤ ds.length
  · rw [RttCalculator.getRtt, h.late hlate m hm w hw]
  -- the window still holds every sample
  have hall : ds.rtake 60 = ds := by
    rw [List.rtake, Nat.sub_eq_zero_of_le (by omega), List.drop_zero]
  obtain rfl : m = w := Option.some.inj (by rw [← hm, ← hw, hall])
  rw [RttCalculator.getRtt, h.early (by omega), h.samples, hall]
  simp only
  rw [if_pos (by exact h10), h.minRtt, hm]
  congr 1
  omega

def average (l : List ℕ) : ℕ := l.sum / l.length

variable {l : List ℕ}

theorem le_average {r : ℕ} (hne : l ≠ []) (h : ∀ d ∈ l, r ≤ d) : r ≤ average l := by
  rw [average, Nat.le_div_iff_mul_le (List.length_pos_iff.2 hne), mul_comm, ← smul_eq_mul]
  exact List.card_nsmul_le_sum l r h

theorem average_map_add (hne : l ≠ []) (k : ℕ) : average (l.map (· + k)) = average l + k := by
  have hsum : (l.map (· + k)).sum = l.sum + l.length * k := by
    simp
  rw [average, hsum, List.length_map, Nat.add_mul_div_left _ _ (List.length_pos_iff.2 hne), average]

theorem min?_map_add (h : l.min? = some m) (k : ℕ) : (l.map (· + k)).min? = some (m + k) := by
  obtain ⟨hm, hle⟩ := List.min?_eq_some_iff.1 h
  refine List.min?_eq_some_iff.2 ⟨List.mem_map_of_mem hm, fun b hb => ?_⟩
  obtain ⟨d, hd, rfl⟩ := List.mem_map.1 hb
  exact Nat.add_le_add_right (hle d hd) k

theorem rtake_map_add (k : ℕ) : (ds.map (· + k)).rtake n = (ds.rtake n).map (· + k) := by
  rw [List.rtake, List.rtake, List.length_map, List.map_drop]

theorem avgDelay_eq (h : u.After ds) (h3 : 3 ≤ ds.length) (hlt : ∀ d ∈ ds, d < 2 ^ 24) {r : ℕ}
    (hr : u.rttCalculator.getRtt = some r) :
    u.avgDelay = if r < average (ds.rtake 3) then average (ds.rtake 3) - r
      else average (ds.rtake 3) := by
  have hlen : (ds.rtake 3).length = 3 := by
    rw [List.rtake, List.length_drop]
    omega
  -- three samples below `2 ^ 24` do not overflow the sum
  have hsum : (ds.rtake 3).sum < 2 ^ 32 := by
    have := List.sum_le_card_nsmul (ds.rtake 3) (2 ^ 24) fun d hd =>
      (hlt d (List.mem_of_mem_drop hd)).le
    rw [hlen, smul_eq_mul] at this
    omega
  simp only [UserDelay.avgDelay, h.history, hlen, hr, Nat.mod_eq_of_lt hsum, average]
  rfl

/-- The estimate is at most every recent sample and at most the average, and
it moves with the samples. What `avg_delay` returns is the difference exactly
where the two differ, or both are zero; there, and only there, does it stay
when all samples grow by the same. -/
theorem avg_delay_above_rtt (ds : List ℕ) (h10 : 10 ≤ ds.length) (hlt : ∀ d ∈ ds, d < 2 ^ 24) :
    ∃ r, (Run.run UserDelay.addDelay {} ds).rttCalculator.getRtt = some r ∧
      (∀ d ∈ ds.rtake 60, r ≤ d) ∧ r ≤ average (ds.rtake 3) ∧
      ((Run.run UserDelay.addDelay {} ds).avgDelay = average (ds.rtake 3) - r ↔
        average (ds.rtake 3) = r → r = 0) ∧
      ∀ k, (∀ d ∈ ds, d + k < 2 ^ 24) → 0 < k →
        ((Run.run UserDelay.addDelay {} (ds.map (· + k))).avgDelay =
          (Run.run UserDelay.addDelay {} ds).avgDelay ↔ average (ds.rtake 3) ≠ r) := by
  have hu := UserDelay.after_run ds
  obtain ⟨m, w, hm, hw, hr⟩ := getRtt_eq hu.rtt h10
  have hle : ∀ d ∈ ds.rtake 60, (m + w) / 2 ≤ d := by
    intro d hd
    have hmd := (List.min?_eq_some_iff.1 hm).2 d (List.mem_of_mem_drop hd)
    have hwd := (List.min?_eq_some_iff.1 hw).2 d hd
    omega
  have hne : ds.rtake 3 ≠ [] := by
    rw [List.rtake, ne_eq, List.drop_eq_nil_iff]
    omega
  have havg : (m + w) / 2 ≤ average (ds.rtake 3) := by
    refine le_average hne fun d hd => hle d ?_
    rw [List.rtake, show ds.length - 3 = (ds.length - 60) + (ds.length - 3 - (ds.length - 60)) by omega,
      ← List.drop_drop] at hd
    exact List.mem_of_mem_drop hd
  have heq := avgDelay_eq hu (by omega) hlt hr
  refine ⟨_, hr, hle, havg, ?_, fun k hk hpos => ?_⟩
  · rw [heq]
    split <;> omega
  · have hu' := UserDelay.after_run (ds.map (· + k))
    have h10' : 10 ≤ (ds.map (· + k)).length := by rwa [List.length_map]
    obtain ⟨m', w', hm', hw', hr'⟩ := getRtt_eq hu'.rtt h10'
    rw [min?_map_add hm] at hm'
    rw [rtake_map_add, min?_map_add hw] at hw'
    cases hm'
    cases hw'
    have heq' := avgDelay_eq hu' (by omega) (by simpa using hk) hr'
    rw [rtake_map_add, average_map_add hne] at heq'
    rw [heq, heq']
    split <;> split <;> omega

/-- Ten packets, the last of which took 30 ms more. -/
theorem avg_delay_above_rtt_spike :
    (Run.run UserDelay.addDelay {} (List.replicate 9 100 ++ [130])).avgDelay = 110 - 100 := by
  obtain ⟨r, hr, -, -, hdelay, -⟩ :=
    avg_delay_above_rtt (List.replicate 9 100 ++ [130]) (by decide) (by decide)
  obtain rfl : 100 = r := Option.some.inj hr
  exact hdelay.2 (by decide)

/-- Every packet takes 100 ms: the average is the estimate, and the delay is
100 and not 0. With 50 ms more on every packet it is 150. -/
theorem delay_of_steady_line : let u := Run.run UserDelay.addDelay {} (List.replicate 10 100)
    u.rttCalculator.getRtt = some 100 ∧ average u.delayHistory = 100 ∧ u.avgDelay = 100 ∧
      (Run.run UserDelay.addDelay {} (List.replicate 10 150)).avgDelay = 150 := by
  decide

end CodeDesk.Server
