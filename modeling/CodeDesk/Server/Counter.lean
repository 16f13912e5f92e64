/-
# The counter of a frame in shared memory

A counter of `src/server/portable_service.rs` is two `i32` side by side: the
writer increases the first with each frame, and the reader sets the second to
it when it takes the frame. `increase_counter` means to move the reader's
value away when it lands on it, but reads the writer's value twice, so that it
never does: with the reader's value just ahead, the frame is missed
(`frame_missed`), and in no other case (`seen_once_iff`).

The capture loop increases the counter only where the two agree, except for
the first frame of a capturer, which may replace one that nobody took. From
counters that agree each frame of a capturer is then taken exactly once, over
any number of wrap-arounds (`taken_run`).
-/
import CodeDesk.Run

namespace CodeDesk.Server

structure Counter where
  write : Int32
  read : Int32

namespace Counter

/-- `iw_plus1` of `increase_counter`. -/
def plus1 (iw : Int32) : Int32 := if iw = Int32.maxValue then 0 else iw + 1

/-- What is returned, and the counter then. -/
def counterReady (c : Counter) : Bool × Counter :=
  if c.read ≠ c.write then (true, { c with read := c.write }) else (false, c)

def counterEqual (c : Counter) : Bool := c.write = c.read

def increaseCounter (c : Counter) : Counter :=
  let iw := c.write
  let ir := c.write
  let c := { c with write := plus1 iw }
  if ir = plus1 iw then { c with read := iw } else c

variable (c : Counter)

theorem plus1_ne (iw : Int32) : plus1 iw ≠ iw := by
  unfold plus1
  split_ifs with h
  · rw [h]
    decide
  · simp

theorem increaseCounter_eq : c.increaseCounter = { c with write := plus1 c.write } :=
  if_neg (plus1_ne c.write).symm

theorem counterReady_twice : c.counterReady.2.counterReady.1 = false := by
  unfold counterReady
  split <;> simp_all

theorem seen_once_iff : c.increaseCounter.counterReady.1 = true ∧
    c.increaseCounter.counterReady.2.counterReady.1 = false ↔ c.read ≠ plus1 c.write := by
  rw [counterReady_twice, increaseCounter_eq, counterReady]
  split <;> simp_all

theorem frame_missed : (increaseCounter ⟨0, 1⟩).counterReady.1 = false := by decide

end Counter

/-! ### The loop with one capturer, and the reader -/

/-- `published` and `taken` count, as history, the frames written and those the reader took. -/
structure Capture where
  counter : Counter
  firstFrameCaptured : Bool := false
  published : ℕ := 0
  taken : ℕ := 0

inductive Turn where
  | frame
  | poll

def Capture.step (s : Capture) : Turn → Capture
  | .frame =>
    if s.firstFrameCaptured && !s.counter.counterEqual then s
    else
      { s with
        counter := s.counter.increaseCounter
        firstFrameCaptured := true
        published := s.published + 1 }
  | .poll =>
    { s with
      counter := s.counter.counterReady.2
      taken := s.taken + s.counter.counterReady.1.toNat }

/-- A frame that is not taken yet is the only one, and the counter tells. -/
def Capture.Level (s : Capture) : Prop :=
  if s.counter.read = s.counter.write then s.taken = s.published
  else s.firstFrameCaptured = true ∧ s.taken + 1 = s.published

theorem Capture.Level.step {s : Capture} (h : s.Level) (i : Turn) : (s.step i).Level := by
  cases i with
  | frame =>
    have hne := (Counter.plus1_ne s.counter.write).symm
    by_cases he : s.counter.read = s.counter.write
    · simp_all [Level, Capture.step, Counter.counterEqual, Counter.increaseCounter_eq]
    · have he' := Ne.symm he
      simp_all [Level, Capture.step, Counter.counterEqual]
  | poll =>
    by_cases he : s.counter.read = s.counter.write <;>
      simp_all [Level, Capture.step, Counter.counterReady]

theorem Capture.taken_run (c : Counter) (hc : c.read = c.write) (is : List Turn) :
    (Run.run step ⟨c, false, 0, 0⟩ is).Level :=
  Run.inv_run (fun _ i h => h.step i) (by simp [Level, hc]) is

theorem Capture.taken_run_wraps : (Run.run step ⟨⟨2147483647, 2147483647⟩, false, 0, 0⟩
    [.frame, .frame, .poll, .frame]).Level :=
  taken_run _ rfl _

end CodeDesk.Server
