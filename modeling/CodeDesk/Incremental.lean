/-
# Decoders that are fed in chunks

A decoder is called on a buffer that fills as input arrives. A call gives an
item, asks for more input, or fails, and leaves a state and what it did not
use of the buffer. A reader calls it until it asks for more (`drain`), appends
the next chunk, and calls it again (`feed`); after a failure it is not called
any more and input only piles up.

The laws of `Decoder` say that what a call gives does not change when more
input stands behind the buffer. They are enough for the chunks not to matter:
`feed_flatten`, feeding the chunks one by one is feeding their concatenation.
-/
import Mathlib.Data.List.Basic

namespace Incremental

/-- What a call gives, with the state and the buffer it leaves. -/
inductive Call (σ β φ ε : Type*) where
  | item (f : φ) (s : σ) (buf : List β)
  | more (s : σ) (buf : List β)
  | fail (e : ε) (s : σ) (buf : List β)

/-- A decoder with states `σ`, input `β`, items `φ` and errors `ε`. An item
uses up some input or some of the weight of the state, so a reader cannot get
items forever. -/
structure Decoder (σ β φ ε : Type*) where
  call : σ → List β → Call σ β φ ε
  weight : σ → ℕ
  item_lt : ∀ {s buf f s' rest}, call s buf = .item f s' rest →
    rest.length + weight s' < buf.length + weight s
  item_append : ∀ {s buf f s' rest}, call s buf = .item f s' rest →
    ∀ input, call s (buf ++ input) = .item f s' (rest ++ input)
  more_append : ∀ {s buf s' rest}, call s buf = .more s' rest →
    ∀ input, call s (buf ++ input) = call s' (rest ++ input)
  fail_append : ∀ {s buf e s' rest}, call s buf = .fail e s' rest →
    ∀ input, call s (buf ++ input) = .fail e s' (rest ++ input)

/-- What a reader has: the items so far, the decoder's state, the buffer, and
the first error. -/
structure Reader (σ β φ ε : Type*) where
  items : List φ
  state : σ
  buf : List β
  error : Option ε

variable {σ β φ ε : Type*} (D : Decoder σ β φ ε)

/-! ### Draining a buffer -/

/-- At most `fuel` calls. -/
def drainFuel : ℕ → List φ → σ → List β → Reader σ β φ ε
  | 0, fs, s, buf => ⟨fs, s, buf, none⟩
  | fuel + 1, fs, s, buf =>
    match D.call s buf with
    | .item f s' rest => drainFuel fuel (fs ++ [f]) s' rest
    | .more s' rest => ⟨fs, s', rest, none⟩
    | .fail e s' rest => ⟨fs, s', rest, some e⟩

/-- Calls until the decoder asks for more input or fails; there are fewer
items than the fuel. -/
def drain (fs : List φ) (s : σ) (buf : List β) : Reader σ β φ ε :=
  drainFuel D (buf.length + D.weight s + 1) fs s buf

variable {D} {fs : List φ} {s s' : σ} {buf rest : List β} {f : φ} {e : ε}

theorem drainFuel_congr {fuel fuel' : ℕ} (h : buf.length + D.weight s < fuel)
    (h' : buf.length + D.weight s < fuel') :
    drainFuel D fuel fs s buf = drainFuel D fuel' fs s buf := by
  induction fuel generalizing fuel' fs s buf with
  | zero => omega
  | succ fuel ih =>
    obtain ⟨fuel', rfl⟩ : ∃ n, fuel' = n + 1 := ⟨fuel' - 1, by omega⟩
    unfold drainFuel
    cases hc : D.call s buf with
    | item =>
      have hlt := D.item_lt hc
      exact ih (by omega) (by omega)
    | more | fail => rfl

theorem drain_item (h : D.call s buf = .item f s' rest) :
    drain D fs s buf = drain D (fs ++ [f]) s' rest := by
  have hlt := D.item_lt h
  have hstep : drain D fs s buf = drainFuel D (buf.length + D.weight s) (fs ++ [f]) s' rest := by
    rw [drain, drainFuel, h]
  rw [hstep, drain]
  exact drainFuel_congr (by omega) (by omega)

theorem drain_more (h : D.call s buf = .more s' rest) : drain D fs s buf = ⟨fs, s', rest, none⟩ := by
  rw [drain, drainFuel, h]

theorem drain_fail (h : D.call s buf = .fail e s' rest) :
    drain D fs s buf = ⟨fs, s', rest, some e⟩ := by
  rw [drain, drainFuel, h]

theorem drain_congr {t : σ} {buf' : List β} (h : D.call s buf = D.call t buf') :
    drain D fs s buf = drain D fs t buf' := by
  cases hc : D.call t buf' with
  | item => rw [drain_item (h.trans hc), drain_item hc]
  | more => rw [drain_more (h.trans hc), drain_more hc]
  | fail => rw [drain_fail (h.trans hc), drain_fail hc]

theorem drain_items (gs : List φ) :
    (drain D (gs ++ fs) s buf).items = gs ++ (drain D fs s buf).items := by
  induction hn : buf.length + D.weight s using Nat.strongRecOn generalizing fs s buf with
  | _ n ih =>
    cases hc : D.call s buf with
    | item =>
      have hlt := D.item_lt hc
      rw [drain_item hc, drain_item hc, List.append_assoc]
      exact ih _ (by omega) rfl
    | more => rw [drain_more hc, drain_more hc]
    | fail => rw [drain_fail hc, drain_fail hc]

theorem drain_inv {I : List φ → σ → List β → Prop}
    (hitem : ∀ {fs s buf f s' rest}, I fs s buf → D.call s buf = .item f s' rest →
      I (fs ++ [f]) s' rest)
    (hmore : ∀ {fs s buf s' rest}, I fs s buf → D.call s buf = .more s' rest → I fs s' rest)
    (hfail : ∀ {fs s buf e s' rest}, I fs s buf → D.call s buf = .fail e s' rest → I fs s' rest)
    (h : I fs s buf) :
    I (drain D fs s buf).items (drain D fs s buf).state (drain D fs s buf).buf := by
  -- induction on what the buffer and the state weigh
  induction hn : buf.length + D.weight s using Nat.strongRecOn generalizing fs s buf with
  | _ n ih =>
    cases hc : D.call s buf with
    | item =>
      have hlt := D.item_lt hc
      rw [drain_item hc]
      exact ih _ (by omega) (hitem h hc) rfl
    | more =>
      rw [drain_more hc]
      exact hmore h hc
    | fail =>
      rw [drain_fail hc]
      exact hfail h hc

/-! ### Feeding chunks -/

def Reader.feed (D : Decoder σ β φ ε) (r : Reader σ β φ ε) (chunk : List β) : Reader σ β φ ε :=
  match r.error with
  | some _ => { r with buf := r.buf ++ chunk }
  | none => drain D r.items r.state (r.buf ++ chunk)

/-- Input behind the buffer can be fed after the buffer is drained. -/
theorem drain_append (input : List β) :
    drain D fs s (buf ++ input) = (drain D fs s buf).feed D input := by
  induction hn : buf.length + D.weight s using Nat.strongRecOn generalizing fs s buf with
  | _ n ih =>
    cases hc : D.call s buf with
    | item =>
      have hlt := D.item_lt hc
      rw [drain_item hc, drain_item (D.item_append hc input)]
      exact ih _ (by omega) rfl
    | more =>
      rw [drain_more hc]
      exact drain_congr (D.more_append hc input)
    | fail =>
      rw [drain_fail hc, drain_fail (D.fail_append hc input)]
      rfl

theorem Reader.feed_feed (r : Reader σ β φ ε) (a b : List β) :
    (r.feed D a).feed D b = r.feed D (a ++ b) := by
  obtain ⟨items, state, buf, error⟩ := r
  cases error with
  | some => simp [Reader.feed]
  | none =>
    have hab : drain D items state (buf ++ a ++ b) = (drain D items state (buf ++ a)).feed D b :=
      drain_append b
    rw [List.append_assoc] at hab
    exact hab.symm

theorem Reader.feed_items (r : Reader σ β φ ε) (chunk : List β) :
    r.items <+: (r.feed D chunk).items := by
  obtain ⟨items, state, buf, error⟩ := r
  cases error with
  | some => exact List.prefix_refl _
  | none =>
    have hitems : (drain D (items ++ []) state (buf ++ chunk)).items =
        items ++ (drain D [] state (buf ++ chunk)).items := drain_items items
    rw [List.append_nil] at hitems
    exact ⟨_, hitems.symm⟩

/-- The chunks do not matter, for a reader that has drained its buffer. -/
theorem Reader.feed_flatten {r : Reader σ β φ ε} (hr : r.feed D [] = r) (chunks : List (List β)) :
    chunks.foldl (Reader.feed D) r = r.feed D chunks.flatten := by
  induction chunks generalizing r with
  | nil => exact hr.symm
  | cons c chunks ih =>
    have hc : (r.feed D c).feed D [] = r.feed D c := by rw [feed_feed, List.append_nil]
    rw [List.foldl_cons, ih hc, feed_feed, List.flatten_cons]

end Incremental
