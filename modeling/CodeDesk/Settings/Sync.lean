/-
# Options changed by several processes

The options that count are those of the service. Another process changes one with
`ipc::set_option`: it asks the service for all options, edits the map it gets and sends
the whole map back, and the service puts it in the place of its own. The sync thread of
the service does the same with what the api server sends, `handle_config_options`,
without the round trip. A process that gets no answer goes on with its own copy.

Nothing ties a call's fetch to its store. If every message gets through, the options are
those of a read, change and write back machine (`abs_step`), so they show the calls of a
lineage, one after the other (`getOption_run_eq_lineage`), and every key shows its last
write if no store falls between the fetch and the store of the same call
(`getOption_run_of_serial`). Two processes that set different keys at the same time lose
one of the two (`first_write_lost`).
-/
import CodeDesk.Updates
import CodeDesk.Settings.Layers

namespace CodeDesk.Settings

variable {ι P : Type*}

/-- A change of the options: by process `p`, or by the sync thread with the options the
api server sent, in the order their map is iterated. -/
inductive Call (P : Type*)
  | setOption (p : P) (key value : String)
  | handleConfigOptions (configOptions : AList fun _ : String => String)

/-- How sending the options to the service ends: `connect` fails, `send` fails, or the
service gets them. -/
inductive Sending
  | refused
  | broken
  | arrived
deriving DecidableEq

/-- The two halves of a call. A fetch over ipc is answered or not. -/
inductive Event (ι : Type*)
  | fetch (i : ι) (answered : Bool)
  | store (i : ι) (sending : Sending)

/-- The messages of this half of a call get through. -/
def Event.Through : Event ι → Prop
  | .fetch _ answered => answered = true
  | .store _ sending => sending = .arrived

instance : DecidablePred (Event.Through (ι := ι))
  | .fetch _ answered => inferInstanceAs (Decidable (answered = true))
  | .store _ sending => inferInstanceAs (Decidable (sending = .arrived))

def Event.half : Event ι → Updates.Event ι
  | .fetch i _ => .read i
  | .store i _ => .write i

/-- The service's options, each process's own copy of them, and what each call between its
fetch and its store has fetched. -/
structure State (ι P : Type*) where
  service : Config2
  copies : P → Config2
  held : ι → Option Options

namespace Layers

variable (L : Layers)

/-- What `ipc::set_option` makes of the options it fetched. -/
def ipcSetOption (key value : String) (options : Options) : Options :=
  if value.isEmpty then options.erase key else options.insert key value

/-- What `handle_config_options` makes of the options it read. -/
def handleConfigOptions (configOptions : AList fun _ : String => String) (options : Options) :
    Options :=
  configOptions.entries.foldl (fun options e =>
    if e.2.isEmpty && (L.default e.1).isEmpty then options.erase e.1
    else options.insert e.1 e.2) options

def edited : Call P → Options → Options
  | .setOption _ key value => ipcSetOption key value
  | .handleConfigOptions configOptions => L.handleConfigOptions configOptions

/-! ## What a call writes -/

/-- The value a call gives a key, if it writes the key: no value for `ipc::set_option`
means the default. -/
def written (k : String) : Call P → Option String
  | .setOption _ key value =>
    if k = key then some (if value = "" then L.default k else value) else none
  | .handleConfigOptions configOptions => configOptions.lookup k

def shown (options : Options) (k : String) : String := (options.lookup k).getD (L.default k)

variable {L} {call} {k : String}

theorem shown_getOptions (c : Config2) : L.shown (L.getOptions c) k = L.getOption c k := by
  rw [shown, lookup_getOptions, getOption, getOr, default]
  cases L.overwrite.lookup k <;> cases c.options.lookup k <;> cases L.defaults.lookup k <;> rfl

theorem getOption_setOptions_eq_shown (hk : L.overwrite.lookup k = none) (c : Config2)
    (m : Options) : L.getOption (L.setOptions c m) k = L.shown m k := by
  rw [getOption_setOptions, hk, shown]

theorem shown_erase (options : Options) (key : String) :
    L.shown (options.erase key) k = if k = key then L.default k else L.shown options k := by
  rw [shown, Table.lookup_erase_ite]
  split <;> rfl

theorem shown_insert (options : Options) (key value : String) :
    L.shown (options.insert key value) k = if k = key then value else L.shown options k := by
  rw [shown, Table.lookup_insert_ite]
  split <;> rfl

/-- Dropping a key and giving it an empty value show the same where the default is empty. -/
theorem shown_handleConfigOptions (configOptions : AList fun _ : String => String)
    (options : Options) :
    L.shown (L.handleConfigOptions configOptions options) k =
      (configOptions.lookup k).getD (L.shown options k) := by
  have hentry : ∀ (options : Options) (e : Σ _ : String, String) k,
      L.shown (if e.2.isEmpty && (L.default e.1).isEmpty then options.erase e.1
        else options.insert e.1 e.2) k = if k = e.1 then e.2 else L.shown options k := by
    intro options e k
    split
    · next h =>
      simp only [Bool.and_eq_true, String.isEmpty_iff] at h
      rw [shown_erase]
      split
      · next hk => rw [hk, h.1, h.2]
      · rfl
    · rw [shown_insert]
  have hread := Table.read_foldl (t := configOptions.toFinmap) L.shown _ (fun _ v => v) hentry rfl
    options k
  rw [handleConfigOptions, hread, Option.map_id', Finmap.lookup_toFinmap]

theorem shown_edited (c : Call P) (options : Options) :
    L.shown (L.edited c options) k = (L.written k c).getD (L.shown options k) := by
  cases c with
  | setOption p key value =>
    simp only [edited, ipcSetOption, written, String.isEmpty_iff]
    by_cases hv : value = ""
    · rw [if_pos hv, if_pos hv, shown_erase]
      split <;> rfl
    · rw [if_neg hv, if_neg hv, shown_insert]
      split <;> rfl
  | handleConfigOptions configOptions => exact shown_handleConfigOptions configOptions options

abbrev Key (L : Layers) := {k // L.overwrite.lookup k = none}

def change (L : Layers) (call : ι → Call P) (i : ι) (f : L.Key → String) (k : L.Key) : String :=
  (L.written k (call i)).getD (f k)

/-- The calls `is`, the last one first: a key shows what the last of them that writes it has
written. -/
theorem foldr_change {call : ι → Call P} (is : List ι) (f : L.Key → String) (k : L.Key) :
    is.foldr (L.change call) f k = (is.findSome? fun i => L.written k (call i)).getD (f k) := by
  induction is with
  | nil => rfl
  | cons i is ih =>
    rw [List.foldr_cons, change, ih, List.findSome?_cons]
    cases L.written k (call i) <;> rfl

/-! ## The service as a cell that is read and written back -/

section Service

variable [DecidableEq ι] (L) (call : ι → Call P)

def step [DecidableEq P] (s : State ι P) : Event ι → State ι P
  | .fetch i answered =>
    match call i with
    | .handleConfigOptions _ =>
      { s with held := Function.update s.held i (some (L.getOptions s.service)) }
    | .setOption p _ _ =>
      if answered then
        -- `get_options_` also makes the answer the process's own options.
        { s with
          copies := Function.update s.copies p
            (L.setOptions (s.copies p) (L.getOptions s.service))
          held := Function.update s.held i (some (L.getOptions s.service)) }
      else { s with held := Function.update s.held i (some (L.getOptions (s.copies p))) }
  | .store i sending =>
    match s.held i with
    | none => s
    | some options =>
      let value := L.edited (call i) options
      let s := { s with held := Function.update s.held i none }
      match call i with
      | .handleConfigOptions _ => { s with service := L.setOptions s.service value }
      | .setOption p _ _ =>
        let kept := Function.update s.copies p (L.setOptions (s.copies p) value)
        match sending with
        | .arrived => { s with service := L.setOptions s.service value, copies := kept }
        | .refused => { s with copies := kept }
        | .broken => s

/-- What the service and each call in between show, at the keys that are not overwritten. -/
def abs (s : State ι P) : Updates.State (L.Key → String) ι where
  cell := fun k => L.getOption s.service k
  held := fun i => (s.held i).map fun options k => L.shown options k

variable {L} {call}

variable {s t : State ι P}

theorem abs_fetch (i : ι) (hservice : t.service = s.service)
    (hheld : t.held = Function.update s.held i (some (L.getOptions s.service))) :
    L.abs t = Updates.step (L.change call) (L.abs s) (.read i) := by
  simp only [abs, Updates.step, hservice, hheld, Updates.State.mk.injEq, true_and]
  funext j
  by_cases hj : j = i
  · simp [hj, shown_getOptions]
  · simp [hj]

theorem abs_store {i : ι} {options : Options} (hi : s.held i = some options)
    (hservice : t.service = L.setOptions s.service (L.edited (call i) options))
    (hheld : t.held = Function.update s.held i none) :
    L.abs t = Updates.step (L.change call) (L.abs s) (.write i) := by
  have hmap : (L.abs s).held i = some fun k : L.Key => L.shown options k := by simp [abs, hi]
  rw [Updates.step_write_of_held hmap]
  simp only [abs, hservice, hheld, Updates.State.mk.injEq]
  constructor
  · funext k
    rw [getOption_setOptions_eq_shown k.2, shown_edited, change]
  · funext j
    by_cases hj : j = i <;> simp [hj]

variable [DecidableEq P]

theorem abs_step {e : Event ι} (he : e.Through) :
    L.abs (L.step call s e) = Updates.step (L.change call) (L.abs s) e.half := by
  cases e with
  | fetch i answered =>
    cases (he : answered = true)
    cases hcall : call i with
    | setOption | handleConfigOptions =>
      exact abs_fetch i (by simp [step, hcall]) (by simp [step, hcall])
  | store i sending =>
    cases (he : sending = .arrived)
    cases hi : s.held i with
    | none => simp [step, hi, Updates.step, Event.half, abs]
    | some =>
      cases hcall : call i with
      | setOption | handleConfigOptions =>
        exact abs_store hi (by simp [step, hi, hcall]) (by simp [step, hi, hcall])

theorem abs_run {es : List (Event ι)} (hes : ∀ e ∈ es, e.Through) :
    L.abs (Run.run (L.step call) s es) =
      Run.run (Updates.step (L.change call)) (L.abs s) (es.map Event.half) := by
  induction es generalizing s with
  | nil => rfl
  | cons e es ih =>
    obtain ⟨he, hes⟩ := List.forall_mem_cons.1 hes
    rw [Run.run_cons, ih hes, abs_step he, List.map_cons, Run.run_cons]

def start (service : Config2) (copies : P → Config2) : State ι P :=
  ⟨service, copies, fun _ => none⟩

variable {service : Config2} {copies : P → Config2} {es : List (Event ι)}

/-- Whatever the order of the halves: the service shows the calls of the lineage. -/
theorem getOption_run_eq_lineage (hes : ∀ e ∈ es, e.Through) (hk : L.overwrite.lookup k = none) :
    L.getOption (Run.run (L.step call) (start service copies) es).service k =
      ((Updates.lineage (es.map Event.half)).findSome? fun i => L.written k (call i)).getD
        (L.getOption service k) := by
  calc L.getOption (Run.run (L.step call) (start service copies) es).service k
      = (Run.run (Updates.step (L.change call)) (L.abs (start service copies))
          (es.map Event.half)).cell ⟨k, hk⟩ :=
        congrFun (congrArg Updates.State.cell (abs_run hes)) ⟨k, hk⟩
    _ = (Updates.lineage (es.map Event.half)).foldr (L.change call)
          (fun k => L.getOption service k) ⟨k, hk⟩ :=
        congrFun (Updates.cell_run_eq_lineage _ _) _
    _ = _ := foldr_change _ _ _

/-- Every key shows its last write if no store falls between the fetch and the store of the
same call. -/
theorem getOption_run_of_serial (hes : ∀ e ∈ es, e.Through)
    (hserial : Updates.Serial ∅ (es.map Event.half)) (hk : L.overwrite.lookup k = none) :
    L.getOption (Run.run (L.step call) (start service copies) es).service k =
      ((Updates.writes (es.map Event.half)).reverse.findSome? fun i =>
        L.written k (call i)).getD (L.getOption service k) := by
  rw [getOption_run_eq_lineage hes hk, Updates.lineage_eq_writes_iff.2 hserial]

/-- The last write of a key is what the service shows: `i` writes `k`, and no call that
stores after it does. -/
theorem getOption_of_last_write (hes : ∀ e ∈ es, e.Through)
    (hserial : Updates.Serial ∅ (es.map Event.half)) (hk : L.overwrite.lookup k = none)
    {before after : List (Event ι)} {i : ι} {sending : Sending} {v : String}
    (hstore : es = before ++ .store i sending :: after) (hi : L.written k (call i) = some v)
    (hlast : ∀ j ∈ Updates.writes (after.map Event.half), L.written k (call j) = none) :
    L.getOption (Run.run (L.step call) (start service copies) es).service k = v := by
  have hafter : (Updates.writes (after.map Event.half)).reverse.findSome?
      (fun j => L.written k (call j)) = none :=
    List.findSome?_eq_none_iff.2 fun j hj => hlast j (List.mem_reverse.1 hj)
  have hwrites : Updates.writes (es.map Event.half) =
      Updates.writes (before.map Event.half) ++ i :: Updates.writes (after.map Event.half) := by
    rw [hstore, List.map_append, List.map_cons, Updates.writes_append]
    rfl
  rw [getOption_run_of_serial hes hserial hk, hwrites]
  simp [List.findSome?_append, hafter, hi]

def twoKeys : Fin 2 → Call (Fin 2)
  | 0 => .setOption 0 "whitelist" "10.0.0.1"
  | 1 => .setOption 1 "enable-audio" "N"

def noLayers : Layers := ⟨∅, ∅⟩

theorem getOption_of_last_write_twoKeys :
    let es := [.fetch 0 true, .store 0 .arrived, .fetch 1 true, .store 1 .arrived]
    noLayers.getOption (Run.run (noLayers.step twoKeys) (start ⟨∅, ∅⟩ fun _ => ⟨∅, ∅⟩) es).service
      "whitelist" = "10.0.0.1" := by
  have hstore : [Event.fetch (0 : Fin 2) true, .store 0 .arrived, .fetch 1 true, .store 1 .arrived] =
      [.fetch 0 true] ++ .store 0 .arrived :: [.fetch 1 true, .store 1 .arrived] := rfl
  exact getOption_of_last_write (by decide) (by decide) rfl hstore rfl (by decide)

/-- Both have fetched when the first of them stores: the second puts back the options without
the first one's. -/
theorem first_write_lost : let es : List (Event (Fin 2)) :=
      [.fetch 0 true, .fetch 1 true, .store 0 .arrived, .store 1 .arrived]
    let s := Run.run (noLayers.step twoKeys) (start ⟨∅, ∅⟩ fun _ => ⟨∅, ∅⟩) es
    (∀ e ∈ es, e.Through) ∧ noLayers.getOption s.service "enable-audio" = "N" ∧
      noLayers.getOption s.service "whitelist" = "" := by
  decide

/-- **No value out of nowhere.** However the calls interleave, if their messages get through: an
option shows what it did at the start, or a value that a call of the run has written to it. -/
theorem getOption_was_written (hes : ∀ e ∈ es, e.Through) (hk : L.overwrite.lookup k = none) :
    let v := L.getOption (Run.run (L.step call) (start service copies) es).service k
    v = L.getOption service k ∨
      ∃ i ∈ Updates.writes (es.map Event.half), L.written k (call i) = some v := by
  intro v
  have hv : v = _ := getOption_run_eq_lineage hes hk
  cases hf : (Updates.lineage (es.map Event.half)).findSome? fun i => L.written k (call i) with
  | none =>
    rw [hf] at hv
    exact .inl hv
  | some w =>
    rw [hf] at hv
    obtain ⟨i, hmem, hi⟩ := List.exists_of_findSome?_eq_some hf
    exact .inr ⟨i, Updates.lineage_subset_writes _ hmem, hv ▸ hi⟩

theorem getOption_was_written_twoKeys :
    let v := noLayers.getOption (Run.run (noLayers.step twoKeys) (start ⟨∅, ∅⟩ fun _ => ⟨∅, ∅⟩)
      [.fetch 0 true, .fetch 1 true, .store 0 .arrived, .store 1 .arrived]).service "whitelist"
    v = noLayers.getOption ⟨∅, ∅⟩ "whitelist" ∨
      ∃ i ∈ [0, 1], noLayers.written "whitelist" (twoKeys i) = some v :=
  getOption_was_written (by decide) rfl

end Service

end Layers

end CodeDesk.Settings
