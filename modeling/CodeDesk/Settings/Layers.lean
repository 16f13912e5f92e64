/-
# Options in three layers

An option is read through three maps: `OVERWRITE_SETTINGS` first, then the options of
`CONFIG2`, which are the user's, then `DEFAULT_SETTINGS`. Both setters refuse what a read
does not need: a value for a key that is overwritten and a value that is the default
(`isOptionCanSave`). They differ in one point. `setOption` takes the empty text for "no
value" and removes the key, `setOptions` keeps it, and an empty text kept under a key
hides the key's default.

So a key read after `setOption` is the overwritten value, the value set or the default
(`getOption_setOption`), and storing what was read changes nothing
(`getOption_setOptions_getOptions`). Setting a map at once and setting its keys one by
one agree unless the map holds an empty text for a key with a default
(`getOption_setOptions_eq_foldl_iff`).
-/
import CodeDesk.Table

namespace CodeDesk.Settings

abbrev Options := Table String String

/-- The two layers a user cannot change, `OVERWRITE_SETTINGS` and `DEFAULT_SETTINGS`. -/
structure Layers where
  overwrite : Options
  defaults : Options

structure Config2 where
  options : Options
  file : Options

def Config2.store (c : Config2) : Config2 := { c with file := c.options }

namespace Layers

variable (L : Layers)

def getOr (b : Options) (k : String) : Option String :=
  ((L.overwrite.lookup k).or (b.lookup k)).or (L.defaults.lookup k)

def isOptionCanSave (k v : String) : Bool :=
  if k ∈ L.overwrite ∨ (L.defaults.lookup k).elim false (· == v) then false else true

def getOptions (c : Config2) : Options := L.overwrite ∪ (c.options ∪ L.defaults)

def purifyOptions (v : Options) : Options := Table.retain L.isOptionCanSave v

def setOptions (c : Config2) (v : Options) : Config2 :=
  if c.options = L.purifyOptions v then c
  else Config2.store { c with options := L.purifyOptions v }

def getOption (c : Config2) (k : String) : String := (L.getOr c.options k).getD ""

def setOption (c : Config2) (k v : String) : Config2 :=
  if !L.isOptionCanSave k v then
    if k ∈ c.options then Config2.store { c with options := c.options.erase k } else c
  else
    let v2 := if v.isEmpty then none else some v
    if v2 ≠ c.options.lookup k then
      if v2.isNone then Config2.store { c with options := c.options.erase k }
      else Config2.store { c with options := c.options.insert k v }
    else c

def default (k : String) : String := (L.defaults.lookup k).getD ""

/-! ## What the setters save -/

variable {L} {c : Config2} {k k' v : String}

theorem isOptionCanSave_iff :
    L.isOptionCanSave k v = true ↔ L.overwrite.lookup k = none ∧ L.defaults.lookup k ≠ some v := by
  rw [isOptionCanSave, Finmap.lookup_eq_none]
  cases L.defaults.lookup k <;> simp

@[simp] theorem setOptions_options (v : Options) :
    (L.setOptions c v).options = L.purifyOptions v := by
  unfold setOptions
  split
  · assumption
  · rfl

def saved (L : Layers) (k v : String) : Option String :=
  if L.isOptionCanSave k v ∧ v ≠ "" then some v else none

theorem lookup_setOption : (L.setOption c k v).options.lookup k' =
      if k' = k then L.saved k v else c.options.lookup k' := by
  unfold setOption saved
  cases hsave : L.isOptionCanSave k v with
  | false =>
    by_cases hk : k ∈ c.options
    · simp [hk, Config2.store, Table.lookup_erase_ite]
    · have hnone : c.options.lookup k = none := Finmap.lookup_eq_none.2 hk
      rcases eq_or_ne k' k with rfl | h
      · simp [hk, hnone]
      · simp [hk, h]
  | true =>
    by_cases hv : v = ""
    · subst hv
      by_cases hk : c.options.lookup k = none
      · rcases eq_or_ne k' k with rfl | h
        · simp [hk]
        · simp [hk, h]
      · simp [Ne.symm hk, Config2.store, Table.lookup_erase_ite]
    · by_cases hk : c.options.lookup k = some v
      · rcases eq_or_ne k' k with rfl | h
        · simp [hv, hk]
        · simp [hv, hk, h]
      · simp [hv, Ne.symm hk, Config2.store, Table.lookup_insert_ite]

/-! ## What is read -/

/-- `get_options` extends the defaults by the user's options and then by the overwritten
ones, `get_option` looks a key up in the opposite order: the same value is found. -/
theorem lookup_getOptions : (L.getOptions c).lookup k = L.getOr c.options k := by
  rw [getOptions, getOr, Table.lookup_union_or, Table.lookup_union_or, Option.or_assoc]

theorem getOption_eq (c : Config2) (k : String) : L.getOption c k =
      match L.overwrite.lookup k with
      | some w => w
      | none => (c.options.lookup k).getD (L.default k) := by
  unfold getOption getOr default
  cases L.overwrite.lookup k with
  | some => simp
  | none => cases c.options.lookup k <;> simp

theorem getD_saved (h : L.overwrite.lookup k = none) :
    (L.saved k v).getD (L.default k) = if v = "" then L.default k else v := by
  unfold saved default
  by_cases hv : v = ""
  · simp [hv]
  · by_cases hd : L.defaults.lookup k = some v <;> simp [isOptionCanSave_iff, h, hv, hd]

theorem getOption_setOption : L.getOption (L.setOption c k v) k =
      match L.overwrite.lookup k with
      | some w => w
      | none => if v = "" then L.default k else v := by
  rw [getOption_eq, lookup_setOption, if_pos rfl]
  cases h : L.overwrite.lookup k with
  | some => rfl
  | none => exact getD_saved h

theorem getOption_setOption_of_ne (h : k' ≠ k) :
    L.getOption (L.setOption c k v) k' = L.getOption c k' := by
  rw [getOption_eq, lookup_setOption, if_neg h, ← getOption_eq]

theorem getOption_setOptions (m : Options) : L.getOption (L.setOptions c m) k =
      match L.overwrite.lookup k with
      | some w => w
      | none => (m.lookup k).getD (L.default k) := by
  rw [getOption_eq, setOptions_options, purifyOptions, Table.lookup_retain]
  cases h : L.overwrite.lookup k with
  | some => rfl
  | none =>
    cases hm : m.lookup k with
    | none => rfl
    | some v =>
      by_cases hd : L.defaults.lookup k = some v <;>
        simp [Option.filter, isOptionCanSave_iff, h, hd, default]

theorem getOption_setOptions_getOptions :
    L.getOption (L.setOptions c (L.getOptions c)) k = L.getOption c k := by
  rw [getOption_setOptions, lookup_getOptions, getOption_eq, getOr, default]
  cases L.overwrite.lookup k with
  | some => rfl
  | none => cases c.options.lookup k <;> cases L.defaults.lookup k <;> rfl

theorem getOption_foldl_setOption {m : Options} {l : List (Σ _ : String, String)}
    (hl : (l : Multiset (Σ _ : String, String)) = m.entries) :
    L.getOption (l.foldl (fun c e => L.setOption c e.1 e.2) c) k =
      match L.overwrite.lookup k, m.lookup k with
      | some w, _ => w
      | none, some v => if v = "" then L.default k else v
      | none, none => L.getOption c k := by
  have hread := Table.read_foldl (t := m) (fun c k => L.getOption c k)
    (fun c e => L.setOption c e.1 e.2)
    (fun k v => match L.overwrite.lookup k with
      | some w => w
      | none => if v = "" then L.default k else v)
    (fun c e k => by
      by_cases h : k = e.1
      · subst h
        rw [if_pos rfl, getOption_setOption]
      · rw [if_neg h, getOption_setOption_of_ne h]) hl c k
  refine hread.trans ?_
  rw [getOption_eq]
  cases L.overwrite.lookup k <;> cases m.lookup k <;> rfl

/-- Setting a map at once and setting its keys one by one on an empty map of the user's
agree unless an empty text comes with a key that is not overwritten and has a default. -/
theorem getOption_setOptions_eq_foldl_iff {m : Options} {l : List (Σ _ : String, String)}
    (hl : (l : Multiset (Σ _ : String, String)) = m.entries) (c : Config2) :
    (∀ k, L.getOption (L.setOptions c m) k =
        L.getOption (l.foldl (fun c e => L.setOption c e.1 e.2) { c with options := ∅ }) k) ↔
      ∀ k, m.lookup k = some "" → L.overwrite.lookup k = none → L.default k = "" := by
  refine forall_congr' fun k => ?_
  rw [getOption_setOptions, getOption_foldl_setOption hl, getOption_eq]
  cases L.overwrite.lookup k with
  | some => simp
  | none =>
    cases m.lookup k with
    | none => simp
    | some v =>
      by_cases hv : v = ""
      · subst hv
        simp
      · simp [hv]

/-- What the three layers show after a write. A map set at once reads like its keys set
one by one exactly if every empty text in it comes with a key that is overwritten or has
no default but the empty one. -/
theorem layered (L : Layers) (c : Config2) : (∀ k v, L.getOption (L.setOption c k v) k =
      match L.overwrite.lookup k with
      | some w => w
      | none => if v = "" then L.default k else v) ∧
    (∀ k v k', k' ≠ k → L.getOption (L.setOption c k v) k' = L.getOption c k') ∧
    (∀ k, ((L.getOptions c).lookup k).getD "" = L.getOption c k) ∧
    (∀ k, L.getOption (L.setOptions c (L.getOptions c)) k = L.getOption c k) ∧
    ∀ (m : Options) (l : List (Σ _ : String, String)), (l : Multiset _) = m.entries →
      ((∀ k, L.getOption (L.setOptions c m) k =
          L.getOption (l.foldl (fun c e => L.setOption c e.1 e.2) { c with options := ∅ }) k) ↔
        ∀ k, m.lookup k = some "" → L.overwrite.lookup k = none → L.default k = "") := by
  refine ⟨fun k v => getOption_setOption, fun k v k' => getOption_setOption_of_ne, fun k => ?_,
    fun k => getOption_setOptions_getOptions, fun m l hl => getOption_setOptions_eq_foldl_iff hl c⟩
  rw [lookup_getOptions, getOption]

def oneDefault : Layers where
  overwrite := ∅
  defaults := Finmap.singleton "api-server" "https://example"

/-- An empty text for `api-server` hides the default if it comes in a map, and is taken
back to the default if it comes alone. -/
theorem empty_in_map_hides_default : let c : Config2 := ⟨∅, ∅⟩
    let m : Options := Finmap.singleton "api-server" ""
    let l : List (Σ _ : String, String) := [⟨"api-server", ""⟩]
    (l : Multiset (Σ _ : String, String)) = m.entries ∧
      oneDefault.getOption (oneDefault.setOptions c m) "api-server" = "" ∧
      oneDefault.getOption (l.foldl (fun c e => oneDefault.setOption c e.1 e.2) c) "api-server" =
        "https://example" := by
  refine ⟨rfl, by decide, by decide⟩

end Layers

end CodeDesk.Settings
