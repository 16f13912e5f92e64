/-
# Trusted devices changed by several threads

The list of trusted devices is kept twice: decrypted in `TRUSTED_DEVICES` once it has been
read, and encrypted in the configuration (`libs/hbb_common/src/config.rs`). A change gets
the list, edits its copy and sets the list to it, each under locks of its own; also the
first `get_trusted_devices` writes, for it fills the cache with what it has read before.

`Thread` goes from one lock to the next, and a run is any interleaving of such sections.
The file and the cache are written under one lock of the configuration, so `set` is one
section. No run gives two entries to one hardware id (`distinct_run`). What the list holds
is what the last change of each hardware id says (`Represents`), as long as no call writes
after another has written since it began (`Undisturbed`); without that a removed device
comes back (`removed_device_returns`).
-/
import CodeDesk.Auth.RoundTrip

namespace CodeDesk.Auth

structure TrustedDevice where
  hwid : Bytes
  time : ℤ
  id : Text
  name : Text
  platform : Text
  deriving DecidableEq, Repr

namespace TrustedDevice

def days90 : ℤ := 90 * 24 * 60 * 60 * 1000

def outdate (d : TrustedDevice) (now : ℤ) : Bool := Int.bmod (d.time + days90) (2 ^ 64) < now

theorem outdate_mono {d : TrustedDevice} {t t' : ℤ} (h : t ≤ t') (hd : d.outdate t' = false) :
    d.outdate t = false := by
  simp only [outdate, decide_eq_false_iff_not] at hd ⊢
  omega

end TrustedDevice

/-- How the list is written to the configuration: as JSON of some size, encrypted with a
nonce. What is decrypted comes with the mark of an old version that has to be stored again. -/
structure Vault where
  Stored : Type
  Nonce : Type
  size : List TrustedDevice → ℕ
  encrypt : Nonce → List TrustedDevice → Stored
  decrypt : Stored → Option (List TrustedDevice × Bool)
  decrypt_encrypt : ∀ nonce devices, size devices ≤ 1024 * 1024 →
    decrypt (encrypt nonce devices) = some (devices, false)

/-- JSON for a list of devices, as `serde_json` reads and writes it. -/
structure Json where
  toString : List TrustedDevice → String
  fromStr : Text → Option (List TrustedDevice)
  fromStr_toString : ∀ devices, fromStr (text (toString devices)) = some devices
  head_toString : ∀ devices, (text (toString devices)).head? = some 91

namespace Machine

variable (m : Machine)

theorem charCount_le (s : Text) : charCount s ≤ s.length := List.countP_le_length

theorem isEncrypted_of_head {s : Text} (h : s.head? = some 91) : m.isEncrypted s = false := by
  have hver : text "00" = [48, 48] := by decide
  cases s with
  | nil => cases h
  | cons a s =>
    cases h
    have hprefix : ¬text "00" <+: (91 :: s) := by
      rw [hver, List.cons_prefix_cons]
      simp
    rw [isEncrypted, if_pos (.inr hprefix)]

def vault (pk : Option Bytes) (json : Json) : Vault where
  Stored := Text
  Nonce := Nonce
  size := fun devices => (text (json.toString devices)).length
  encrypt := fun nonce devices =>
    m.encryptStrOrOriginal nonce (text (json.toString devices)) (text "00") (1024 * 1024)
  decrypt := fun s =>
    match m.decryptStrOrOriginal pk s (text "00") with
    | (devices, true, store) => some ((json.fromStr devices).getD [], store)
    | (_, false, _) => none
  decrypt_encrypt := by
    intro nonce devices hsize
    have hhead := json.head_toString devices
    have hne : text (json.toString devices) ≠ [] := fun hnil => by simp [hnil] at hhead
    have hopens := opens_encrypt hne (Nat.le_trans (charCount_le _) hsize)
      (m.isEncrypted_of_head hhead) pk nonce
    have hdecrypt : m.decryptStrOrOriginal pk (m.encryptStrOrOriginal nonce
        (text (json.toString devices)) (text "00") (1024 * 1024)) (text "00") =
          (text (json.toString devices), true, false) := hopens
    simp [hdecrypt, json.fromStr_toString]

end Machine

namespace Trusted

variable {ι : Type*}

/-! ### The calls -/

inductive Call where
  | addTrustedDevice (device : TrustedDevice)
  | removeTrustedDevices (hwids : List Bytes)
  | clearTrustedDevices
  /-- Whether the stored password changes; then the list is cleared, too. -/
  | setPermanentPassword (changes : Bool)
  | getTrustedDevices
  deriving DecidableEq, Repr

inductive Thread where
  | idle
  /-- The cache is not filled: the configuration is read next. -/
  | unsynced
  /-- Read from the configuration and, unless it is to be written back first, put into the
  cache next. -/
  | loaded (devices : List TrustedDevice) (store : Bool)
  /-- What `get_trusted_devices` returned. -/
  | got (devices : List TrustedDevice)
  | done
  deriving DecidableEq, Repr

def Thread.held : Thread → Option (List TrustedDevice)
  | .loaded devices _ => some devices
  | .got devices => some devices
  | _ => none

inductive Write where
  | nothing
  /-- `set_trusted_devices`; it is the change the call is for, or not. -/
  | set (devices : List TrustedDevice) (change : Bool)
  | cache (devices : List TrustedDevice)
  deriving DecidableEq, Repr

/-- The two copies of the list and the calls, and what has happened: how many sections have
written, how many had when a call began or last wrote, the calls whose change has been
written, the last one first, and the latest time. -/
structure State (V : Vault) (ι : Type*) where
  /-- `TRUSTED_DEVICES`: the list, and whether it has been filled. -/
  devices : List TrustedDevice × Bool := ([], false)
  stored : V.Stored
  threads : ι → Thread := fun _ => .idle
  writes : ℕ := 0
  since : ι → ℕ := fun _ => 0
  changes : List Call := []
  latest : ℤ

/-- The next section of a call, with the time and the nonce it takes. -/
structure Input (V : Vault) (ι : Type*) where
  call : ι
  now : ℤ
  nonce : V.Nonce

def maxLen : ℕ := 1024 * 1024

def retained (now : ℤ) (devices : List TrustedDevice) : List TrustedDevice :=
  devices.filter fun d => !d.outdate now

def edited : Call → List TrustedDevice → List TrustedDevice
  | .addTrustedDevice device, devices => devices.filter (fun d => d.hwid ≠ device.hwid) ++ [device]
  | .removeTrustedDevices hwids, devices => devices.filter fun d => !hwids.contains d.hwid
  | .clearTrustedDevices, _ => []
  | .setPermanentPassword true, _ => []
  | .setPermanentPassword false, devices => devices
  | .getTrustedDevices, devices => devices

namespace State

variable {V : Vault}

/-- One section of the call: where it gets to, and what it writes. -/
def next (s : State V ι) (now : ℤ) (c : Call) : Thread → Thread × Write
  | .idle =>
    match c with
    | .clearTrustedDevices => (.done, .set [] true)
    | .setPermanentPassword changes => (.done, if changes then .set [] true else .nothing)
    | _ => (if s.devices.2 then .got s.devices.1 else .unsynced, .nothing)
  | .unsynced =>
    match V.decrypt s.stored with
    | some (devices, store) =>
      (.loaded (retained now devices) (store || (retained now devices).length ≠ devices.length),
        .nothing)
    | none => (.got [], .nothing)
  | .loaded devices true => (.loaded devices false, .set devices false)
  | .loaded devices false => (.got devices, .cache devices)
  | .got devices =>
    match c with
    | .addTrustedDevice _ => (.done, .set (edited c devices) true)
    | .removeTrustedDevices _ => (.done, .set (edited c devices) true)
    | _ => (.done, .nothing)
  | .done => (.done, .nothing)

/-- `set_trusted_devices`: the configuration and the cache, under the lock of the first. A
list that is too large is not set. -/
def setTrustedDevices (s : State V ι) (now : ℤ) (nonce : V.Nonce) (devices : List TrustedDevice) :
    State V ι :=
  if maxLen < V.size (retained now devices) then s
  else
    { s with
      stored := V.encrypt nonce (retained now devices)
      devices := (retained now devices, true) }

variable [DecidableEq ι]

def wrote (s : State V ι) (i : ι) (changes : List Call) : State V ι :=
  { s with
    writes := s.writes + 1
    since := Function.update s.since i (s.writes + 1)
    changes := changes ++ s.changes }

def write (s : State V ι) (x : Input V ι) (c : Call) : Write → State V ι
  | .nothing =>
    if s.threads x.call = .idle then { s with since := Function.update s.since x.call s.writes }
    else s
  | .set devices change =>
    (s.setTrustedDevices x.now x.nonce devices).wrote x.call (if change then [c] else [])
  | .cache devices => { s with devices := (devices, true) }.wrote x.call []

def step (call : ι → Call) (s : State V ι) (x : Input V ι) : State V ι :=
  let r := s.next x.now (call x.call) (s.threads x.call)
  let s' := s.write x (call x.call) r.2
  { s' with
    threads := Function.update s.threads x.call r.1
    latest := max s.latest x.now }

def onDisk (s : State V ι) : List TrustedDevice := ((V.decrypt s.stored).map Prod.fst).getD []

/-- No other call has written since the one that writes began, and what it sets is not too
large. -/
def Allows (s : State V ι) (x : Input V ι) : Write → Prop
  | .nothing => True
  | .set devices _ =>
    (s.threads x.call = .idle ∨ s.since x.call = s.writes) ∧
      V.size (retained x.now devices) ≤ maxLen
  | .cache _ => s.since x.call = s.writes

instance (s : State V ι) (x : Input V ι) : DecidablePred (s.Allows x)
  | .nothing => inferInstanceAs (Decidable True)
  | .set _ _ => inferInstanceAs (Decidable (_ ∧ _))
  | .cache _ => inferInstanceAs (Decidable (_ = _))

def Undisturbed (call : ι → Call) (s : State V ι) (x : Input V ι) : Prop :=
  s.Allows x (s.next x.now (call x.call) (s.threads x.call)).2

instance (call : ι → Call) (s : State V ι) (x : Input V ι) : Decidable (Undisturbed call s x) :=
  inferInstanceAs (Decidable (s.Allows x _))

end State

/-! ### What a change says of a hardware id -/

/-- The device a change leaves under the hardware id, if it is about it. -/
def said (hwid : Bytes) : Call → Option (Option TrustedDevice)
  | .addTrustedDevice device => if device.hwid = hwid then some (some device) else none
  | .removeTrustedDevices hwids => if hwids.contains hwid then some none else none
  | .clearTrustedDevices => some none
  | .setPermanentPassword changes => if changes then some none else none
  | .getTrustedDevices => none

theorem hwid_of_said {hwid : Bytes} {changes : List Call} {d : TrustedDevice}
    (h : changes.findSome? (said hwid) = some (some d)) : d.hwid = hwid := by
  obtain ⟨c, -, hc⟩ := List.exists_of_findSome?_eq_some h
  cases c with
  | addTrustedDevice device =>
    by_cases hd : device.hwid = hwid <;> simp [said, hd] at hc
    exact hc ▸ hd
  | removeTrustedDevices hwids => by_cases hd : hwid ∈ hwids <;> simp [said, hd] at hc
  | clearTrustedDevices | getTrustedDevices => cases hc
  | setPermanentPassword changes => cases changes <;> cases hc

/-- The device under the hardware id after the changes, the last one first: what the last one
about it says, or what there was before. -/
def expected (before : Bytes → Option TrustedDevice) (changes : List Call) (hwid : Bytes) :
    Option TrustedDevice :=
  (changes.findSome? (said hwid)).getD (before hwid)

theorem expected_cons (before : Bytes → Option TrustedDevice) (c : Call) (changes : List Call) :
    expected before (c :: changes) = fun hwid =>
      (said hwid c).getD (expected before changes hwid) := by
  funext hwid
  rw [expected, List.findSome?_cons]
  cases said hwid c <;> rfl

/-- The list holds the devices `f` gives to the hardware ids, but for those that were out of
date by the time `t`. -/
structure Represents (t : ℤ) (devices : List TrustedDevice) (f : Bytes → Option TrustedDevice) :
    Prop where
  sound : ∀ d ∈ devices, f d.hwid = some d
  complete : ∀ d, f d.hwid = some d → d.outdate t = false → d ∈ devices

namespace Represents

variable {t u : ℤ} {devices : List TrustedDevice} {f : Bytes → Option TrustedDevice}

theorem nil : Represents t [] fun _ => none := ⟨nofun, nofun⟩

variable (h : Represents t devices f)

include h

theorem mono (ht : t ≤ u) : Represents u devices f :=
  ⟨h.sound, fun d hd ho => h.complete d hd (TrustedDevice.outdate_mono ht ho)⟩

theorem later : Represents (max t u) devices f := h.mono (Int.le_max_left ..)

theorem retained (ht : u ≤ t) : Represents t (retained u devices) f where
  sound d hd := h.sound d (List.mem_of_mem_filter hd)
  complete d hd ho :=
    List.mem_filter.2 ⟨h.complete d hd ho, by simp [TrustedDevice.outdate_mono ht ho]⟩

theorem edited (c : Call) :
    Represents t (edited c devices) fun hwid => (said hwid c).getD (f hwid) := by
  cases c with
  | addTrustedDevice device =>
    constructor
    · intro d hd
      rcases List.mem_append.1 hd with hd | hd
      · obtain ⟨hd, hne⟩ := List.mem_filter.1 hd
        have hne' : device.hwid ≠ d.hwid := fun he => by simp [he] at hne
        simpa [said, hne'] using h.sound d hd
      · obtain rfl := List.mem_singleton.1 hd
        simp [said]
    · intro d hd ho
      by_cases he : device.hwid = d.hwid
      · have hdd : device = d := by simpa [said, he] using hd
        simp [Trusted.edited, hdd]
      · have hf : f d.hwid = some d := by simpa [said, he] using hd
        simp [Trusted.edited, h.complete d hf ho, Ne.symm he]
  | removeTrustedDevices hwids =>
    constructor
    · intro d hd
      obtain ⟨hd, hne⟩ := List.mem_filter.1 hd
      have hne' : d.hwid ∉ hwids := by simpa using hne
      simpa [said, hne'] using h.sound d hd
    · intro d hd ho
      by_cases he : d.hwid ∈ hwids
      · simp [said, he] at hd
      · have hf : f d.hwid = some d := by simpa [said, he] using hd
        simp [Trusted.edited, h.complete d hf ho, he]
  | clearTrustedDevices => exact nil
  | setPermanentPassword changes =>
    cases changes with
    | true => exact nil
    | false => exact h
  | getTrustedDevices => exact h

end Represents

def Distinct (devices : List TrustedDevice) : Prop := (devices.map (·.hwid)).Nodup

instance (devices : List TrustedDevice) : Decidable (Distinct devices) :=
  inferInstanceAs (Decidable (List.Nodup _))

theorem Distinct.filter {devices : List TrustedDevice} (h : Distinct devices)
    (p : TrustedDevice → Bool) : Distinct (devices.filter p) :=
  List.Nodup.sublist (List.filter_sublist.map _) h

theorem Distinct.edited {devices : List TrustedDevice} (h : Distinct devices) (c : Call) :
    Distinct (edited c devices) := by
  cases c with
  | addTrustedDevice device =>
    rw [Distinct, Trusted.edited, List.map_append, List.nodup_append]
    refine ⟨h.filter _, by simp, fun a ha b hb => ?_⟩
    obtain ⟨d, hd, rfl⟩ := List.mem_map.1 ha
    have hne : d.hwid ≠ device.hwid := by simpa using (List.mem_filter.1 hd).2
    simpa using (List.mem_singleton.1 hb) ▸ hne
  | removeTrustedDevices => exact h.filter _
  | clearTrustedDevices => exact List.nodup_nil
  | setPermanentPassword changes =>
    cases changes with
    | true => exact List.nodup_nil
    | false => exact h
  | getTrustedDevices => exact h

/-! ### One section -/

namespace State

variable {V : Vault} {call : ι → Call} {before : Bytes → Option TrustedDevice}
  {s : State V ι} {x : Input V ι}

variable {devices : List TrustedDevice} {th : Thread} {c : Call} {u : State V ι}

theorem onDisk_setTrustedDevices (hfit : V.size (retained x.now devices) ≤ maxLen) :
    (s.setTrustedDevices x.now x.nonce devices).onDisk = retained x.now devices := by
  rw [setTrustedDevices, if_neg (Nat.not_lt.2 hfit), onDisk, V.decrypt_encrypt _ _ hfit]
  rfl

/-- A list that is too large is not set; any other one is in both copies. -/
theorem copies_setTrustedDevices (devices : List TrustedDevice) :
    ((s.setTrustedDevices x.now x.nonce devices).onDisk = s.onDisk ∧
        (s.setTrustedDevices x.now x.nonce devices).devices = s.devices) ∨
      ((s.setTrustedDevices x.now x.nonce devices).onDisk = retained x.now devices ∧
        (s.setTrustedDevices x.now x.nonce devices).devices = (retained x.now devices, true)) := by
  by_cases hfit : V.size (retained x.now devices) ≤ maxLen
  · refine .inr ⟨onDisk_setTrustedDevices hfit, ?_⟩
    rw [setTrustedDevices, if_neg (Nat.not_lt.2 hfit)]
  · have hset : s.setTrustedDevices x.now x.nonce devices = s := if_pos (Nat.lt_of_not_le hfit)
    rw [hset]
    exact .inl ⟨rfl, rfl⟩

/-! ### One entry for each hardware id -/

/-- Every list around has one entry for each hardware id. -/
structure AllDistinct (s : State V ι) : Prop where
  disk : Distinct s.onDisk
  memory : Distinct s.devices.1
  held : ∀ i devices, (s.threads i).held = some devices → Distinct devices

theorem AllDistinct.next (h : AllDistinct s) (now : ℤ) (c : Call) (i : ι) :
    (∀ devices, (s.next now c (s.threads i)).1.held = some devices → Distinct devices) ∧
      match (s.next now c (s.threads i)).2 with
      | .nothing => True
      | .set devices _ => Distinct devices
      | .cache devices => Distinct devices := by
  have hheld := h.held i
  generalize s.threads i = th at hheld ⊢
  cases th with
  | idle =>
    have hgot : ∀ devices, (if s.devices.2 then Thread.got s.devices.1 else .unsynced).held =
        some devices → Distinct devices := by
      intro devices hd
      split at hd
      · exact Option.some.inj hd ▸ h.memory
      · cases hd
    cases c with
    | clearTrustedDevices => exact ⟨nofun, List.nodup_nil⟩
    | setPermanentPassword changes =>
      cases changes with
      | true => exact ⟨nofun, List.nodup_nil⟩
      | false => exact ⟨nofun, trivial⟩
    | addTrustedDevice | removeTrustedDevices | getTrustedDevices => exact ⟨hgot, trivial⟩
  | unsynced =>
    have hdisk := h.disk
    unfold onDisk at hdisk
    cases hread : V.decrypt s.stored with
    | none => simp [State.next, hread, Thread.held, Distinct]
    | some r =>
      rw [hread] at hdisk
      have hr : Distinct (retained now r.1) := hdisk.filter _
      simpa [State.next, hread, Thread.held] using hr
  | loaded devices store =>
    have hd := hheld devices rfl
    cases store <;> simpa [State.next, Thread.held] using hd
  | got devices =>
    have hd := hheld devices rfl
    cases c with
    | addTrustedDevice | removeTrustedDevices => exact ⟨nofun, hd.edited _⟩
    | clearTrustedDevices | setPermanentPassword | getTrustedDevices => exact ⟨nofun, trivial⟩
  | done => exact ⟨nofun, trivial⟩

variable [DecidableEq ι]

/-- The state after a section that ends at `th` and leaves the copies as `s'` has them. -/
def after (s s' : State V ι) (x : Input V ι) (th : Thread) : State V ι :=
  { s' with
    threads := Function.update s.threads x.call th
    latest := max s.latest x.now }

theorem step_eq (call : ι → Call) (s : State V ι) (x : Input V ι) : step call s x = s.after
      (s.write x (call x.call) (s.next x.now (call x.call) (s.threads x.call)).2) x
      (s.next x.now (call x.call) (s.threads x.call)).1 := rfl

/-- What a section writes that writes nothing: at its start a call notes how much has been
written. -/
theorem write_nothing (s : State V ι) (x : Input V ι) (c : Call) : s.write x c .nothing = { s with
      since := if s.threads x.call = .idle then Function.update s.since x.call s.writes
        else s.since } := by
  unfold write
  dsimp only
  split <;> rfl

theorem AllDistinct.step (h : AllDistinct s) (x : Input V ι) :
    AllDistinct (State.step call s x) := by
  obtain ⟨hheld, hwrite⟩ := h.next x.now (call x.call) x.call
  rw [step_eq]
  generalize s.next x.now (call x.call) (s.threads x.call) = r at hheld hwrite
  have hthreads : ∀ s' : State V ι, ∀ i devices, ((s.after s' x r.1).threads i).held = some devices →
      Distinct devices := by
    intro s' i devices hd
    by_cases hi : i = x.call
    · exact hheld devices (by simpa [after, hi] using hd)
    · exact h.held i devices (by simpa [after, hi] using hd)
  cases hr : r.2 with
  | nothing =>
    exact ⟨write_nothing s x _ ▸ h.disk, write_nothing s x _ ▸ h.memory, hthreads _⟩
  | set devices =>
    rw [hr] at hwrite
    have hdevices : Distinct (retained x.now devices) := Distinct.filter hwrite _
    have hset : Distinct (s.setTrustedDevices x.now x.nonce devices).onDisk ∧
        Distinct (s.setTrustedDevices x.now x.nonce devices).devices.1 := by
      rcases copies_setTrustedDevices devices with hc | hc <;> rw [hc.1, hc.2]
      · exact ⟨h.disk, h.memory⟩
      · exact ⟨hdevices, hdevices⟩
    exact ⟨hset.1, hset.2, hthreads _⟩
  | cache =>
    rw [hr] at hwrite
    exact ⟨h.disk, hwrite, hthreads _⟩

/-! ### What the last change says -/

/-- Both copies hold what the changes say, and so does the list that a call has got since the
last write. -/
structure Faithful (before : Bytes → Option TrustedDevice) (s : State V ι) : Prop where
  disk : Represents s.latest s.onDisk (expected before s.changes)
  memory : s.devices.2 = true → Represents s.latest s.devices.1 (expected before s.changes)
  held : ∀ i devices, s.since i = s.writes → (s.threads i).held = some devices →
    Represents s.latest devices (expected before s.changes)
  since_le : ∀ i, s.since i ≤ s.writes
  unfilled : s.devices.2 = false → s.devices.1 = [] ∧ s.changes = []

theorem faithful_nothing (h : Faithful before s)
    (hth : ∀ devices, s.threads x.call = .idle ∨ s.since x.call = s.writes →
      th.held = some devices →
        Represents (max s.latest x.now) devices (expected before s.changes)) :
    Faithful before (s.after (s.write x c .nothing) x th) := by
  rw [write_nothing]
  refine ⟨h.disk.later, fun hm => (h.memory hm).later, fun j devices hj hd => ?_,
    fun j => ?_, h.unfilled⟩
  · by_cases hjx : j = x.call
    · subst hjx
      refine hth devices ?_ (by simpa [after] using hd)
      by_cases hidle : s.threads x.call = .idle
      · exact .inl hidle
      · exact .inr (by simpa [after, hidle] using hj)
    · refine (h.held j devices ?_ (by simpa [after, hjx] using hd)).later
      by_cases hidle : s.threads x.call = .idle <;> simpa [after, hidle, hjx] using hj
  · by_cases hidle : s.threads x.call = .idle <;> by_cases hjx : j = x.call <;>
      simp [after, hidle, hjx, h.since_le]

section

variable (changes : List Call) (h : ∀ i, s.since i ≤ s.writes) (hsince : u.since = s.since)
  (hwrites : u.writes = s.writes)

include h hsince hwrites

/-- After a write no other call has a list it got since then. -/
theorem held_of_wrote {j : ι} (hj : (s.after (u.wrote x.call changes) x th).since j =
      (s.after (u.wrote x.call changes) x th).writes)
    (hd : ((s.after (u.wrote x.call changes) x th).threads j).held = some devices) :
    th.held = some devices := by
  have hjx : j = x.call := by
    by_contra hne
    have hlt : s.since j = s.writes + 1 := by simpa [after, wrote, hne, hsince, hwrites] using hj
    have := h j
    omega
  subst hjx
  simpa [after] using hd

theorem since_le_of_wrote (j : ι) : (s.after (u.wrote x.call changes) x th).since j ≤
      (s.after (u.wrote x.call changes) x th).writes := by
  by_cases hjx : j = x.call
  · simp [after, wrote, hjx]
  · have := h j
    simp [after, wrote, hjx, hsince, hwrites]
    omega

end

section

variable (h : Faithful before s)

include h

theorem faithful_set {change : Bool} (hfit : V.size (retained x.now devices) ≤ maxLen)
    (hrep : Represents (max s.latest x.now) devices
      (expected before ((if change then [c] else []) ++ s.changes)))
    (hth : ∀ got, th.held = some got → got = devices) :
    Faithful before (s.after (s.write x c (.set devices change)) x th) := by
  have hset : s.write x c (.set devices change) = wrote { s with
      stored := V.encrypt x.nonce (retained x.now devices)
      devices := (retained x.now devices, true) } x.call (if change then [c] else []) := by
    rw [write, setTrustedDevices, if_neg (Nat.not_lt.2 hfit)]
  have hretained := hrep.retained (Int.le_max_right s.latest x.now)
  rw [hset]
  refine ⟨?_, fun _ => hretained, fun j got hj hd => ?_,
    since_le_of_wrote (if change then [c] else []) h.since_le rfl rfl, nofun⟩
  · show Represents _ (((V.decrypt (V.encrypt _ _)).map Prod.fst).getD []) _
    rw [V.decrypt_encrypt _ _ hfit]
    exact hretained
  · obtain rfl := hth got (held_of_wrote (if change then [c] else []) h.since_le rfl rfl hj hd)
    exact hrep

theorem faithful_cache (hrep : Represents s.latest devices (expected before s.changes)) :
    Faithful before (s.after (s.write x c (.cache devices)) x (.got devices)) := by
  refine ⟨h.disk.later, fun _ => hrep.later, fun j got hj hd => ?_,
    since_le_of_wrote (u := { s with devices := (devices, true) }) [] h.since_le rfl rfl, nofun⟩
  cases held_of_wrote (u := { s with devices := (devices, true) }) [] h.since_le rfl rfl hj hd
  exact hrep.later

theorem faithful_change (hfit : V.size (retained x.now (edited c devices)) ≤ maxLen)
    (hrep : Represents s.latest devices (expected before s.changes)) :
    Faithful before (s.after (s.write x c (.set (edited c devices) true)) x .done) := by
  refine faithful_set h hfit ?_ nofun
  have hedited := (hrep.later (u := x.now)).edited c
  rwa [← expected_cons] at hedited

theorem faithful_idle (hth : s.threads x.call = .idle)
    (hx : Undisturbed call s x) : Faithful before (step call s x) := by
  rw [Undisturbed, hth] at hx
  rw [step_eq, hth]
  -- A call that gets the list takes it from the cache, if that is filled.
  have hget : ∀ c, Faithful before (s.after (s.write x c .nothing) x
      (if s.devices.2 then .got s.devices.1 else .unsynced)) := by
    intro c
    refine faithful_nothing h fun devices _ hd => ?_
    split at hd
    case isTrue hsynced => exact Option.some.inj hd ▸ (h.memory hsynced).later
    case isFalse => cases hd
  cases hcall : call x.call with
  | clearTrustedDevices =>
    rw [hcall] at hx
    exact faithful_change (c := .clearTrustedDevices) h hx.2 h.disk
  | setPermanentPassword changes =>
    rw [hcall] at hx
    cases changes with
    | true => exact faithful_change (c := .setPermanentPassword true) h hx.2 h.disk
    | false => exact faithful_nothing h fun _ _ => nofun
  | addTrustedDevice | removeTrustedDevices | getTrustedDevices => exact hget _

theorem faithful_unsynced (hth : s.threads x.call = .unsynced) :
    Faithful before (step call s x) := by
  rw [step_eq, hth]
  have hdisk := h.disk
  unfold onDisk at hdisk
  cases hread : V.decrypt s.stored with
  | none =>
    rw [hread] at hdisk
    have hnext : s.next x.now (call x.call) .unsynced = (.got [], .nothing) := by
      simp only [next, hread]
    rw [hnext]
    refine faithful_nothing h fun devices _ hd => ?_
    cases hd
    exact hdisk.later
  | some r =>
    rw [hread] at hdisk
    have hnext : s.next x.now (call x.call) .unsynced = (.loaded (retained x.now r.1)
        (r.2 || (retained x.now r.1).length ≠ r.1.length), .nothing) := by
      simp only [next, hread]
    rw [hnext]
    refine faithful_nothing h fun devices _ hd => ?_
    cases hd
    exact hdisk.later.retained (Int.le_max_right _ _)

theorem faithful_got (hth : s.threads x.call = .got devices) (hx : Undisturbed call s x) :
    Faithful before (step call s x) := by
  rw [Undisturbed, hth] at hx
  rw [step_eq, hth]
  have hset : ∀ c, s.since x.call = s.writes → V.size (retained x.now (edited c devices)) ≤ maxLen →
      Faithful before (s.after (s.write x c (.set (edited c devices) true)) x .done) :=
    fun c hsince hfit => faithful_change h hfit (h.held x.call devices hsince (by rw [hth]; rfl))
  cases hcall : call x.call with
  | addTrustedDevice | removeTrustedDevices =>
    rw [hcall] at hx
    exact hset _ (hx.1.resolve_left (by simp [hth])) hx.2
  | clearTrustedDevices | setPermanentPassword | getTrustedDevices =>
    exact faithful_nothing h fun _ _ => nofun

theorem faithful_step (hx : Undisturbed call s x) : Faithful before (step call s x) := by
  cases hth : s.threads x.call with
  | idle => exact faithful_idle h hth hx
  | unsynced => exact faithful_unsynced h hth
  | loaded devices store =>
    rw [Undisturbed, hth] at hx
    rw [step_eq, hth]
    cases store with
    | true =>
      have hrep := h.held x.call devices (hx.1.resolve_left (by simp [hth])) (by rw [hth]; rfl)
      exact faithful_set h hx.2 hrep.later fun got hgot =>
        (Option.some.inj hgot).symm
    | false => exact faithful_cache h (h.held x.call devices hx (by rw [hth]; rfl))
  | got => exact faithful_got h hth hx
  | done =>
    rw [step_eq, hth]
    exact faithful_nothing h fun _ _ => nofun

end

/-! ### Whole runs -/

/-- The process has started: nothing is cached, no call has begun. -/
def start (stored : V.Stored) (now : ℤ) : State V ι := { stored := stored, latest := now }

variable {stored : V.Stored} {now : ℤ} {xs : List (Input V ι)}

theorem distinct_run (h : Distinct (start stored now : State V ι).onDisk) :
    AllDistinct (Run.run (step call) (start stored now) xs) := by
  have hstart : AllDistinct (start stored now : State V ι) := ⟨h, List.nodup_nil, nofun⟩
  exact Run.inv_run (I := AllDistinct) (fun s x hs => hs.step x) hstart xs

def deviceOf (devices : List TrustedDevice) (hwid : Bytes) : Option TrustedDevice :=
  devices.find? fun d => d.hwid = hwid

theorem represents_deviceOf (h : Distinct devices) (t : ℤ) :
    Represents t devices (deviceOf devices) := by
  constructor
  · intro d hd
    induction devices with
    | nil => cases hd
    | cons e devices ih =>
      obtain ⟨hnotMem, hdistinct⟩ := List.nodup_cons.1 h
      rcases List.mem_cons.1 hd with rfl | hd
      · simp [deviceOf]
      · have hne : e.hwid ≠ d.hwid := fun he => hnotMem (List.mem_map.2 ⟨d, hd, he.symm⟩)
        have hrest := ih hdistinct hd
        simpa [deviceOf, hne] using hrest
  · intro d hd _
    exact List.mem_of_find?_eq_some hd

theorem faithful_of_undisturbed (h : Distinct (start stored now : State V ι).onDisk)
    (hxs : Run.Meets (step call) (Undisturbed call) (start stored now) xs) :
    Faithful (deviceOf (start stored now : State V ι).onDisk)
      (Run.run (step call) (start stored now) xs) := by
  refine Run.inv_run_of_meets (fun s x _ hs hx => faithful_step hs hx) ?_ hxs
  exact ⟨represents_deviceOf h now, nofun, nofun, fun _ => Nat.le_refl _, fun _ => ⟨rfl, rfl⟩⟩

/-- Both hold of the configuration of a machine, which stores the JSON of the list under the
machine's key. -/
theorem machine_devices (m : Machine) (pk : Option Bytes) (json : Json) {stored : Text}
    (h : Distinct (start stored now : State (m.vault pk json) ι).onDisk)
    (xs : List (Input (m.vault pk json) ι)) :
    AllDistinct (Run.run (step call) (start stored now) xs) ∧
      (Run.Meets (step call) (Undisturbed call) (start stored now) xs →
        Faithful (deviceOf (start stored now : State (m.vault pk json) ι).onDisk)
          (Run.run (step call) (start stored now) xs)) :=
  ⟨distinct_run h, faithful_of_undisturbed h⟩

/-- After any interleaving of calls no hardware id has two entries. If no call
writes after another one has written since it began, and nothing that is set
is too large: a device whose last change is its removal is in neither copy,
and a device that was added last is in both, until it is out of date. -/
theorem trusted_devices (call : ι → Call)
    (h : Distinct (start stored now : State V ι).onDisk) (xs : List (Input V ι)) :
    Distinct (Run.run (step call) (start stored now) xs).onDisk ∧
    Distinct (Run.run (step call) (start stored now) xs).devices.1 ∧
    (Run.Meets (step call) (Undisturbed call) (start stored now) xs → ∀ hwid,
      let s := Run.run (step call) (start stored now) xs
      (s.changes.findSome? (said hwid) = some none →
        ∀ d, d.hwid = hwid → d ∉ s.onDisk ∧ d ∉ s.devices.1) ∧
      ∀ d, s.changes.findSome? (said hwid) = some (some d) → d.outdate s.latest = false →
        d ∈ s.onDisk ∧ d ∈ s.devices.1) := by
  have hdistinct : AllDistinct (Run.run (step call) (start stored now) xs) := distinct_run h
  refine ⟨hdistinct.disk, hdistinct.memory, fun hxs hwid => ?_⟩
  have hfaithful := faithful_of_undisturbed h hxs
  generalize Run.run (step call) (start stored now) xs = s at hfaithful
  generalize deviceOf _ = before at hfaithful
  -- The copy in memory is the one on disk as far as it has been filled.
  refine ⟨fun hlast d hd => ?_, fun d hlast hout => ?_⟩
  · subst hd
    have hexpected : expected before s.changes d.hwid = none := by rw [expected, hlast]; rfl
    refine ⟨fun hmem => ?_, fun hmem => ?_⟩
    · have := hfaithful.disk.sound d hmem
      simp [hexpected] at this
    · cases hfilled : s.devices.2 with
      | true =>
        have := (hfaithful.memory hfilled).sound d hmem
        simp [hexpected] at this
      | false => simp [(hfaithful.unfilled hfilled).1] at hmem
  · have hhwid : d.hwid = hwid := hwid_of_said hlast
    subst hhwid
    have hexpected : expected before s.changes d.hwid = some d := by rw [expected, hlast]; rfl
    refine ⟨hfaithful.disk.complete d hexpected hout, ?_⟩
    cases hfilled : s.devices.2 with
    | true => exact (hfaithful.memory hfilled).complete d hexpected hout
    | false => simp [(hfaithful.unfilled hfilled).2] at hlast

def openVault : Vault where
  Stored := List TrustedDevice
  Nonce := Unit
  size := List.length
  encrypt := fun _ devices => devices
  decrypt := fun devices => some (devices, false)
  decrypt_encrypt := fun _ _ _ => rfl

def phone : TrustedDevice := ⟨[1], 0, [], [], []⟩

def laptop : TrustedDevice := ⟨[2], 0, [], [], []⟩

def addAndRemove : Fin 3 → Call
  | 0 => .addTrustedDevice laptop
  | 1 => .removeTrustedDevices [phone.hwid]
  | 2 => .getTrustedDevices

def turn (i : Fin 3) : Input openVault (Fin 3) := ⟨i, 0, ()⟩

theorem trusted_devices_laptop :
    let s := Run.run (step addAndRemove) (start (V := openVault) [phone] 0)
      ([1, 1, 1, 1, 0, 0].map turn)
    phone ∉ s.devices.1 ∧ laptop ∈ s.onDisk := by
  have hstart : Distinct (start (V := openVault) [phone] 0 : State openVault (Fin 3)).onDisk := by
    decide
  have h := (trusted_devices addAndRemove hstart ([1, 1, 1, 1, 0, 0].map turn)).2.2 (by decide)
  exact ⟨((h phone.hwid).1 rfl phone rfl).2, ((h laptop.hwid).2 laptop rfl rfl).1⟩

/-- The laptop's call has got the list when the phone is removed, and sets it with the phone.
The first call that gets the list fills the cache with the phone after it was removed. -/
theorem removed_device_returns :
    let s := Run.run (step addAndRemove) (start (V := openVault) [phone] 0)
      ([0, 0, 0, 1, 1, 0].map turn)
    let s' := Run.run (step addAndRemove) (start (V := openVault) [phone] 0)
      ([2, 2, 1, 1, 1, 1, 2].map turn)
    (s.threads 1 = .done ∧ phone ∈ s.devices.1 ∧ phone ∈ s.onDisk) ∧
      s'.threads 1 = .done ∧ phone ∈ s'.devices.1 ∧ phone ∉ s'.onDisk := by
  decide

end State

end Trusted

end CodeDesk.Auth
