/-
# The table of wrong attempts

`LOGIN_FAILURES[0]` of `src/server/connection.rs` and the functions that read
and write it: an address and, for IPv6, its three prefixes each have an entry.
How the standard library writes and reads addresses is a parameter (`Net`)
with the laws used of it (`Net.Lawful`).
-/
import CodeDesk.Conn.Login
import Mathlib.Data.List.TakeWhile
import Mathlib.Data.List.Nodup
import Mathlib.Algebra.Ring.Nat

namespace CodeDesk.Conn

/-! ### Addresses -/

inductive IpAddr where
  | v4 (a : BitVec 32)
  | v6 (a : BitVec 128)
  deriving DecidableEq, Repr

/-- `to_string` of an address and `Ipv6Addr::from_str`. -/
structure Net where
  text : IpAddr → String
  parseV6 : String → Option (BitVec 128)

namespace Net

/-- An address is written without a slash, a zone or a blank, and what is
written is read back; an IPv4 address does not read as an IPv6 one. -/
structure Lawful (net : Net) : Prop where
  clean : ∀ ip, ∀ c ∈ (net.text ip).toList, c ≠ '/' ∧ c ≠ '%' ∧ isWhite c = false
  injective : ∀ a b, net.text (.v4 a) = net.text (.v4 b) → a = b
  parse_v4 : ∀ a, net.parseV6 (net.text (.v4 a)) = none
  parse_v6 : ∀ a, net.parseV6 (net.text (.v6 a)) = some a

variable (net : Net)

def maskU128 (addr : BitVec 128) (length : ℕ) : BitVec 128 :=
  addr &&& if length = 0 ∨ 128 < length then 0#128 else BitVec.allOnes 128 <<< (128 - length)

def prefixText (a : BitVec 128) (length : ℕ) : String :=
  net.text (.v6 (maskU128 a length)) ++ "/" ++ toString length

def trim (s : List Char) : List Char :=
  ((s.dropWhile isWhite).reverse.dropWhile isWhite).reverse

/-- The prefixes of length 64, 56 and 48; the zone of an address is left out. -/
def getIpv6Prefixes (ip : String) : Option (String × String × String) :=
  let ipOnly := String.ofList (trim (ip.toList.takeWhile (· ≠ '%')))
  (net.parseV6 ipOnly).map fun a => (net.prefixText a 64, net.prefixText a 56, net.prefixText a 48)

end Net

/-! ### The table -/

/-- The minute of the last wrong attempt, the attempts in that minute and all
attempts. -/
structure Failure where
  minute : ℤ := 0
  inMinute : ℤ := 0
  total : ℤ := 0
  deriving DecidableEq, Repr

def bumpFailureEntry (cur : Failure) (time : ℤ) : Failure :=
  if cur.minute = time then
    { cur with inMinute := cur.inMinute + 1, total := cur.total + 1 }
  else { minute := time, inMinute := 1, total := cur.total + 1 }

def asI32 (n : ℕ) : ℤ := Int.bmod n (2 ^ 32)

def minuteOf (now : ℕ) : ℤ := asI32 (now / 60000)

structure Failures where
  entry : String → Option Failure := fun _ => none

namespace Failures

def get (m : Failures) (key : String) : Failure := (m.entry key).getD {}

def insert (m : Failures) (key : String) (f : Failure) : Failures :=
  ⟨fun k => if k = key then some f else m.entry k⟩

def remove (m : Failures) (key : String) : Failures :=
  ⟨fun k => if k = key then none else m.entry k⟩

def bump (time : ℤ) (m : Failures) (key : String) : Failures :=
  m.insert key (bumpFailureEntry (m.get key) time)

variable (net : Net)

def keys (ip : String) : List String :=
  match net.getIpv6Prefixes ip with
  | some (p64, p56, p48) => [p64, p56, p48, ip]
  | none => [ip]

/-- `update_failure`. A success (`clear`) clears only if the address had an
entry when it was checked. -/
def updateFailure (ip : String) (failure : Failure) (time : ℤ) (clear : Bool) (m : Failures) :
    Failures :=
  if clear then if failure.minute ≠ 0 then (keys net ip).foldl remove m else m
  else (keys net ip).foldl (bump time) m

def checkAddress (ip : String) (time : ℤ) (m : Failures) : Failure × Option Block :=
  let failure := m.get ip
  (failure,
    if 30 < failure.total then some .tooManyWrongAttempts
    else if time = failure.minute ∧ 6 < failure.inMinute then some .oneMinuteLater
    else none)

/-- `check_failure`: the entry found and the refusal, if any. -/
def checkFailure (ip : String) (time : ℤ) (m : Failures) : Failure × Option Block :=
  match net.getIpv6Prefixes ip with
  | some (p64, p56, p48) =>
    if 60 < (m.get p64).total then (m.get p64, some (.ipv6Prefix 64))
    else if 80 < (m.get p56).total then (m.get p56, some (.ipv6Prefix 56))
    else if 100 < (m.get p48).total then (m.get p48, some (.ipv6Prefix 48))
    else checkAddress ip time m
  | none => checkAddress ip time m

end Failures

/-! ### The entries of an address -/

namespace Net

variable {net : Net} (hn : net.Lawful)
include hn

theorem trim_text (ip : IpAddr) : trim (net.text ip).toList = (net.text ip).toList := by
  have hw : ∀ s : List Char, (∀ c ∈ s, isWhite c = false) → s.dropWhile isWhite = s := by
    intro s hs
    cases s with
    | nil => rfl
    | cons c => simp [hs c List.mem_cons_self]
  have hc : ∀ c ∈ (net.text ip).toList, isWhite c = false := fun c h => (hn.clean ip c h).2.2
  rw [trim, hw _ hc, hw _ fun c h => hc c (List.mem_reverse.1 h), List.reverse_reverse]

theorem ipOnly_text (ip : IpAddr) :
    String.ofList (trim ((net.text ip).toList.takeWhile (· ≠ '%'))) = net.text ip := by
  have ht : (net.text ip).toList.takeWhile (· ≠ '%') = (net.text ip).toList :=
    List.takeWhile_eq_self_iff.2 fun c h => by simpa using (hn.clean ip c h).2.1
  rw [ht, trim_text hn, String.ofList_toList]

theorem getIpv6Prefixes_v4 (a : BitVec 32) : net.getIpv6Prefixes (net.text (.v4 a)) = none := by
  unfold getIpv6Prefixes
  dsimp only
  rw [ipOnly_text hn, hn.parse_v4]
  rfl

theorem getIpv6Prefixes_v6 (a : BitVec 128) : net.getIpv6Prefixes (net.text (.v6 a)) =
    some (net.prefixText a 64, net.prefixText a 56, net.prefixText a 48) := by
  unfold getIpv6Prefixes
  dsimp only
  rw [ipOnly_text hn, hn.parse_v6]
  rfl

theorem text_injective {a b : IpAddr} (h : net.text a = net.text b) : a = b := by
  cases a with
  | v4 a =>
    cases b with
    | v4 b => rw [hn.injective a b h]
    | v6 =>
      have hp := hn.parse_v4 a
      simp [h, hn.parse_v6] at hp
  | v6 a =>
    have hp := hn.parse_v6 a
    cases b with
    | v4 =>
      simp [h, hn.parse_v4] at hp
    | v6 =>
      rw [h, hn.parse_v6] at hp
      rw [Option.some.inj hp]

omit hn in
theorem prefixText_toList (a : BitVec 128) (n : ℕ) : (net.prefixText a n).toList =
    (net.text (.v6 (maskU128 a n))).toList ++ '/' :: (toString n).toList := by
  simp [prefixText, String.toList_append]

theorem text_ne_prefixText (ip : IpAddr) (a : BitVec 128) (n : ℕ) :
    net.text ip ≠ net.prefixText a n := by
  intro h
  have hs : '/' ∈ (net.text ip).toList := by
    rw [h, prefixText_toList]
    simp
  exact (hn.clean ip '/' hs).1 rfl

theorem prefixText_inj {a b : BitVec 128} {n k : ℕ} (h : net.prefixText a n = net.prefixText b k) :
    maskU128 a n = maskU128 b k ∧ n = k := by
  have hl := congrArg String.toList h
  rw [prefixText_toList, prefixText_toList] at hl
  have hslash : ∀ (x : BitVec 128) (r : List Char),
      ((net.text (.v6 x)).toList ++ '/' :: r).takeWhile (· ≠ '/') = (net.text (.v6 x)).toList := by
    intro x r
    rw [List.takeWhile_append_of_pos]
    · simp
    · intro c hc
      simpa using (hn.clean (.v6 x) c hc).1
  have ht := congrArg (List.takeWhile (· ≠ '/')) hl
  rw [hslash, hslash] at ht
  rw [ht] at hl
  have hr := (List.cons.inj (List.append_cancel_left hl)).2
  have hv := text_injective hn (String.toList_injective ht)
  have hd := congrArg (fun ds => Nat.ofDigitChars 10 ds 0) hr
  exact ⟨by injection hv, by simpa using hd⟩

end Net

/-- The addresses with the first `n` bits of `a`. -/
def IpAddr.InPrefix (a : BitVec 128) (n : ℕ) : IpAddr → Prop
  | .v4 _ => False
  | .v6 b => Net.maskU128 b n = Net.maskU128 a n

instance (a : BitVec 128) (n : ℕ) : DecidablePred (IpAddr.InPrefix a n)
  | .v4 _ => inferInstanceAs (Decidable False)
  | .v6 b => inferInstanceAs (Decidable (Net.maskU128 b n = Net.maskU128 a n))

namespace Failures

section Keys

variable {net : Net} (hn : net.Lawful)
include hn

theorem keys_v4 (a : BitVec 32) : keys net (net.text (.v4 a)) = [net.text (.v4 a)] := by
  rw [keys, Net.getIpv6Prefixes_v4 hn]

theorem keys_v6 (a : BitVec 128) : keys net (net.text (.v6 a)) =
    [net.prefixText a 64, net.prefixText a 56, net.prefixText a 48, net.text (.v6 a)] := by
  rw [keys, Net.getIpv6Prefixes_v6 hn]

theorem text_mem_keys {a b : IpAddr} : net.text a ∈ keys net (net.text b) ↔ b = a := by
  cases b with
  | v4 =>
    rw [keys_v4 hn, List.mem_singleton]
    exact ⟨fun h => (Net.text_injective hn h).symm, fun h => h ▸ rfl⟩
  | v6 =>
    rw [keys_v6 hn]
    simp only [List.mem_cons, Net.text_ne_prefixText hn, List.not_mem_nil, false_or, or_false]
    exact ⟨fun h => (Net.text_injective hn h).symm, fun h => h ▸ rfl⟩

theorem prefixText_mem_keys {a : BitVec 128} {n : ℕ} (hl : n = 64 ∨ n = 56 ∨ n = 48) {b : IpAddr} :
    net.prefixText a n ∈ keys net (net.text b) ↔ b.InPrefix a n := by
  have hne : ∀ c, net.prefixText a n ≠ net.text c := fun c h =>
    Net.text_ne_prefixText hn c a n h.symm
  cases b with
  | v4 =>
    rw [keys_v4 hn, List.mem_singleton]
    exact ⟨fun h => absurd h (hne _), False.elim⟩
  | v6 b =>
    have hmask : ∀ k, net.prefixText a n = net.prefixText b k ↔
        Net.maskU128 b n = Net.maskU128 a n ∧ n = k := by
      intro k
      constructor
      · intro h
        obtain ⟨hm, rfl⟩ := Net.prefixText_inj hn h
        exact ⟨hm.symm, rfl⟩
      · rintro ⟨hm, rfl⟩
        unfold Net.prefixText
        rw [hm]
    rw [keys_v6 hn]
    simp only [List.mem_cons, hmask, hne, List.not_mem_nil, or_false, IpAddr.InPrefix]
    constructor
    · rintro (h | h | h) <;> exact h.1
    intro h
    rcases hl with rfl | rfl | rfl
    · exact .inl ⟨h, rfl⟩
    · exact .inr (.inl ⟨h, rfl⟩)
    · exact .inr (.inr ⟨h, rfl⟩)

theorem keys_nodup (ip : IpAddr) : (keys net (net.text ip)).Nodup := by
  cases ip with
  | v4 =>
    rw [keys_v4 hn]
    exact List.nodup_singleton _
  | v6 a =>
    have hlen : ∀ n k, n ≠ k → net.prefixText a n ≠ net.prefixText a k :=
      fun n k hk h => hk (Net.prefixText_inj hn h).2
    have hne : ∀ n, net.prefixText a n ≠ net.text (.v6 a) := fun n h =>
      Net.text_ne_prefixText hn _ a n h.symm
    rw [keys_v6 hn]
    simp only [List.nodup_cons, List.mem_cons, List.not_mem_nil, or_false, not_or, hne,
      not_false_eq_true, and_true, List.nodup_nil]
    exact ⟨⟨hlen 64 56 (by decide), hlen 64 48 (by decide)⟩, hlen 56 48 (by decide)⟩

end Keys

/-! ### Reading what was written -/

theorem get_bump (m : Failures) (time : ℤ) (key k : String) : (bump time m key).get k =
      if k = key then bumpFailureEntry (m.get key) time else m.get k := by
  unfold bump insert get
  dsimp only
  split <;> rfl

theorem get_remove (m : Failures) (key k : String) :
    (m.remove key).get k = if k = key then {} else m.get k := by
  unfold remove get
  dsimp only
  split <;> rfl

theorem get_foldl_bump (time : ℤ) (k : String) : ∀ (ks : List String) (m : Failures), ks.Nodup →
      (ks.foldl (bump time) m).get k = if k ∈ ks then bumpFailureEntry (m.get k) time else m.get k
  | [], _, _ => rfl
  | key :: ks, m, hnd => by
    obtain ⟨hkey, hks⟩ := List.nodup_cons.1 hnd
    rw [List.foldl_cons, get_foldl_bump time k ks _ hks, get_bump]
    by_cases hk : k = key
    · subst hk
      simp [hkey]
    · simp [hk]

theorem get_foldl_remove (k : String) : ∀ (ks : List String) (m : Failures),
    (ks.foldl remove m).get k = if k ∈ ks then {} else m.get k
  | [], _ => rfl
  | key :: ks, m => by
    rw [List.foldl_cons, get_foldl_remove k ks, get_remove]
    by_cases hk : k = key <;> simp [hk]

/-! ### What an address that is not refused has -/

section Check

variable {net : Net} {ip : String} {time : ℤ} {m : Failures}

theorem checkAddress_none (hb : (checkAddress ip time m).2 = none) :
    (m.get ip).total ≤ 30 ∧ (time = (m.get ip).minute → (m.get ip).inMinute ≤ 6) := by
  unfold checkAddress at hb
  dsimp only at hb
  split at hb
  · cases hb
  rename_i ht
  split_ifs at hb
  rename_i hm
  exact ⟨Int.not_lt.1 ht, fun h => Int.not_lt.1 fun hx => hm ⟨h, hx⟩⟩

theorem checkFailure_none (hb : (checkFailure net ip time m).2 = none) :
    (checkFailure net ip time m) = checkAddress ip time m ∧
      ∀ p64 p56 p48, net.getIpv6Prefixes ip = some (p64, p56, p48) →
        (m.get p64).total ≤ 60 ∧ (m.get p56).total ≤ 80 ∧ (m.get p48).total ≤ 100 := by
  unfold checkFailure at hb ⊢
  cases hp : net.getIpv6Prefixes ip with
  | none => exact ⟨rfl, nofun⟩
  | some ps =>
    rw [hp] at hb
    dsimp only at hb ⊢
    split at hb
    · cases hb
    rename_i h64
    split at hb
    · cases hb
    rename_i h56
    split_ifs at hb with h48
    rw [if_neg h64, if_neg h56, if_neg h48]
    refine ⟨rfl, ?_⟩
    rintro _ _ _ ⟨⟩
    exact ⟨Int.not_lt.1 h64, Int.not_lt.1 h56, Int.not_lt.1 h48⟩

end Check

end Failures

def Net.decimal : Net where
  text
    | .v4 a => toString a.toNat
    | .v6 a => String.ofList (':' :: (toString a.toNat).toList)
  parseV6 s :=
    match s.toList with
    | ':' :: ds => some (BitVec.ofNat 128 (Nat.ofDigitChars 10 ds 0))
    | _ => none

theorem Net.decimal_lawful : Net.decimal.Lawful := by
  have hdigit : ∀ n : ℕ, ∀ c ∈ (toString n).toList, 48 ≤ c.toNat ∧ c.toNat ≤ 57 := by
    intro n c hc
    rw [Nat.toString_eq_ofList_toDigits, String.toList_ofList] at hc
    have hd := Nat.isDigit_of_mem_toDigits (by decide) (by decide) hc
    simp only [Char.isDigit, Bool.and_eq_true, decide_eq_true_eq] at hd
    exact hd
  have hclean : ∀ c : Char, 48 ≤ c.toNat ∧ c.toNat ≤ 58 →
      c ≠ '/' ∧ c ≠ '%' ∧ isWhite c = false := by
    rintro c ⟨h₁, h₂⟩
    refine ⟨?_, ?_, ?_⟩
    · rintro rfl
      exact absurd h₁ (by decide)
    · rintro rfl
      exact absurd h₁ (by decide)
    · simp only [isWhite, List.mem_cons, List.not_mem_nil, or_false, Bool.or_eq_false_iff,
        Bool.and_eq_false_iff, decide_eq_false_iff_not]
      omega
  constructor
  · intro ip c hc
    cases ip with
    | v4 =>
      have := hdigit _ c hc
      exact hclean c (by omega)
    | v6 a =>
      have hc : c ∈ ':' :: (toString a.toNat).toList := by simpa [Net.decimal] using hc
      rcases List.mem_cons.1 hc with rfl | hc
      · exact hclean ':' (by decide)
      · have := hdigit _ c hc
        exact hclean c (by omega)
  · intro a b hab
    have hd := congrArg (fun s => Nat.ofDigitChars 10 (String.toList s) 0) hab
    simp only [Net.decimal] at hd
    exact BitVec.eq_of_toNat_eq (by simpa using hd)
  · intro a
    simp only [Net.decimal]
    split
    · rename_i ds hs
      have := hdigit a.toNat ':' (hs ▸ List.mem_cons_self)
      exact absurd this (by decide)
    · rfl
  · intro a
    simp [Net.decimal]

end CodeDesk.Conn
