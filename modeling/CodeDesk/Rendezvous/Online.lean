/-
# What a node reads from the answers of a server

An `OnlineResponse` holds one bit for each id of the request, packed by
`handle_online_request` and read by `query_online_states_` of the client
(`src/client.rs`); an address travels mangled. Both readers trust what they are
sent: the bits are looked up by the length of the request, and the clock is
subtracted from a number that came with it. Here they stop where an index is out
of range or a subtraction underflows, so what they accept can be said exactly.
-/
import CodeDesk.Rendezvous.Handlers
import Mathlib.Data.List.GetD
import Mathlib.Data.Nat.Bitwise

namespace CodeDesk.Rendezvous

/-! ### The bits of the ids -/

namespace Online

def bitValue (i : ℕ) : UInt8 := UInt8.ofNat (2 ^ (7 - i % 8))

/-- One round of the loop of `query_online_states_`; `none` if the index is out of range. -/
def push (states : Bytes) (acc : List String × List String) (x : String × ℕ) :
    Option (List String × List String) := do
  let byte ← states[x.2 / 8]?
  if byte &&& bitValue x.2 = bitValue x.2 then return (acc.1 ++ [x.1], acc.2)
  else return (acc.1, acc.2 ++ [x.1])

/-- The online and the offline ids, from the states that were answered for `ids`. -/
def queryOnlineStates (ids : List String) (states : Bytes) :
    Option (List String × List String) :=
  ids.zipIdx.foldlM (push states) ([], [])

/-- The bit of the id at `i`, if there is a byte that holds it. -/
def bit (states : Bytes) (i : ℕ) : Option Bool :=
  states[i / 8]?.map fun b => b.toNat.testBit (7 - i % 8)

theorem toNat_bitValue (i : ℕ) : (bitValue i).toNat = 2 ^ (7 - i % 8) := by
  have h : 2 ^ (7 - i % 8) < 2 ^ 8 := Nat.pow_lt_pow_right (by omega) (by omega)
  rw [bitValue, UInt8.toNat_ofNat', Nat.mod_eq_of_lt h]

theorem and_bitValue_iff (b : UInt8) (i : ℕ) :
    b &&& bitValue i = bitValue i ↔ b.toNat.testBit (7 - i % 8) = true := by
  rw [← UInt8.toNat_inj, UInt8.toNat_and, toNat_bitValue, Nat.and_two_pow]
  cases b.toNat.testBit (7 - i % 8) with
  | true => simp
  | false => simp [(Nat.two_pow_pos _).ne]

variable {states : Bytes}

theorem isSome_bit_iff {i : ℕ} : (bit states i).isSome ↔ i < 8 * states.length := by
  rw [bit, Option.isSome_map, Option.isSome_iff_ne_none, ne_eq, List.getElem?_eq_none_iff]
  omega

theorem push_eq (acc : List String × List String) (x : String × ℕ) :
    push states acc x = (bit states x.2).map fun b =>
      if b then (acc.1 ++ [x.1], acc.2) else (acc.1, acc.2 ++ [x.1]) := by
  rw [push, bit]
  cases states[x.2 / 8]? with
  | none => rfl
  | some b =>
    simp only [and_bitValue_iff]
    exact (apply_ite some ..).symm

theorem isSome_foldlM_push (xs : List (String × ℕ)) (acc : List String × List String) :
    (xs.foldlM (push states) acc).isSome ↔ ∀ x ∈ xs, x.2 < 8 * states.length := by
  induction xs generalizing acc with
  | nil => simp
  | cons x xs ih =>
    rw [List.foldlM_cons, push_eq, List.forall_mem_cons, ← isSome_bit_iff]
    cases bit states x.2 with
    | none => simp
    | some b => simpa using ih _

theorem queryOnlineStates_isSome_iff (ids : List String) (states : Bytes) :
    (queryOnlineStates ids states).isSome ↔ ids.length ≤ 8 * states.length := by
  rw [queryOnlineStates, isSome_foldlM_push]
  constructor
  · intro h
    by_contra hlen
    have hlt : 8 * states.length < ids.length := by omega
    exact (h (ids[8 * states.length], _) (List.mk_mem_zipIdx_iff_getElem?.2 (by simp [hlt]))).false
  · intro h x hx
    exact (List.snd_lt_of_mem_zipIdx hx).trans_le (by omega)

/-- What the loop gives where every bit is there. -/
theorem foldlM_push {online : String → Bool} {ids : List (String × ℕ)}
    (h : ∀ x ∈ ids, bit states x.2 = some (online x.1)) (acc : List String × List String) :
    ids.foldlM (push states) acc = some (acc.1 ++ (ids.map (·.1)).filter online,
        acc.2 ++ (ids.map (·.1)).filter (! online ·)) := by
  induction ids generalizing acc with
  | nil => simp
  | cons x ids ih =>
    obtain ⟨hx, hids⟩ := List.forall_mem_cons.1 h
    rw [List.foldlM_cons, push_eq, hx]
    cases ho : online x.1 <;> simp [ih hids, ho]

/-! ### The bits that the server sets -/

theorem bit_setOnline {i : ℕ} (hi : i < 8 * states.length) (j : ℕ) :
    bit (Server.setOnline states i) j = if i = j then some true else bit states j := by
  have hlt : i / 8 < states.length := by omega
  have hval : (UInt8.ofNat (2 ^ (7 - i % 8))).toNat = 2 ^ (7 - i % 8) := toNat_bitValue i
  rw [bit, bit, Server.setOnline, List.getElem?_modify]
  by_cases hij : i / 8 = j / 8
  · have hbit : 7 - i % 8 = 7 - j % 8 ↔ i = j := by omega
    rw [← hij, List.getElem?_eq_getElem hlt]
    simp only [if_true, Option.map_eq_map, Option.map_some, UInt8.toNat_or, hval, Nat.testBit_or,
      Nat.testBit_two_pow, hbit]
    by_cases h : i = j <;> simp [h]
  · have hne : i ≠ j := fun h => hij (h ▸ rfl)
    simp [hij, hne]

variable (online : String → Bool)

/-- The loop of `handle_online_request`. -/
def pack (ids : List (String × ℕ)) (states : Bytes) : Bytes :=
  ids.foldl (fun states x => if online x.1 then Server.setOnline states x.2 else states) states

/-- The bits of the ids that are online are set, the others are left. -/
theorem bit_pack (ids : List (String × ℕ)) (states : Bytes)
    (hlt : ∀ x ∈ ids, x.2 < 8 * states.length) (i : ℕ) :
    bit (pack online ids states) i =
      if ids.any fun x => decide (x.2 = i) && online x.1 then some true else bit states i := by
  induction ids generalizing states with
  | nil => simp [pack]
  | cons x ids ih =>
    obtain ⟨hx, hids⟩ := List.forall_mem_cons.1 hlt
    rw [pack, List.foldl_cons, List.any_cons]
    by_cases ho : online x.1 = true
    · have hlen : (Server.setOnline states x.2).length = states.length := List.length_modify ..
      rw [if_pos ho]
      refine (ih _ (by rwa [hlen])).trans ?_
      rw [bit_setOnline hx]
      by_cases h : x.2 = i
      · simp [h, ho]
      · simp [h, -List.any_eq_true]
    · rw [if_neg ho]
      refine (ih _ hids).trans ?_
      simp [ho, -List.any_eq_true]

/-- What is packed for the ids is read from the states again. -/
theorem queryOnlineStates_pack (ids : List String) :
    queryOnlineStates ids (pack online ids.zipIdx (List.replicate ((ids.length + 7) / 8) 0)) =
      some (ids.filter online, ids.filter (! online ·)) := by
  have hlt : ∀ x ∈ ids.zipIdx,
      x.2 < 8 * (List.replicate ((ids.length + 7) / 8) (0 : UInt8)).length := by
    intro x hx
    have := List.snd_lt_of_mem_zipIdx hx
    rw [List.length_replicate]
    omega
  rw [queryOnlineStates, @foldlM_push _ online, List.zipIdx_map_fst]
  · rfl
  intro x hx
  have hzero : bit (List.replicate ((ids.length + 7) / 8) 0) x.2 = some false := by
    have := hlt x hx
    rw [List.length_replicate] at this
    rw [bit, List.getElem?_replicate, if_pos (by omega)]
    exact congrArg some (Nat.zero_testBit _)
  rw [bit_pack online _ _ hlt, hzero]
  cases ho : online x.1 with
  | true => exact if_pos (List.any_eq_true.2 ⟨x, hx, by simp [ho]⟩)
  | false =>
    refine if_neg fun h => ?_
    obtain ⟨y, hy, h⟩ := List.any_eq_true.1 h
    obtain ⟨hi, hy'⟩ := (Bool.and_eq_true _ _).mp h
    rw [List.mem_zipIdx_iff_getElem?] at hx hy
    rw [of_decide_eq_true hi, hx] at hy
    simp [← Option.some_inj.1 hy, ho] at hy'

end Online

/-- The peer of the id is in memory and registered less than `REG_TIMEOUT` ago. -/
def Server.isOnline (e : Env) (st : Server) (id : String) : Bool :=
  (st.pm.map id).any fun p => e.now - p.lastRegTime < regTimeout

/-- **The client reads what the server packed.** -/
theorem queryOnlineStates_response (e : Env) (st : Server) (ids : List String) :
    ∃ states, st.handleOnlineRequest e ids = .onlineResponse states ∧
      Online.queryOnlineStates ids states =
        some (ids.filter (st.isOnline e ·), ids.filter (! st.isOnline e ·)) :=
  ⟨Online.pack (st.isOnline e) ids.zipIdx _, rfl, Online.queryOnlineStates_pack (st.isOnline e) ids⟩

/-! ### Mangled addresses -/

namespace AddrMangle

/-- A subtraction of a build that checks its arithmetic. -/
def checkedSub (a b : BitVec 128) : Option (BitVec 128) := if a < b then none else some (a - b)

/-- `AddrMangle::decode` of such a build. -/
def decodeChecked (bytes : Bytes) : Option SocketAddr :=
  -- an IPv6 address is read without a subtraction
  if 16 < bytes.length then some (decode bytes)
  else do
    let number := BitVec.ofNat 128 (ofLeBytes bytes)
    let tm := (number >>> 17) &&& 0xFFFFFFFF#128
    let ip ← checkedSub (number >>> 49) tm
    let port ← checkedSub (number &&& 0xFFFFFF#128) (tm &&& 0xFFFF#128)
    return .v4 (BitVec.ofNat 32 (ofLeBytes (leBytes 4 (ip.setWidth 32).toNat).reverse))
      (port.setWidth 16)

/-- The clock in the number is at most what it is subtracted from, in both places. -/
def Fits (number : ℕ) : Prop :=
  number / 2 ^ 17 % 2 ^ 32 ≤ number / 2 ^ 49 ∧ number / 2 ^ 17 % 2 ^ 16 ≤ number % 2 ^ 24

instance (number : ℕ) : Decidable (Fits number) := inferInstanceAs (Decidable (_ ∧ _))

theorem decodeChecked_eq (bytes : Bytes) : decodeChecked bytes =
    if 16 < bytes.length ∨ Fits (ofLeBytes bytes) then some (decode bytes) else none := by
  by_cases hlen : 16 < bytes.length
  · rw [decodeChecked, if_pos hlen, if_pos (.inl hlen)]
  have hlt : ofLeBytes bytes < 256 ^ 16 :=
    (ofLeBytes_lt bytes).trans_le (Nat.pow_le_pow_right (by omega) (Nat.not_lt.1 hlen))
  simp only [decodeChecked, hlen, if_false, false_or, checkedSub, decode]
  generalize hv : BitVec.ofNat 128 (ofLeBytes bytes) = v
  have hn : v.toNat = ofLeBytes bytes := by
    rw [← hv, BitVec.toNat_ofNat]
    omega
  have hfits : Fits (ofLeBytes bytes) ↔ ¬v >>> 49 < (v >>> 17) &&& 0xFFFFFFFF#128 ∧
      ¬v &&& 0xFFFFFF#128 < (v >>> 17) &&& 0xFFFFFFFF#128 &&& 0xFFFF#128 := by
    have hlow := toNat_and_mask v (n := 24) (by omega)
    have hmask := toNat_and_mask ((v >>> 17) &&& 0xFFFFFFFF#128) (n := 16) (by omega)
    rw [BitVec.lt_def, BitVec.lt_def, toNat_shiftRight_ip, toNat_clock, Fits, ← hn]
    rw [toNat_clock] at hmask
    dsimp only [Nat.reducePow, Nat.reduceSub] at hlow hmask
    omega
  by_cases hip : v >>> 49 < (v >>> 17) &&& 0xFFFFFFFF#128
  · simp [hfits, hip]
  · by_cases hport : v &&& 0xFFFFFF#128 < (v >>> 17) &&& 0xFFFFFFFF#128 &&& 0xFFFF#128 <;>
      simp [hfits, hip, hport]

/-- **What is mangled is found again**, and nothing underflows on the way. -/
theorem decodeChecked_encode (tm : BitVec 32) (addr : SocketAddr) :
    decodeChecked (encode tm addr) = some (tryIntoV4 addr).bare := by
  rw [decodeChecked_eq, decode_encode, if_pos]
  rw [encode]
  cases tryIntoV4 addr with
  | v4 a p =>
    have hclock : pack (ipNumber a) tm.toNat p.toNat / 2 ^ 17 =
        2 ^ 32 * (ipNumber a + tm.toNat) + tm.toNat := by
      rw [pack]
      omega
    have htm : (2 ^ 32 * (ipNumber a + tm.toNat) + tm.toNat) % 2 ^ 32 = tm.toNat := by omega
    have hip : pack (ipNumber a) tm.toNat p.toNat / 2 ^ 49 = ipNumber a + tm.toNat := by
      rw [pack]
      omega
    have hlow : pack (ipNumber a) tm.toNat p.toNat % 2 ^ 17 = p.toNat + tm.toNat % 2 ^ 16 := by
      rw [pack]
      omega
    right
    rw [ofLeBytes_encodeV4, Fits, hclock, hip, htm]
    omega
  | v6 a p =>
    left
    have h18 := length_encodeV6 a p
    dsimp only
    omega

end AddrMangle

/-- **When the readers complete.** -/
theorem readers_complete_iff (bytes : Bytes) (ids : List String) (states : Bytes) :
    ((AddrMangle.decodeChecked bytes).isSome ↔
      16 < bytes.length ∨ AddrMangle.Fits (AddrMangle.ofLeBytes bytes)) ∧
    ((Online.queryOnlineStates ids states).isSome ↔ ids.length ≤ 8 * states.length) := by
  refine ⟨?_, Online.queryOnlineStates_isSome_iff ids states⟩
  rw [AddrMangle.decodeChecked_eq]
  split <;> simp [*]

/-- A number that is only a clock, and states without a byte for the id. -/
theorem short_answers_fail :
    AddrMangle.decodeChecked [0, 0, 2] = none ∧ Online.queryOnlineStates ["1"] [] = none :=
  ⟨rfl, rfl⟩

end CodeDesk.Rendezvous
