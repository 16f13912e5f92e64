/-
# The frame codec as a decoder

`BytesCodec` (`bytes_codec.rs`) with its limit on the length of a packet: the
record with its three fields, `decode` with every outcome, and `encode`. Outside
raw mode it is a decoder of the library (`Codec.decoder`): what a call gives does
not depend on the input that stands behind the buffer, so the chunks in which
the bytes arrive do not matter.

`Spelled fs w` says that the bytes `w` are the frames `fs`, each behind a header
with its length. A header need not be the shortest one: `encode` writes one of
them and `decode` takes them all.
-/
import CodeDesk.Incremental
import CodeDesk.Net.Codec

namespace CodeDesk.Net

open Framing (State)

/-! ### The codec -/

inductive ErrorKind where
  | invalidData
  | invalidInput
  deriving DecidableEq, Repr

structure IoError where
  kind : ErrorKind
  message : String
  deriving DecidableEq, Repr

def tooBigPacket : IoError := ⟨.invalidData, "Too big packet"⟩

def overflow : IoError := ⟨.invalidInput, "Overflow"⟩

structure Codec where
  state : State
  raw : Bool
  maxPacketLength : ℕ
  deriving DecidableEq, Repr

namespace Codec

def usizeMax : ℕ := 18446744073709551615

def new : Codec := ⟨.head, false, usizeMax⟩

def setRaw (c : Codec) : Codec := { c with raw := true }

def setMaxPacketLength (c : Codec) (n : ℕ) : Codec := { c with maxPacketLength := n }

/-- `decode_head` of the codec; a header that is refused stays in the buffer. -/
def decodeHead (c : Codec) (src : Bytes) : Except IoError (Option (ℕ × Bytes)) :=
  match Net.decodeHead src with
  | none => .ok none
  | some (n, rest) => if c.maxPacketLength < n then .error tooBigPacket else .ok (some (n, rest))

def decodeData (n : ℕ) (src : Bytes) : Option (Bytes × Bytes) :=
  if src.length < n then none else some (src.take n, src.drop n)

def decodeBody (c : Codec) (n : ℕ) (src : Bytes) : Codec × Bytes × Except IoError (Option Bytes) :=
  match decodeData n src with
  | some (data, rest) => ({ c with state := .head }, rest, .ok (some data))
  | none => (c, src, .ok none)

/-- The codec and the buffer afterwards, and the result. -/
def decode (c : Codec) (src : Bytes) : Codec × Bytes × Except IoError (Option Bytes) :=
  if c.raw then
    if src = [] then (c, src, .ok none) else (c, [], .ok (some src))
  else
    match c.state with
    | .head =>
      match c.decodeHead src with
      | .error e => (c, src, .error e)
      | .ok none => (c, src, .ok none)
      | .ok (some (n, rest)) => ({ c with state := .data n }).decodeBody n rest
    | .data n => c.decodeBody n src

/-- The output buffer afterwards, and the result. -/
def encode (c : Codec) (data buf : Bytes) : Bytes × Except IoError Unit :=
  if c.raw then (buf ++ data, .ok ())
  else
    match encodeHead data.length with
    | some h => (buf ++ h ++ data, .ok ())
    | none => (buf, .error overflow)

/-- The payloads encoded one after the other into one buffer, up to the first error. -/
def encodeAll (c : Codec) : List Bytes → Bytes → Bytes × Except IoError Unit
  | [], buf => (buf, .ok ())
  | data :: payloads, buf =>
    match c.encode data buf with
    | (buf, .error e) => (buf, .error e)
    | (buf, .ok ()) => encodeAll c payloads buf

end Codec

/-! ### Headers -/

variable {src rest w : Bytes} {n : ℕ}

section

variable (h : decodeHead src = some (n, rest))

include h

theorem decodeHead_some : ∃ head, src = head ++ rest ∧ 0 < head.length ∧
      ∀ input, decodeHead (head ++ input) = some (n, input) := by
  cases src with
  | nil => simp [decodeHead] at h
  | cons b t =>
    set k := (b &&& 3).toNat with hk
    simp only [decodeHead, ← hk, Option.ite_none_left_eq_some, Option.some.injEq,
      Prod.mk.injEq] at h
    obtain ⟨hlen, hn, hrest⟩ := h
    refine ⟨b :: t.take k, ?_, by simp, fun input => ?_⟩
    · rw [← hrest, List.drop_succ_cons, List.cons_append, List.take_append_drop]
    have htake : (t.take k).length = k := by
      simp only [List.length_cons] at hlen
      rw [List.length_take]
      omega
    -- the bytes of the header are the same in front of any input
    have hget : ∀ i ≤ k, (b :: t.take k ++ input).getD i 0 = (b :: t).getD i 0 := by
      intro i hi
      rw [List.getD_eq_getElem?_getD, List.getD_eq_getElem?_getD,
        List.getElem?_append_left (by rw [List.length_cons, htake]; omega), ← List.take_succ_cons,
        List.getElem?_take_of_lt (by omega)]
    have hbyte : ∀ i l acc : ℕ, (if k + 1 > i then
          acc ||| ((b :: t.take k ++ input).getD i 0).toNat <<< l else acc) =
        if k + 1 > i then acc ||| ((b :: t).getD i 0).toNat <<< l else acc := by
      intro i l acc
      by_cases hi : k + 1 > i
      · rw [if_pos hi, if_pos hi, hget i (by omega)]
      · rw [if_neg hi, if_neg hi]
    have hlen' : ¬ (b :: t.take k ++ input).length < k + 1 := by
      rw [List.length_append, List.length_cons, htake]
      omega
    have hdrop : (b :: t.take k ++ input).drop (k + 1) = input := by
      apply List.drop_left'
      rw [List.length_cons, htake]
    rw [List.cons_append] at hbyte hlen' hdrop ⊢
    simp only [decodeHead, ← hk, if_neg hlen', hdrop, hbyte, hn]

theorem decodeHead_append (input : Bytes) : decodeHead (src ++ input) = some (n, rest ++ input) := by
  obtain ⟨head, rfl, -, hhead⟩ := decodeHead_some h
  rw [List.append_assoc, hhead]

theorem decodeHead_lt : n < 2 ^ 30 := by
  have hor : ∀ (p : Prop) [Decidable p] (acc k : ℕ) (b : UInt8), acc < 2 ^ 32 → k ≤ 24 →
      (if p then acc ||| b.toNat <<< k else acc) < 2 ^ 32 := by
    intro p _ acc k b hacc hk
    split_ifs with hp
    · have hb : b.toNat < 2 ^ 8 := b.toNat_lt
      have hshift : b.toNat <<< k < 2 ^ 32 := by
        rw [Nat.shiftLeft_eq]
        calc b.toNat * 2 ^ k < 2 ^ 8 * 2 ^ k := Nat.mul_lt_mul_of_pos_right hb (Nat.two_pow_pos k)
          _ ≤ 2 ^ 8 * 2 ^ 24 := Nat.mul_le_mul_left _ (Nat.pow_le_pow_right (by omega) hk)
          _ = 2 ^ 32 := rfl
      exact Nat.or_lt_two_pow hacc hshift
    · exact hacc
  cases src with
  | nil => simp [decodeHead] at h
  | cons b t =>
    simp only [decodeHead, Option.ite_none_left_eq_some, Option.some.injEq, Prod.mk.injEq] at h
    rw [← h.2.1, Nat.shiftRight_eq_div_pow]
    have hb : b.toNat < 2 ^ 32 := Nat.lt_trans b.toNat_lt (by decide)
    apply (Nat.div_lt_iff_lt_mul (by decide)).2
    apply hor _ _ 24
    · apply hor _ _ 16
      · exact hor _ _ 8 _ hb (by omega)
      · omega
    · omega

end

/-! ### The decoder -/

namespace Codec

def call (max : ℕ) (s : State) (src : Bytes) : Incremental.Call State UInt8 Bytes IoError :=
  match (⟨s, false, max⟩ : Codec).decode src with
  | (c, rest, .ok (some f)) => .item f c.state rest
  | (c, rest, .ok none) => .more c.state rest
  | (c, rest, .error e) => .fail e c.state rest

section Calls

variable {max n : ℕ} {s s' : State} {src rest f : Bytes} {e : IoError}

theorem call_data : call max (.data n) src =
    if src.length < n then .more (.data n) src else .item (src.take n) .head (src.drop n) := by
  by_cases h : src.length < n <;> simp [call, decode, decodeBody, decodeData, h]

theorem call_head_none (h : Net.decodeHead src = none) : call max .head src = .more .head src := by
  simp [call, decode, decodeHead, h]

theorem call_head_big (h : Net.decodeHead src = some (n, rest)) (hn : max < n) :
    call max .head src = .fail tooBigPacket .head src := by
  simp [call, decode, decodeHead, h, hn]

/-- A header that is not refused leaves the codec waiting for its payload. -/
theorem call_head (h : Net.decodeHead src = some (n, rest)) (hn : n ≤ max) :
    call max .head src = call max (.data n) rest := by
  have : ¬ max < n := by omega
  simp [call, decode, decodeHead, h, this, decodeBody]

/-- What a call can give from the start of a frame. -/
theorem call_head_cases (max : ℕ) (src : Bytes) :
    (Net.decodeHead src = none ∧ call max .head src = .more .head src) ∨
    (∃ n rest, Net.decodeHead src = some (n, rest) ∧ max < n ∧
      call max .head src = .fail tooBigPacket .head src) ∨
    ∃ n rest, Net.decodeHead src = some (n, rest) ∧ n ≤ max ∧
      call max .head src = call max (.data n) rest := by
  cases hd : Net.decodeHead src with
  | none => exact .inl ⟨rfl, call_head_none hd⟩
  | some p =>
    obtain ⟨n, rest⟩ := p
    rcases Nat.lt_or_ge max n with hn | hn
    · exact .inr (.inl ⟨n, rest, rfl, hn, call_head_big hd hn⟩)
    · exact .inr (.inr ⟨n, rest, rfl, hn, call_head hd hn⟩)

theorem call_data_item (h : call max (.data n) src = .item f s' rest) :
    s' = .head ∧ n = f.length ∧ src = f ++ rest := by
  rw [call_data] at h
  by_cases hl : src.length < n
  · simp [if_pos hl] at h
  rw [if_neg hl] at h
  cases h
  refine ⟨rfl, ?_, (List.take_append_drop n src).symm⟩
  rw [List.length_take]
  omega

/-- An item is the payload behind a header of its length, read now or before. -/
theorem call_item (h : call max s src = .item f s' rest) :
    s' = .head ∧ ((s = .data f.length ∧ src = f ++ rest) ∨
      (s = .head ∧ ∃ head, 0 < head.length ∧ Net.decodeHead head = some (f.length, []) ∧
        src = head ++ (f ++ rest))) := by
  cases s with
  | data =>
    obtain ⟨hs, rfl, hsrc⟩ := call_data_item h
    exact ⟨hs, .inl ⟨rfl, hsrc⟩⟩
  | head =>
    rcases call_head_cases max src with ⟨-, hc⟩ | ⟨n, r, -, -, hc⟩ | ⟨n, r, hd, -, hc⟩ <;> rw [hc] at h
    · cases h
    · cases h
    · obtain ⟨hs, rfl, rfl⟩ := call_data_item h
      obtain ⟨head, hsrc, hpos, hhead⟩ := decodeHead_some hd
      have hnil : Net.decodeHead head = some (f.length, []) := by simpa using hhead []
      exact ⟨hs, .inr ⟨rfl, head, hpos, hnil, hsrc⟩⟩

theorem call_data_more (h : call max (.data n) src = .more s' rest) : s' = .data n ∧ rest = src := by
  rw [call_data] at h
  by_cases hl : src.length < n
  · rw [if_pos hl] at h
    cases h
    exact ⟨rfl, rfl⟩
  · simp [if_neg hl] at h

/-- A call that asks for more used nothing, or took the header. -/
theorem call_more (h : call max s src = .more s' rest) :
    (s' = s ∧ rest = src) ∨ (s = .head ∧ ∃ n head, n ≤ max ∧ s' = .data n ∧
      Net.decodeHead head = some (n, []) ∧ src = head ++ rest ∧
      Net.decodeHead src = some (n, rest)) := by
  cases s with
  | data => exact .inl (call_data_more h)
  | head =>
    rcases call_head_cases max src with ⟨-, hc⟩ | ⟨n, r, -, -, hc⟩ | ⟨n, r, hd, hn, hc⟩ <;>
      rw [hc] at h
    · cases h
      exact .inl ⟨rfl, rfl⟩
    · cases h
    · obtain ⟨rfl, rfl⟩ := call_data_more h
      obtain ⟨head, hsrc, -, hhead⟩ := decodeHead_some hd
      exact .inr ⟨rfl, n, head, hn, rfl, by simpa using hhead [], hsrc, hd⟩

theorem call_fail (h : call max s src = .fail e s' rest) :
    s = .head ∧ s' = .head ∧ rest = src ∧ e = tooBigPacket ∧
      ∃ n r, Net.decodeHead src = some (n, r) ∧ max < n := by
  cases s with
  | data =>
    rw [call_data] at h
    split_ifs at h
  | head =>
    rcases call_head_cases max src with ⟨-, hc⟩ | ⟨n, r, hd, hn, hc⟩ | ⟨n, r, -, -, hc⟩ <;>
      rw [hc] at h
    · cases h
    · cases h
      exact ⟨rfl, rfl, rfl, rfl, n, r, hd, hn⟩
    · rw [call_data] at h
      split_ifs at h

theorem call_data_append (h : call max (.data n) src = .item f s' rest) (input : Bytes) :
    call max (.data n) (src ++ input) = .item f s' (rest ++ input) := by
  obtain ⟨rfl, rfl, rfl⟩ := call_data_item h
  have hl : ¬ (f ++ rest ++ input).length < f.length := by
    simp only [List.length_append]
    omega
  rw [call_data, if_neg hl, List.append_assoc, List.take_left, List.drop_left]

end Calls

/-- The codec outside raw mode, with a limit on the length of a packet. -/
def decoder (max : ℕ) : Incremental.Decoder State UInt8 Bytes IoError where
  call := call max
  -- a frame of length 0 whose header was read before takes nothing from the buffer
  weight
    | .head => 0
    | .data _ => 1
  item_lt := by
    intro s buf f s' rest h
    obtain ⟨rfl, ⟨rfl, rfl⟩ | ⟨rfl, head, hpos, -, rfl⟩⟩ := call_item h <;>
      simp only [List.length_append] <;> omega
  item_append := by
    intro s buf f s' rest h input
    cases s with
    | data => exact call_data_append h input
    | head =>
      rcases call_head_cases max buf with ⟨-, hc⟩ | ⟨n, r, -, -, hc⟩ | ⟨n, r, hd, hn, hc⟩ <;>
        rw [hc] at h
      · cases h
      · cases h
      · rw [call_head (decodeHead_append hd input) hn]
        exact call_data_append h input
  more_append := by
    intro s buf s' rest h input
    rcases call_more h with ⟨rfl, rfl⟩ | ⟨rfl, n, head, hn, rfl, -, -, hd⟩
    · rfl
    · exact call_head (decodeHead_append hd input) hn
  fail_append := by
    intro s buf e s' rest h input
    obtain ⟨rfl, rfl, rfl, rfl, n, r, hd, hn⟩ := call_fail h
    exact call_head_big (decodeHead_append hd input) hn

def reader : Incremental.Reader State UInt8 Bytes IoError := ⟨[], .head, [], none⟩

def feed (max : ℕ) (r : Incremental.Reader State UInt8 Bytes IoError) (chunk : Bytes) :
    Incremental.Reader State UInt8 Bytes IoError :=
  r.feed (decoder max) chunk

theorem drain_nil (max : ℕ) (fs : List Bytes) :
    Incremental.drain (decoder max) fs .head [] = ⟨fs, .head, [], none⟩ := by
  have hcall : call max .head [] = .more .head [] := call_head_none rfl
  exact Incremental.drain_more (D := decoder max) hcall

theorem feed_reader (max : ℕ) (input : Bytes) :
    feed max reader input = Incremental.drain (decoder max) [] .head input := rfl

theorem feed_chunks (max : ℕ) (chunks : List Bytes) :
    chunks.foldl (feed max) reader = feed max reader chunks.flatten := by
  apply Incremental.Reader.feed_flatten
  exact drain_nil max []

theorem feed_mono (max : ℕ) {input input' : Bytes} (h : input <+: input') :
    (feed max reader input).items <+: (feed max reader input').items := by
  obtain ⟨more, rfl⟩ := h
  have happend : feed max reader (input ++ more) = feed max (feed max reader input) more :=
    (Incremental.Reader.feed_feed _ _ _).symm
  rw [happend]
  exact Incremental.Reader.feed_items _ more

theorem decode_keeps (c : Codec) (src : Bytes) :
    (c.decode src).1.raw = c.raw ∧ (c.decode src).1.maxPacketLength = c.maxPacketLength := by
  have hbody : ∀ (c : Codec) n src, (c.decodeBody n src).1.raw = c.raw ∧
      (c.decodeBody n src).1.maxPacketLength = c.maxPacketLength := by
    intro c n src
    unfold decodeBody
    split <;> exact ⟨rfl, rfl⟩
  unfold decode
  repeat' split
  all_goals first | exact ⟨rfl, rfl⟩ | exact hbody _ _ _

theorem decode_unlimited {c : Codec} (hraw : c.raw = false) (hmax : c.maxPacketLength = usizeMax)
    (src : Bytes) :
    (∃ s' rest, call usizeMax c.state src = .more s' rest ∧
      c.decode src = ({ c with state := s' }, rest, .ok none)) ∨
    ∃ f s' rest, call usizeMax c.state src = .item f s' rest ∧
      c.decode src = ({ c with state := s' }, rest, .ok (some f)) := by
  obtain ⟨s, raw, max⟩ := c
  obtain rfl : raw = false := hraw
  obtain rfl : max = usizeMax := hmax
  have hk := decode_keeps ⟨s, false, usizeMax⟩ src
  have hcall : ∀ e s' rest, call usizeMax s src ≠ .fail e s' rest := by
    intro e s' rest h
    obtain ⟨-, -, -, -, n, r, hd, hn⟩ := call_fail h
    have := decodeHead_lt hd
    unfold usizeMax at hn
    omega
  unfold call at hcall ⊢
  rcases hd : (⟨s, false, usizeMax⟩ : Codec).decode src with ⟨c', rest, res⟩
  rw [hd] at hk
  have hc' : c' = ⟨c'.state, false, usizeMax⟩ := by
    obtain ⟨s', raw', max'⟩ := c'
    simp only at hk
    rw [hk.1, hk.2]
  simp only [hd] at hcall ⊢
  rcases res with e | _ | f
  · exact absurd rfl (hcall e c'.state rest)
  · exact .inl ⟨c'.state, rest, rfl, by rw [← hc']⟩
  · exact .inr ⟨f, c'.state, rest, rfl, by rw [← hc']⟩

end Codec

/-! ### Every byte is accounted for -/

/-- The bytes `w` are the frames `fs`, each behind a header with its length. -/
inductive Spelled : List Bytes → Bytes → Prop where
  | nil : Spelled [] []
  | snoc {fs w head f} : Spelled fs w → decodeHead head = some (f.length, []) →
    Spelled (fs ++ [f]) (w ++ (head ++ f))

theorem Spelled.eq_nil (h : Spelled [] w) : w = [] := by
  generalize hfs : ([] : List Bytes) = fs at h
  cases h with
  | nil => rfl
  | snoc => simp at hfs

/-- Frames come back from any spelling of them. -/
theorem Spelled.feed {fs : List Bytes} (h : Spelled fs w) {max : ℕ}
    (hmax : 2 ^ 30 ≤ max) : Codec.feed max Codec.reader w = ⟨fs, .head, [], none⟩ := by
  induction h with
  | nil => exact Codec.drain_nil max []
  | @snoc fs w head f _ hd ih =>
    have hn := decodeHead_lt hd
    have hcall : Codec.call max .head (head ++ f) = .item f .head [] := by
      rw [Codec.call_head (decodeHead_append hd f) (by omega), Codec.call_data]
      simp
    calc Codec.feed max Codec.reader (w ++ (head ++ f))
        = Codec.feed max (Codec.feed max Codec.reader w) (head ++ f) :=
          (Incremental.Reader.feed_feed _ _ _).symm
      _ = Incremental.drain (Codec.decoder max) fs .head (head ++ f) := by rw [ih]; rfl
      _ = Incremental.drain (Codec.decoder max) (fs ++ [f]) .head [] :=
          Incremental.drain_item (D := Codec.decoder max) hcall
      _ = ⟨fs ++ [f], .head, [], none⟩ := Codec.drain_nil max _

/-- The header a codec in state `s` has taken off the buffer. -/
def Pending : State → Bytes → Prop
  | .head, head => head = []
  | .data n, head => decodeHead head = some (n, [])

/-- The input is what the frames were spelled as, the header read ahead, and
the buffer. -/
def Accounted (input : Bytes) (fs : List Bytes) (s : State) (buf : Bytes) : Prop :=
  ∃ w head, Spelled fs w ∧ Pending s head ∧ input = w ++ head ++ buf

namespace Accounted

variable {max : ℕ} {input : Bytes} {fs : List Bytes} {s s' : State} {buf rest f : Bytes} {e : IoError}

theorem more_append {rest' : Bytes} (h : Accounted input fs s (buf ++ rest'))
    (hc : Codec.call max s buf = .more s' rest) : Accounted input fs s' (rest ++ rest') := by
  rcases Codec.call_more hc with ⟨rfl, rfl⟩ | ⟨rfl, n, head', -, rfl, hd, rfl, -⟩
  · exact h
  · obtain ⟨w, head, hw, hp, rfl⟩ := h
    have : head = [] := hp
    exact ⟨w, head', hw, hd, by simp [this]⟩

variable (h : Accounted input fs s buf)

include h

theorem item (hc : Codec.call max s buf = .item f s' rest) :
    Accounted input (fs ++ [f]) s' rest := by
  obtain ⟨w, head, hw, hp, rfl⟩ := h
  obtain ⟨rfl, ⟨rfl, rfl⟩ | ⟨rfl, head', -, hd, rfl⟩⟩ := Codec.call_item hc
  · exact ⟨_, [], .snoc hw hp, rfl, by simp⟩
  · have : head = [] := hp
    exact ⟨_, [], .snoc hw hd, rfl, by simp [this]⟩

theorem more (hc : Codec.call max s buf = .more s' rest) : Accounted input fs s' rest := by
  rw [← List.append_nil buf] at h
  simpa using more_append h hc

theorem fail (hc : Codec.call max s buf = .fail e s' rest) : Accounted input fs s' rest := by
  obtain ⟨rfl, rfl, rfl, -⟩ := Codec.call_fail hc
  exact h

end Accounted

theorem Codec.feed_accounts (max : ℕ) (input : Bytes) :
    Accounted input (feed max reader input).items (feed max reader input).state
      (feed max reader input).buf := by
  rw [feed_reader]
  apply Incremental.drain_inv
  · exact Accounted.item
  · exact Accounted.more
  · exact Accounted.fail
  · exact ⟨[], [], .nil, rfl, rfl⟩

/-! ### Encoding and decoding -/

namespace Codec

theorem encode_overflow (c : Codec) (hc : c.raw = false) {data : Bytes}
    (h : 0x3FFFFFFF < data.length) (buf : Bytes) : c.encode data buf = (buf, .error overflow) := by
  have hnone : encodeHead data.length = none := by
    rw [encodeHead, if_neg (by omega), if_neg (by omega), if_neg (by omega), if_neg (by omega)]
  simp [encode, hc, hnone]

theorem encode_ok (c : Codec) (hc : c.raw = false) {data : Bytes} (h : data.length ≤ 0x3FFFFFFF) :
    ∃ head, (∀ input, Net.decodeHead (head ++ input) = some (data.length, input)) ∧
      ∀ buf, c.encode data buf = (buf ++ (head ++ data), .ok ()) := by
  obtain ⟨w, hw⟩ := frame_isSome h
  obtain ⟨head, hhead, -⟩ := Option.map_eq_some_iff.1 hw
  refine ⟨head, fun input => header.get_put hhead input, fun buf => ?_⟩
  have hput : encodeHead data.length = some head := hhead
  simp [encode, hc, hput]

theorem encodeAll_decodes (c : Codec) (hc : c.raw = false) {max : ℕ} :
    ∀ (payloads : List Bytes), (∀ p ∈ payloads, p.length ≤ 0x3FFFFFFF ∧ p.length ≤ max) →
      ∃ w, (∀ buf, c.encodeAll payloads buf = (buf ++ w, .ok ())) ∧
        ∀ fs input, Incremental.drain (decoder max) fs .head (w ++ input) =
          Incremental.drain (decoder max) (fs ++ payloads) .head input
  | [], _ => ⟨[], fun buf => by simp [encodeAll], fun fs input => by simp⟩
  | data :: payloads, h => by
    obtain ⟨w, hw, hdrain⟩ := encodeAll_decodes c hc payloads
      fun p hp => h p (List.mem_cons_of_mem _ hp)
    obtain ⟨hl, hmax⟩ := h data List.mem_cons_self
    obtain ⟨head, hhead, henc⟩ := encode_ok c hc hl
    refine ⟨head ++ data ++ w, fun buf => ?_, fun fs input => ?_⟩
    · rw [encodeAll, henc buf]
      show c.encodeAll payloads (buf ++ (head ++ data)) = _
      rw [hw, List.append_assoc]
    · have hcall : call max .head (head ++ (data ++ (w ++ input))) =
          .item data .head (w ++ input) := by
        have hlen : ¬ (data ++ (w ++ input)).length < data.length := by
          rw [List.length_append]
          omega
        rw [call_head (hhead _) hmax, call_data, if_neg hlen, List.take_left, List.drop_left]
      have hstep : Incremental.drain (decoder max) fs .head (head ++ (data ++ (w ++ input))) =
          Incremental.drain (decoder max) (fs ++ [data]) .head (w ++ input) :=
        Incremental.drain_item (D := decoder max) hcall
      rw [List.append_assoc, List.append_assoc, hstep, hdrain]
      simp

theorem feed_encodeAll (c : Codec) (hc : c.raw = false) {max : ℕ} {payloads : List Bytes}
    (h : ∀ p ∈ payloads, p.length ≤ 0x3FFFFFFF ∧ p.length ≤ max) :
    ∃ w, c.encodeAll payloads [] = (w, .ok ()) ∧
      feed max reader w = ⟨payloads, .head, [], none⟩ := by
  obtain ⟨w, hw, hdrain⟩ := encodeAll_decodes c hc payloads h
  refine ⟨w, hw [], ?_⟩
  have := hdrain [] []
  rw [List.append_nil] at this
  rw [feed_reader, this]
  exact drain_nil max payloads

/-- **The frame codec.** The chunks in which a stream arrives change neither the
frames nor the first error nor what is left over; every byte of the input is in
a frame, in its header or in the buffer; payloads come back as they were
encoded; and a payload that is too long is refused with nothing written. -/
theorem frame_codec (max : ℕ) :
    (∀ chunks : List Bytes, chunks.foldl (feed max) reader = feed max reader chunks.flatten) ∧
    (∀ input : Bytes, Accounted input (feed max reader input).items (feed max reader input).state
      (feed max reader input).buf) ∧
    (∀ payloads : List Bytes, (∀ p ∈ payloads, p.length ≤ 0x3FFFFFFF ∧ p.length ≤ max) →
      ∃ w, (new.setMaxPacketLength max).encodeAll payloads [] = (w, .ok ()) ∧
        feed max reader w = ⟨payloads, .head, [], none⟩) ∧
    ∀ data buf : Bytes, 0x3FFFFFFF < data.length →
      (new.setMaxPacketLength max).encode data buf = (buf, .error overflow) := by
  refine ⟨feed_chunks max, feed_accounts max, fun payloads h => ?_, fun data buf h => ?_⟩
  · exact feed_encodeAll _ rfl h
  · exact encode_overflow _ rfl h buf

/-- Two payloads with a limit of 100, the second longer than one header byte says. -/
theorem frame_codec_two :
    ∃ w, (new.setMaxPacketLength 100).encodeAll [[1, 2], List.replicate 70 7] [] = (w, .ok ()) ∧
      feed 100 reader w = ⟨[[1, 2], List.replicate 70 7], .head, [], none⟩ :=
  (frame_codec 100).2.2.1 _ (by decide)

end Codec

end CodeDesk.Net
