/-
# The codec and the pipes

`BytesCodec` (`bytes_codec.rs`): a header of one to four bytes, whose lowest two
bits say how many, then the content; after `set_raw` bytes pass as they are. It
is a framing of the library (`header`).

A pipe is one direction of a connection: for TCP the bytes on the wire and the
reader of the receiving end, for a WebSocket or a data channel the messages not
read yet. `Pipe.Carries` says which frames and which raw bytes are still to come
out of it, for either sort; what is proved of a tunnel uses only that.
-/
import CodeDesk.Framing
import CodeDesk.Net.Stream

namespace CodeDesk.Net

open Sealing Framing

/-! ### The header of a frame -/

/-- `decode_head`: nothing as long as the header has not arrived. The limit on
the length is `usize::MAX` and no header exceeds it. -/
def decodeHead (src : Bytes) : Option (ℕ × Bytes) :=
  match src with
  | [] => none
  | b :: _ =>
    let headLen := (b &&& 3).toNat + 1
    if src.length < headLen then none
    else
      let n := b.toNat
      let n := if headLen > 1 then n ||| (src.getD 1 0).toNat <<< 8 else n
      let n := if headLen > 2 then n ||| (src.getD 2 0).toNat <<< 16 else n
      let n := if headLen > 3 then n ||| (src.getD 3 0).toNat <<< 24 else n
      some (n >>> 2, src.drop headLen)

/-- The header `encode` writes, or its overflow error. -/
def encodeHead (len : ℕ) : Option Bytes :=
  if len ≤ 0x3F then some (leBytes 1 (len <<< 2))
  else if len ≤ 0x3FFF then some (leBytes 2 (len <<< 2 ||| 1))
  else if len ≤ 0x3FFFFF then some (leBytes 3 (len <<< 2 ||| 2))
  else if len ≤ 0x3FFFFFFF then some (leBytes 4 (len <<< 2 ||| 3))
  else none

theorem or_shift {a i : ℕ} (h : a < 2 ^ i) (b : ℕ) : a ||| b <<< i = a + b * 2 ^ i := by
  rw [Nat.shiftLeft_eq, Nat.mul_comm, Nat.or_comm, ← Nat.two_pow_add_eq_or_of_lt h, Nat.add_comm]

theorem toNat_and_three (n : ℕ) : (UInt8.ofNat n &&& 3).toNat = n % 4 := by
  have h3 : (3 : UInt8).toNat = 2 ^ 2 - 1 := rfl
  rw [UInt8.toNat_and, h3, Nat.and_two_pow_sub_one_eq_mod, UInt8.toNat_ofNat']
  omega

theorem encodeHead_eq {len : ℕ} {h : Bytes} (he : encodeHead len = some h) :
    ∃ k < 4, h = leBytes (k + 1) (4 * len + k) ∧ 4 * len + k < 256 ^ (k + 1) := by
  have hor : ∀ k < 4, len <<< 2 ||| k = 4 * len + k := by
    intro k hk
    rw [Nat.or_comm, or_shift hk]
    omega
  unfold encodeHead at he
  split at he
  · refine ⟨0, by omega, ?_, by omega⟩
    rw [← Option.some.inj he, ← hor 0 (by omega), Nat.or_zero]
  · split at he
    · refine ⟨1, by omega, ?_, by omega⟩
      rw [← Option.some.inj he, hor 1 (by omega)]
    · split at he
      · refine ⟨2, by omega, ?_, by omega⟩
        rw [← Option.some.inj he, hor 2 (by omega)]
      · split_ifs at he
        refine ⟨3, by omega, ?_, by omega⟩
        rw [← Option.some.inj he, hor 3 (by omega)]

theorem decodeHead_leBytes {k x : ℕ} (hk : k < 4) (hx : x % 4 = k) (hlt : x < 256 ^ (k + 1))
    (rest : Bytes) : decodeHead (leBytes (k + 1) x ++ rest) = some (x / 4, rest) := by
  have hb : ∀ n : ℕ, (UInt8.ofNat n).toNat = n % 256 := fun n => UInt8.toNat_ofNat'
  have hlen : ¬ (leBytes (k + 1) x ++ rest).length < k + 1 := by
    rw [List.length_append, length_leBytes]
    omega
  have hdrop : (leBytes (k + 1) x ++ rest).drop (k + 1) = rest :=
    List.drop_left' (length_leBytes _ _)
  have h8 := or_shift (a := x % 256) (i := 8) (by omega)
  rw [leBytes, List.cons_append] at hlen hdrop ⊢
  simp only [decodeHead, toNat_and_three, hx, hlen, hdrop, if_false, Nat.shiftRight_eq_div_pow]
  rcases (by omega : k = 0 ∨ k = 1 ∨ k = 2 ∨ k = 3) with rfl | rfl | rfl | rfl
  · simp [hb]
    omega
  · simp [leBytes, hb, h8]
    omega
  · simp [leBytes, hb, h8]
    rw [or_shift (by omega)]
    omega
  · simp [leBytes, hb, h8]
    rw [or_shift (a := x % 256 + x / 256 % 256 * 256) (by omega), or_shift (by omega)]
    omega

theorem decodeHead_short {k x : ℕ} (hx : x % 4 = k) {l : Bytes}
    (hp : l <+: leBytes (k + 1) x) (hne : l ≠ leBytes (k + 1) x) : decodeHead l = none := by
  have hl : l.length < k + 1 := by
    have := hp.length_le
    rcases Nat.lt_or_ge l.length (k + 1) with h | h
    · exact h
    · exact absurd (hp.eq_of_length_le (by rw [length_leBytes]; exact h)) hne
  cases l with
  | nil => rfl
  | cons b =>
    obtain ⟨t, ht⟩ := hp
    have hbx : b = UInt8.ofNat x := (List.cons.inj ht).1
    simp only [decodeHead]
    rw [if_pos]
    rwa [hbx, toNat_and_three, hx]

def header : Header UInt8 where
  put := encodeHead
  get := decodeHead
  get_put := by
    intro n h hn rest
    obtain ⟨k, hk, rfl, hlt⟩ := encodeHead_eq hn
    rw [decodeHead_leBytes hk (by omega) hlt]
    congr 2
    omega
  get_short := by
    intro n h hn l hp hne
    obtain ⟨k, hk, rfl, -⟩ := encodeHead_eq hn
    exact decodeHead_short (by omega) hp hne
  get_nil := rfl

theorem frame_isSome {data : Bytes} (hl : data.length ≤ 0x3FFFFFFF) :
    ∃ w, header.frame data = some w := by
  have : ∃ h, encodeHead data.length = some h := by
    unfold encodeHead
    split_ifs <;> exact ⟨_, rfl⟩
  obtain ⟨h, hh⟩ := this
  exact ⟨h ++ data, by simp [Header.frame, header, hh]⟩

namespace BytesCodec

def encode (raw : Bool) (data : Bytes) : Option Bytes :=
  if raw then some data else header.frame data

def decode (raw : Bool) (r : Reader UInt8) : Reader UInt8 × Option Bytes :=
  if raw then (if r.buf = [] then (r, none) else ({ r with buf := [] }, some r.buf))
  else r.decode header

end BytesCodec

/-! ### Pipes -/

structure Pipe where
  /-- The bytes of TCP that have not arrived. -/
  wire : Bytes := []
  /-- The `Framed` of the end that reads. -/
  reader : Reader UInt8 := {}
  /-- The messages of a WebSocket or a data channel that were not read. -/
  queue : List Bytes := []

namespace Pipe

variable {S : Box} {p : Pipe} {s : Stream S} {frames : List Bytes} {tail : Bytes}

def put (s : Stream S) (bytes : Bytes) (p : Pipe) : Pipe :=
  match s.kind with
  | .tcp =>
    match BytesCodec.encode s.raw bytes with
    | some w => { p with wire := p.wire ++ w }
    | none => p
  | _ => { p with queue := p.queue ++ [bytes] }

/-- The read of a data channel fails for an empty message and for one that its
buffer of `u16::MAX` bytes does not take. -/
def message (kind : Kind) (bytes : Bytes) : Frame :=
  if kind = .webRtc ∧ (bytes = [] ∨ 65535 < bytes.length) then .error else .data bytes

def get (s : Stream S) (p : Pipe) : Pipe × Option Frame :=
  match s.kind with
  | .tcp =>
    ({ p with reader := (BytesCodec.decode s.raw p.reader).1 },
      (BytesCodec.decode s.raw p.reader).2.map .data)
  | kind =>
    match p.queue with
    | [] => (p, none)
    | bytes :: rest => ({ p with queue := rest }, some (message kind bytes))

def arrive (n : ℕ) (p : Pipe) : Pipe :=
  { p with reader := p.reader.arrive (p.wire.take n), wire := p.wire.drop n }

/-- The frames that are still to come out, and the raw bytes after them. -/
def Carries (kind : Kind) (p : Pipe) (frames : List Bytes) (tail : Bytes) : Prop :=
  if kind = .tcp then Holds header p.reader p.wire frames tail
  else ∃ rest, p.queue = frames ++ rest ∧ rest.flatten = tail ∧ [] ∉ rest

theorem carries_start (kind : Kind) : Carries kind {} [] [] := by
  unfold Carries
  split
  · exact Holds.init
  · exact ⟨[], rfl, rfl, nofun⟩

theorem Carries.arrive {kind : Kind} (h : p.Carries kind frames tail) (n : ℕ) :
    (p.arrive n).Carries kind frames tail := by
  unfold Carries at *
  by_cases hk : kind = .tcp
  · rw [if_pos hk] at *
    exact h.arrive n
  · rw [if_neg hk] at *
    exact h

theorem put_queue (hk : s.kind ≠ .tcp) (bytes : Bytes) :
    p.put s bytes = { p with queue := p.queue ++ [bytes] } := by
  unfold put
  cases hs : s.kind with
  | tcp => exact absurd hs hk
  | _ => rfl

variable {bytes : Bytes}

theorem get_queue (hk : s.kind ≠ .tcp) {rest : List Bytes} (hq : p.queue = bytes :: rest) :
    p.get s = ({ p with queue := rest }, some (message s.kind bytes)) := by
  unfold get
  cases hs : s.kind with
  | tcp => exact absurd hs hk
  | _ => rw [hq]

theorem get_queue_nil (hk : s.kind ≠ .tcp) (hq : p.queue = []) : p.get s = (p, none) := by
  unfold get
  cases hs : s.kind with
  | tcp => exact absurd hs hk
  | _ => rw [hq]

/-- No raw message is left behind the frames when no raw byte is. -/
theorem carries_queue {kind : Kind} (hk : kind ≠ .tcp) :
    p.Carries kind frames [] ↔ p.queue = frames := by
  rw [Carries, if_neg hk]
  constructor
  · rintro ⟨rest, hq, hr, hn⟩
    cases rest with
    | nil => simpa using hq
    | cons m =>
      have hm : m = [] := (List.append_eq_nil_iff.1 hr).1
      exact absurd List.mem_cons_self (hm ▸ hn)
  · intro hq
    exact ⟨[], by simpa using hq, rfl, nofun⟩

theorem Carries.putFrame (hs : s.raw = false) (h : p.Carries s.kind frames [])
    (hl : bytes.length ≤ 0x3FFFFFFF) : (p.put s bytes).Carries s.kind (frames ++ [bytes]) [] := by
  by_cases hk : s.kind = .tcp
  · unfold Carries at *
    rw [if_pos hk] at *
    obtain ⟨w, hw⟩ := frame_isSome hl
    simp only [put, hk, BytesCodec.encode, hs, Bool.false_eq_true, if_false, hw]
    exact h.putFrame hw
  · rw [carries_queue hk] at *
    rw [put_queue hk, h]

/-- After `set_raw`: bytes pass without a frame on TCP. -/
def Unframed (s : Stream S) : Prop := s.kind = .tcp → s.raw = true

theorem Carries.putRaw (hs : Unframed s) (h : p.Carries s.kind frames tail)
    (hb : bytes ≠ []) : (p.put s bytes).Carries s.kind frames (tail ++ bytes) := by
  unfold Carries at *
  by_cases hk : s.kind = .tcp
  · rw [if_pos hk] at *
    simp only [put, hk, BytesCodec.encode, hs hk, if_true]
    exact h.putRaw bytes
  · rw [if_neg hk] at *
    obtain ⟨rest, hq, hr, hn⟩ := h
    rw [put_queue hk]
    refine ⟨rest ++ [bytes], by rw [hq, List.append_assoc], by simp [hr], ?_⟩
    simpa [hn] using hb

theorem Carries.getFrame (hs : s.raw = false) {f : Bytes} (h : p.Carries s.kind (f :: frames) tail) :
    ((p.get s).2 = none ∧ (p.get s).1.Carries s.kind (f :: frames) tail) ∨
      ((p.get s).2 = some (.data f) ∧ (p.get s).1.Carries s.kind frames tail) ∨
      (p.get s).2 = some .error := by
  unfold Carries at *
  by_cases hk : s.kind = .tcp
  · rw [if_pos hk] at *
    simp only [get, hk, BytesCodec.decode, hs, Bool.false_eq_true, if_false]
    rcases h.decode with ⟨hn, hc⟩ | ⟨hn, hc⟩
    · exact .inl ⟨by rw [hn]; rfl, hc⟩
    · exact .inr (.inl ⟨by rw [hn]; rfl, hc⟩)
  · rw [if_neg hk] at *
    obtain ⟨rest, hq, hr, hn⟩ := h
    rw [get_queue hk hq]
    unfold message
    split
    · exact .inr (.inr rfl)
    · exact .inr (.inl ⟨rfl, rest, rfl, hr, hn⟩)

theorem Carries.getNone (hs : s.raw = false) (h : p.Carries s.kind [] []) : p.get s = (p, none) := by
  by_cases hk : s.kind = .tcp
  · rw [Carries, if_pos hk] at h
    simp only [get, hk, BytesCodec.decode, hs, Bool.false_eq_true, if_false, h.decode_nil]
    rfl
  · rw [carries_queue hk] at h
    exact get_queue_nil hk h

theorem Carries.getRaw (hs : Unframed s) (h : p.Carries s.kind [] tail) :
    ((p.get s).2 = none ∧ (p.get s).1.Carries s.kind [] tail) ∨
      (∃ bytes rest, (p.get s).2 = some (.data bytes) ∧ tail = bytes ++ rest ∧
        (p.get s).1.Carries s.kind [] rest) ∨
      (p.get s).2 = some .error := by
  unfold Carries at *
  by_cases hk : s.kind = .tcp
  · rw [if_pos hk] at *
    obtain ⟨hst, hb⟩ := h.raw
    simp only [get, hk, BytesCodec.decode, hs hk, if_true]
    split_ifs with hbuf
    · exact .inl ⟨rfl, h⟩
    · refine .inr (.inl ⟨p.reader.buf, p.wire, rfl, hb.symm, ?_⟩)
      simp only [hst]
      exact .head .nil rfl
  · rw [if_neg hk] at *
    obtain ⟨rest, hq, hr, hn⟩ := h
    cases rest with
    | nil =>
      rw [get_queue_nil hk hq]
      exact .inl ⟨rfl, [], hq, hr, hn⟩
    | cons m rest =>
      rw [get_queue hk hq]
      unfold message
      split
      · exact .inr (.inr rfl)
      · refine .inr (.inl ⟨m, rest.flatten, rfl, by rw [← hr]; rfl, ?_⟩)
        exact ⟨rest, rfl, rfl, fun hm => hn (List.mem_cons_of_mem _ hm)⟩

end Pipe

end CodeDesk.Net
