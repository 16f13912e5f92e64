/-
# Socket addresses

Addresses as the rendezvous server handles them: the text of an IP address and
the parsing of a socket address as the standard library has them, `try_into_v4`,
and the mangled form in which the address of a client travels in a message.
-/
import CodeDesk.Conn.Failures

namespace CodeDesk.Rendezvous

open CodeDesk.Conn (IpAddr)

abbrev Bytes := List UInt8

inductive SocketAddr where
  | v4 (ip : BitVec 32) (port : BitVec 16)
  | v6 (ip : BitVec 128) (port : BitVec 16) (flowinfo scopeId : BitVec 32)
  deriving DecidableEq, Repr

/-! ### The text of an address -/

def octets (a : BitVec 32) : List ℕ := [3, 2, 1, 0].map fun i => a.toNat / 256 ^ i % 256

def segments (a : BitVec 128) : List ℕ :=
  [7, 6, 5, 4, 3, 2, 1, 0].map fun i => a.toNat / 65536 ^ i % 65536

def textV4 (a : BitVec 32) : String := ".".intercalate ((octets a).map toString)

/-- `to_ipv4_mapped`: `::ffff:a.b.c.d`. -/
def toIpv4Mapped (a : BitVec 128) : Option (BitVec 32) :=
  if a.toNat / 2 ^ 32 = 0xffff then some (a.setWidth 32) else none

/-- `to_ipv4`: `::ffff:a.b.c.d` and also `::a.b.c.d`. -/
def toIpv4 (a : BitVec 128) : Option (BitVec 32) :=
  if a.toNat / 2 ^ 32 = 0xffff ∨ a.toNat / 2 ^ 32 = 0 then some (a.setWidth 32) else none

/-- Start and length of the first longest run of zeros; `cur` is the length of
the run that ends before position `i`. -/
def zeroRun : ℕ → ℕ → ℕ × ℕ → List ℕ → ℕ × ℕ
  | _, _, longest, [] => longest
  | i, cur, longest, s :: rest =>
    if s = 0 then
      zeroRun (i + 1) (cur + 1) (if longest.2 < cur + 1 then (i - cur, cur + 1) else longest) rest
    else zeroRun (i + 1) 0 longest rest

def textSegments (ss : List ℕ) : String :=
  ":".intercalate (ss.map fun s => String.ofList (Nat.toDigits 16 s))

def textV6 (a : BitVec 128) : String :=
  match toIpv4Mapped a with
  | some v4 => "::ffff:" ++ textV4 v4
  | none =>
    let ss := segments a
    let (start, len) := zeroRun 0 0 (0, 0) ss
    if 1 < len then textSegments (ss.take start) ++ "::" ++ textSegments (ss.drop (start + len))
    else textSegments ss

def ipText : IpAddr → String
  | .v4 a => textV4 a
  | .v6 a => textV6 a

/-! ### Parsing -/

def digitValue (radix : ℕ) (c : Char) : Option ℕ :=
  let n := c.toNat
  let d :=
    if 48 ≤ n ∧ n ≤ 57 then n - 48
    else if 97 ≤ n ∧ n ≤ 122 then n - 87
    else if 65 ≤ n ∧ n ≤ 90 then n - 55
    else radix
  if d < radix then some d else none

/-- `read_number`: all digits that come, at most `maxDigits`, a value below
`bound`. -/
def readNumber (radix : ℕ) (maxDigits : Option ℕ) (allowZeroPrefix : Bool) (bound : ℕ)
    (cs : List Char) : Option (ℕ × List Char) :=
  let ds := (cs.takeWhile fun c => (digitValue radix c).isSome).filterMap (digitValue radix)
  let value := ds.foldl (fun acc d => acc * radix + d) 0
  if ds = [] ∨ (∃ m ∈ maxDigits, m < ds.length) ∨
      (allowZeroPrefix = false ∧ ds.head? = some 0 ∧ 1 < ds.length) ∨ bound ≤ value then none
  else some (value, cs.drop ds.length)

def readGivenChar (c : Char) : List Char → Option (List Char)
  | [] => none
  | d :: cs => if d = c then some cs else none

/-- `read_separator`: the separator stands before all but the first. -/
def readSeparator {α : Type} (sep : Char) (first : Bool) (p : List Char → Option (α × List Char))
    (cs : List Char) : Option (α × List Char) :=
  if first then p cs else (readGivenChar sep cs).bind p

def readIpv4Addr (cs : List Char) : Option (BitVec 32 × List Char) := do
  let octet := readNumber 10 (some 3) false 256
  let (a, cs) ← readSeparator '.' true octet cs
  let (b, cs) ← readSeparator '.' false octet cs
  let (c, cs) ← readSeparator '.' false octet cs
  let (d, cs) ← readSeparator '.' false octet cs
  return (BitVec.ofNat 32 (((a * 256 + b) * 256 + c) * 256 + d), cs)

/-- `read_groups`: at most `left` groups; an IPv4 address may stand for the
last two, which ends them. -/
def readGroups : ℕ → Bool → List Char → List ℕ × Bool × List Char
  | 0, _, cs => ([], false, cs)
  | left + 1, first, cs =>
    match if 0 < left then readSeparator ':' first readIpv4Addr cs else none with
    | some (a, cs) => ([a.toNat / 65536, a.toNat % 65536], true, cs)
    | none =>
      match readSeparator ':' first (readNumber 16 (some 4) true 65536) cs with
      | some (g, cs) =>
        let (gs, v4, cs) := readGroups left false cs
        (g :: gs, v4, cs)
      | none => ([], false, cs)

def ofSegments (ss : List ℕ) : BitVec 128 :=
  BitVec.ofNat 128 (ss.foldl (fun acc s => acc * 65536 + s) 0)

def readIpv6Addr (cs : List Char) : Option (BitVec 128 × List Char) := do
  let (head, headV4, cs) := readGroups 8 true cs
  if head.length = 8 then return (ofSegments head, cs)
  if headV4 then none
  let cs ← readGivenChar ':' cs
  let cs ← readGivenChar ':' cs
  let (tail, _, cs) := readGroups (8 - (head.length + 1)) true cs
  let zeros := List.replicate (8 - head.length - tail.length) 0
  return (ofSegments (head ++ zeros ++ tail), cs)

def readPort (cs : List Char) : Option (BitVec 16 × List Char) := do
  let cs ← readGivenChar ':' cs
  let (n, cs) ← readNumber 10 none true 65536 cs
  return (BitVec.ofNat 16 n, cs)

def readScopeId (cs : List Char) : Option (BitVec 32 × List Char) := do
  let cs ← readGivenChar '%' cs
  let (n, cs) ← readNumber 10 none true (2 ^ 32) cs
  return (BitVec.ofNat 32 n, cs)

def readSocketAddrV4 (cs : List Char) : Option (SocketAddr × List Char) := do
  let (ip, cs) ← readIpv4Addr cs
  let (port, cs) ← readPort cs
  return (.v4 ip port, cs)

def readSocketAddrV6 (cs : List Char) : Option (SocketAddr × List Char) := do
  let cs ← readGivenChar '[' cs
  let (ip, cs) ← readIpv6Addr cs
  let (scopeId, cs) := (readScopeId cs).getD (0, cs)
  let cs ← readGivenChar ']' cs
  let (port, cs) ← readPort cs
  return (.v6 ip port 0 scopeId, cs)

/-- `str::parse::<SocketAddr>`: nothing may be left over. -/
def parseSocketAddr (s : String) : Option SocketAddr :=
  match (readSocketAddrV4 s.toList).orElse fun _ => readSocketAddrV6 s.toList with
  | some (addr, []) => some addr
  | _ => none

/-! ### `try_into_v4` and `AddrMangle` -/

def isLoopback : IpAddr → Bool
  | .v4 a => a.toNat / 2 ^ 24 = 127
  | .v6 a => a = 1#128

namespace SocketAddr

def ip : SocketAddr → IpAddr
  | v4 a _ => .v4 a
  | v6 a _ _ _ => .v6 a

def port : SocketAddr → BitVec 16
  | v4 _ p => p
  | v6 _ p _ _ => p

/-- Without the flow label and the scope, which a message does not carry. -/
def bare : SocketAddr → SocketAddr
  | v4 a p => v4 a p
  | v6 a p _ _ => v6 a p 0 0

def unspecified : SocketAddr := v4 0 0

end SocketAddr

def tryIntoV4 : SocketAddr → SocketAddr
  | .v4 a p => .v4 a p
  | .v6 a p flow scope =>
    if isLoopback (.v6 a) then .v6 a p flow scope
    else
      match toIpv4 a with
      | some b => .v4 b p
      | none => .v6 a p flow scope

theorem tryIntoV4_idem (addr : SocketAddr) : tryIntoV4 (tryIntoV4 addr) = tryIntoV4 addr := by
  cases addr with
  | v4 => rfl
  | v6 a =>
    by_cases hl : isLoopback (.v6 a) = true
    · simp [tryIntoV4, hl]
    · cases hv : toIpv4 a with
      | some | none => simp [tryIntoV4, hl, hv]

namespace AddrMangle

def leBytes (n v : ℕ) : Bytes := (List.range n).map fun i => UInt8.ofNat (v / 256 ^ i)

def ofLeBytes (bytes : Bytes) : ℕ := bytes.foldr (fun b acc => b.toNat + 256 * acc) 0

def dropTrailingZeros (bytes : Bytes) : Bytes := (bytes.reverse.dropWhile (· = 0)).reverse

/-- The mangled form of an IPv4 address, with the low 32 bits of the clock in `tm`. -/
def encodeV4 (tm : BitVec 32) (a : BitVec 32) (p : BitVec 16) : Bytes :=
  let tm := tm.setWidth 128
  let ip := BitVec.ofNat 128 (ofLeBytes ((octets a).map UInt8.ofNat))
  let v := ((ip + tm) <<< 49) ||| (tm <<< 17) ||| (p.setWidth 128 + (tm &&& 0xFFFF#128))
  dropTrailingZeros (leBytes 16 v.toNat)

def encodeV6 (a : BitVec 128) (p : BitVec 16) : Bytes :=
  (leBytes 16 a.toNat).reverse ++ leBytes 2 p.toNat

def encode (tm : BitVec 32) (addr : SocketAddr) : Bytes :=
  match tryIntoV4 addr with
  | .v4 a p => encodeV4 tm a p
  | .v6 a p _ _ => encodeV6 a p

/-- `AddrMangle::decode`, with the wrapping subtraction of a release build. -/
def decode (bytes : Bytes) : SocketAddr :=
  if 16 < bytes.length then
    if bytes.length ≠ 18 then .v6 0 0 0 0
    else
      .v6 (BitVec.ofNat 128 (ofLeBytes (bytes.take 16).reverse))
        (BitVec.ofNat 16 (ofLeBytes (bytes.drop 16))) 0 0
  else
    let number := BitVec.ofNat 128 (ofLeBytes bytes)
    let tm := (number >>> 17) &&& 0xFFFFFFFF#128
    let ip := leBytes 4 (((number >>> 49) - tm).setWidth 32).toNat
    let port := (number &&& 0xFFFFFF#128) - (tm &&& 0xFFFF#128)
    .v4 (BitVec.ofNat 32 (ofLeBytes ip.reverse)) (port.setWidth 16)

/-! ### What is mangled is found again -/

theorem leBytes_succ (n v : ℕ) : leBytes (n + 1) v = UInt8.ofNat v :: leBytes n (v / 256) := by
  rw [leBytes, leBytes, List.range_succ_eq_map, List.map_cons, List.map_map]
  refine congrArg₂ List.cons (by simp) (List.map_congr_left fun i _ => ?_)
  simp only [Function.comp_apply, Nat.pow_succ', Nat.div_div_eq_div_mul]

theorem length_leBytes (n v : ℕ) : (leBytes n v).length = n := by simp [leBytes]

theorem ofLeBytes_leBytes (n v : ℕ) : ofLeBytes (leBytes n v) = v % 256 ^ n := by
  induction n generalizing v with
  | zero => simp [leBytes, ofLeBytes, Nat.mod_one]
  | succ n ih =>
    have hb : (UInt8.ofNat v).toNat = v % 256 := rfl
    rw [leBytes_succ]
    show (UInt8.ofNat v).toNat + 256 * ofLeBytes (leBytes n (v / 256)) = _
    rw [ih, hb, Nat.pow_succ', Nat.mod_mul]

variable (bytes : Bytes)

theorem leBytes_ofLeBytes : leBytes bytes.length (ofLeBytes bytes) = bytes := by
  induction bytes with
  | nil => rfl
  | cons b bytes ih =>
    have hb : b.toNat < 256 := b.toNat_lt
    have hof : ofLeBytes (b :: bytes) = b.toNat + 256 * ofLeBytes bytes := rfl
    have hdiv : ofLeBytes (b :: bytes) / 256 = ofLeBytes bytes := by omega
    have hmod : UInt8.ofNat (ofLeBytes (b :: bytes)) = b := by
      apply UInt8.toNat_inj.1
      rw [UInt8.toNat_ofNat']
      omega
    rw [List.length_cons, leBytes_succ, hdiv, hmod, ih]

theorem ofLeBytes_append (a b : Bytes) :
    ofLeBytes (a ++ b) = ofLeBytes a + 256 ^ a.length * ofLeBytes b := by
  induction a with
  | nil => simp [ofLeBytes]
  | cons x a ih =>
    show x.toNat + 256 * ofLeBytes (a ++ b) = x.toNat + 256 * ofLeBytes a + _
    rw [ih, List.length_cons, Nat.pow_succ', Nat.mul_add, Nat.mul_assoc, Nat.add_assoc]

theorem ofLeBytes_zeros (n : ℕ) : ofLeBytes (List.replicate n 0) = 0 := by
  induction n with
  | zero => rfl
  | succ n ih =>
    show 0 + 256 * ofLeBytes (List.replicate n 0) = 0
    rw [ih]

theorem ofLeBytes_lt : ofLeBytes bytes < 256 ^ bytes.length := by
  induction bytes with
  | nil => exact Nat.one_pos
  | cons b bytes =>
    have hb : b.toNat < 256 := b.toNat_lt
    show b.toNat + 256 * ofLeBytes bytes < 256 ^ (bytes.length + 1)
    omega

theorem ofLeBytes_dropTrailingZeros : ofLeBytes (dropTrailingZeros bytes) = ofLeBytes bytes := by
  have hsplit : bytes = dropTrailingZeros bytes ++ (bytes.reverse.takeWhile (· = 0)).reverse := by
    rw [dropTrailingZeros, ← List.reverse_append, List.takeWhile_append_dropWhile,
      List.reverse_reverse]
  have hzeros : (bytes.reverse.takeWhile (· = 0)).reverse =
      List.replicate (bytes.reverse.takeWhile (· = 0)).length 0 := by
    rw [List.eq_replicate_iff]
    refine ⟨List.length_reverse, fun b hb => ?_⟩
    simpa using List.mem_takeWhile_imp (List.mem_reverse.1 hb)
  calc ofLeBytes (dropTrailingZeros bytes)
      = ofLeBytes (dropTrailingZeros bytes ++ (bytes.reverse.takeWhile (· = 0)).reverse) := by
        rw [ofLeBytes_append, hzeros, ofLeBytes_zeros, Nat.mul_zero, Nat.add_zero]
    _ = ofLeBytes bytes := by rw [← hsplit]

theorem length_dropTrailingZeros_le : (dropTrailingZeros bytes).length ≤ bytes.length := by
  have hle := List.length_dropWhile_le (fun b => decide (b = 0)) bytes.reverse
  rw [List.length_reverse] at hle
  rwa [dropTrailingZeros, List.length_reverse]

/-- The number that an IPv4 address, its port and the clock are packed into. -/
def pack (ip t p : ℕ) : ℕ := 2 ^ 17 * (2 ^ 32 * (ip + t) + t) + (p + t % 2 ^ 16)

theorem toNat_and_mask (v : BitVec 128) {n : ℕ} (hn : n < 128) :
    (v &&& BitVec.ofNat 128 (2 ^ n - 1)).toNat = v.toNat % 2 ^ n := by
  have hlt : 2 ^ n < 2 ^ 128 := Nat.pow_lt_pow_right (by omega) hn
  rw [BitVec.toNat_and, BitVec.toNat_ofNat, Nat.mod_eq_of_lt (by omega)]
  exact Nat.and_two_pow_sub_one_eq_mod _ n

/-- The clock in a packed number. -/
theorem toNat_clock (v : BitVec 128) :
    ((v >>> 17) &&& 0xFFFFFFFF#128).toNat = v.toNat / 2 ^ 17 % 2 ^ 32 := by
  rw [← Nat.shiftRight_eq_div_pow, ← BitVec.toNat_ushiftRight]
  exact toNat_and_mask (v >>> 17) (n := 32) (by omega)

theorem toNat_shiftRight_ip (v : BitVec 128) : (v >>> 49).toNat = v.toNat / 2 ^ 49 := by
  rw [BitVec.toNat_ushiftRight, Nat.shiftRight_eq_div_pow]

theorem toNat_pack {ip t p : BitVec 128} (hip : ip.toNat < 2 ^ 32) (ht : t.toNat < 2 ^ 32)
    (hp : p.toNat < 2 ^ 16) :
    (((ip + t) <<< 49) ||| (t <<< 17) ||| (p + (t &&& 0xFFFF#128))).toNat =
      pack ip.toNat t.toNat p.toNat := by
  have hmask : (t &&& 0xFFFF#128).toNat = t.toNat % 2 ^ 16 := toNat_and_mask t (n := 16) (by omega)
  have hhigh : ((ip + t) <<< 49).toNat = 2 ^ 17 * (2 ^ 32 * (ip.toNat + t.toNat)) := by
    rw [BitVec.toNat_shiftLeft, BitVec.toNat_add, Nat.shiftLeft_eq]
    omega
  have hmid : (t <<< 17).toNat = 2 ^ 17 * t.toNat := by
    rw [BitVec.toNat_shiftLeft, Nat.shiftLeft_eq]
    omega
  have hlow : (p + (t &&& 0xFFFF#128)).toNat = p.toNat + t.toNat % 2 ^ 16 := by
    rw [BitVec.toNat_add, hmask]
    omega
  -- the three parts do not overlap
  have hor : 2 ^ 17 * (2 ^ 32 * (ip.toNat + t.toNat)) ||| 2 ^ 17 * t.toNat =
      2 ^ 17 * (2 ^ 32 * (ip.toNat + t.toNat) + t.toNat) := by
    rw [Nat.two_pow_add_eq_or_of_lt ht, Nat.mul_comm (2 ^ 17), Nat.mul_comm (2 ^ 17) t.toNat,
      Nat.mul_comm (2 ^ 17), ← Nat.shiftLeft_eq, ← Nat.shiftLeft_eq, ← Nat.shiftLeft_eq,
      Nat.shiftLeft_or_distrib]
  rw [BitVec.toNat_or, BitVec.toNat_or, hhigh, hmid, hlow, hor,
    ← Nat.two_pow_add_eq_or_of_lt (by omega), pack]

variable {ip t p : ℕ} {v tm : BitVec 128}

theorem unpack_tm (hv : v.toNat = pack ip t p) (ht : t < 2 ^ 32)
    (hp : p < 2 ^ 16) : ((v >>> 17) &&& 0xFFFFFFFF#128).toNat = t := by
  have hdiv : pack ip t p / 2 ^ 17 = 2 ^ 32 * (ip + t) + t := by
    rw [pack]
    omega
  rw [toNat_clock]
  omega

theorem unpack_ip (hv : v.toNat = pack ip t p) (htm : tm.toNat = t) (hip : ip < 2 ^ 32)
    (ht : t < 2 ^ 32) (hp : p < 2 ^ 16) : (((v >>> 49) - tm).setWidth 32).toNat = ip := by
  have hshift : (v >>> 49).toNat = ip + t := by
    rw [toNat_shiftRight_ip, hv, pack]
    omega
  rw [BitVec.toNat_setWidth, BitVec.toNat_sub, hshift, htm]
  omega

theorem unpack_port (hv : v.toNat = pack ip t p) (htm : tm.toNat = t) (hp : p < 2 ^ 16) :
    (((v &&& 0xFFFFFF#128) - (tm &&& 0xFFFF#128)).setWidth 16).toNat = p := by
  have hlow : (v &&& 0xFFFFFF#128).toNat = v.toNat % 2 ^ 24 := toNat_and_mask v (n := 24) (by omega)
  have hmask : (tm &&& 0xFFFF#128).toNat = tm.toNat % 2 ^ 16 :=
    toNat_and_mask tm (n := 16) (by omega)
  rw [BitVec.toNat_setWidth, BitVec.toNat_sub, hlow, hmask, htm, hv, pack]
  omega

theorem octets_eq (a : BitVec 32) : (octets a).map UInt8.ofNat = (leBytes 4 a.toNat).reverse := by
  have h : ∀ n, UInt8.ofNat (n % 256) = UInt8.ofNat n := by
    intro n
    apply UInt8.toNat_inj.1
    rw [UInt8.toNat_ofNat', UInt8.toNat_ofNat']
    omega
  simp only [octets, leBytes, List.map_cons, List.map_nil, h]
  rfl

theorem length_encodeV4_le (tm a : BitVec 32) (p : BitVec 16) : (encodeV4 tm a p).length ≤ 16 :=
  (length_dropTrailingZeros_le _).trans (length_leBytes 16 _).le

/-- The number that stands for an IPv4 address in `pack`. -/
abbrev ipNumber (a : BitVec 32) : ℕ := ofLeBytes ((octets a).map UInt8.ofNat)

theorem ipNumber_lt (a : BitVec 32) : ipNumber a < 2 ^ 32 := by
  have hlt := ofLeBytes_lt ((octets a).map UInt8.ofNat)
  have hfour : ((octets a).map UInt8.ofNat).length = 4 := rfl
  rw [hfour] at hlt
  omega

theorem ofLeBytes_encodeV4 (tm a : BitVec 32) (p : BitVec 16) :
    ofLeBytes (encodeV4 tm a p) = pack (ipNumber a) tm.toNat p.toNat := by
  have hlt := ipNumber_lt a
  have hip : (BitVec.ofNat 128 (ipNumber a)).toNat = ipNumber a := by
    rw [BitVec.toNat_ofNat]
    omega
  have htm : (tm.setWidth 128).toNat = tm.toNat := by
    rw [BitVec.toNat_setWidth]
    omega
  have hp : (p.setWidth 128).toNat = p.toNat := by
    rw [BitVec.toNat_setWidth]
    omega
  rw [encodeV4, ofLeBytes_dropTrailingZeros, ofLeBytes_leBytes, ← hip, ← htm, ← hp,
    ← toNat_pack (by omega) (by omega) (by omega)]
  exact Nat.mod_eq_of_lt (BitVec.isLt _)

theorem decode_encodeV4 (tm : BitVec 32) (a : BitVec 32) (p : BitVec 16) :
    decode (encodeV4 tm a p) = .v4 a p := by
  have htm := tm.isLt
  have hp := p.isLt
  have hlen := length_encodeV4_le tm a p
  have hpack : (BitVec.ofNat 128 (ofLeBytes (encodeV4 tm a p))).toNat =
      pack (ipNumber a) tm.toNat p.toNat := by
    rw [BitVec.toNat_ofNat, ofLeBytes_encodeV4]
    refine Nat.mod_eq_of_lt ?_
    have hip := ipNumber_lt a
    rw [pack]
    omega
  have ht := unpack_tm hpack htm hp
  have hport := BitVec.eq_of_toNat_eq (unpack_port hpack ht hp)
  have hbytes : leBytes 4 (ipNumber a) = (octets a).map UInt8.ofNat := leBytes_ofLeBytes _
  rw [decode, if_neg (by omega)]
  dsimp only
  rw [unpack_ip hpack ht (ipNumber_lt a) htm hp, hbytes, octets_eq, List.reverse_reverse,
    ofLeBytes_leBytes, hport]
  show SocketAddr.v4 (BitVec.ofNat 32 (a.toNat % 2 ^ 32)) p = .v4 a p
  rw [Nat.mod_eq_of_lt a.isLt, BitVec.ofNat_toNat, BitVec.setWidth_eq]

theorem length_encodeV6 (a : BitVec 128) (p : BitVec 16) : (encodeV6 a p).length = 18 := by
  rw [encodeV6, List.length_append, List.length_reverse, length_leBytes, length_leBytes]

theorem decode_encodeV6 (a : BitVec 128) (p : BitVec 16) : decode (encodeV6 a p) = .v6 a p 0 0 := by
  have htake : ((leBytes 16 a.toNat).reverse ++ leBytes 2 p.toNat).take 16 =
      (leBytes 16 a.toNat).reverse := List.take_left' (by rw [List.length_reverse, length_leBytes])
  have hdrop : ((leBytes 16 a.toNat).reverse ++ leBytes 2 p.toNat).drop 16 = leBytes 2 p.toNat :=
    List.drop_left' (by rw [List.length_reverse, length_leBytes])
  have hlen := length_encodeV6 a p
  rw [decode, if_pos (by omega), if_neg (by omega), encodeV6, htake, hdrop, List.reverse_reverse,
    ofLeBytes_leBytes, ofLeBytes_leBytes]
  show SocketAddr.v6 (BitVec.ofNat 128 (a.toNat % 2 ^ 128))
    (BitVec.ofNat 16 (p.toNat % 2 ^ 16)) 0 0 = .v6 a p 0 0
  rw [Nat.mod_eq_of_lt a.isLt, Nat.mod_eq_of_lt p.isLt, BitVec.ofNat_toNat, BitVec.ofNat_toNat,
    BitVec.setWidth_eq, BitVec.setWidth_eq]

theorem decode_encode (tm : BitVec 32) (addr : SocketAddr) :
    decode (encode tm addr) = (tryIntoV4 addr).bare := by
  rw [encode]
  cases tryIntoV4 addr with
  | v4 a p => exact decode_encodeV4 tm a p
  | v6 a p => exact decode_encodeV6 a p

end AddrMangle

end CodeDesk.Rendezvous
