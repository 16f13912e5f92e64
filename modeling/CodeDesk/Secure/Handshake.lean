/-
# The handshakes

How a stream gets its key: `secure_connection` of the client (`client.rs`) and
`create_tcp_connection` of the controlled side (`server.rs`), which agree on a key
between two peers, and `secure_tcp_impl` (`common.rs`), which does so with the
rendezvous server. Each sends at most one message and reads at most one, so each
is given by what it does at once and what it makes of the answer of `next`.

Signatures, boxes and the encoding of messages are a parameter, `Suite`, over any
type `D` of byte strings: the attacker of `Secure.Secrecy` has terms for them, the
streams of `Secure.Agreement` bytes. What the peers rely on is `Suite.Lawful`. The
key pair and the key that a handshake draws are arguments.
-/
import CodeDesk.Sealing

namespace CodeDesk.Secure

/-! ### Messages -/

inductive Msg (D : Type) where
  | empty
  | signedId (id : D)
  | publicKey (asymmetricValue symmetricValue : D)
  | other (body : D)
  deriving DecidableEq, Repr

/-- `HttpProxyRequest`, with its headers as pairs. -/
structure HttpProxyRequest (D : Type) where
  method : String
  path : String
  headers : List (String × String)
  body : D
  deriving DecidableEq, Repr

inductive Rendezvous (D : Type) where
  | keyExchange (keys : List D)
  | httpProxyRequest (req : HttpProxyRequest D)
  | httpProxyResponse (body : D)
  | other (body : D)
  deriving DecidableEq, Repr

inductive Received (D : Type) where
  | timeout
  | closed
  | err (text : String)
  | ok (bytes : D)
  deriving DecidableEq, Repr

/-! ### The suite -/

structure Suite (D : Type) where
  SignSk : Type
  BoxSk : Type
  length : D → ℕ
  nil : D
  decode64 : String → Option D
  signPk : SignSk → D
  boxPk : BoxSk → D
  sign : D → SignSk → D
  verify : D → D → Option D
  /-- `box_::seal` and `box_::open` under the nonce of zeros: the text, the public
  key of the other and the own secret key. -/
  sealBox : D → D → BoxSk → D
  openBox : D → D → BoxSk → Option D
  writeIdPk : String → D → D
  parseIdPk : D → Option (String × D)
  write : Msg D → D
  parse : D → Option (Msg D)

namespace Suite

variable {D : Type} (C : Suite D)

/-- What is written is read back, what is signed verifies, what is sealed opens. -/
structure Lawful : Prop where
  length_nil : C.length C.nil = 0
  length_boxPk : ∀ sk, C.length (C.boxPk sk) = 32
  verify_sign : ∀ m sk, C.verify (C.sign m sk) (C.signPk sk) = some m
  /-- A signed text carries the text; a key only says whether the signature is good. -/
  verify_text : ∀ m sk pk m', C.verify (C.sign m sk) pk = some m' → m' = m
  open_seal : ∀ m a b, C.openBox (C.sealBox m (C.boxPk a) b) (C.boxPk b) a = some m
  parseIdPk_write : ∀ id pk, C.parseIdPk (C.writeIdPk id pk) = some (id, pk)
  parse_write : ∀ m, C.parse (C.write m) = some m

/-! ### Keys -/

def getPk (pk : D) : Option D := if C.length pk = 32 then some pk else none

def getRsPk (strBase64 : String) : Option D := (C.decode64 strBase64).bind C.getPk

def decodeIdPk (signed key : D) : Except String (String × D) :=
  match C.verify signed key with
  | none => .error "Signature mismatch"
  | some m =>
    match C.parseIdPk m with
    | none => .error "invalid IdPk"
    | some (id, pk) =>
      match C.getPk pk with
      | some pk => .ok (id, pk)
      | none => .error "Wrong their public length"

/-- The asymmetric and the symmetric value for the key drawn. -/
def createSymmetricKeyMsg (theirPkB : D) (ourSkB : C.BoxSk) (key : D) : D × D :=
  (C.boxPk ourSkB, C.sealBox key theirPkB ourSkB)

def decode (symmetricData theirPkB : D) (ourSkB : C.BoxSk) : Except String D :=
  if C.length theirPkB ≠ 32 then .error "Handshake failed: pk length"
  else
    match C.openBox symmetricData theirPkB ourSkB with
    | none => .error "Handshake failed: box decryption failure"
    | some key =>
      if C.length key ≠ 32 then .error "Handshake failed: invalid secret key length from peer"
      else .ok key

/-! ### The two ends -/

/-- An end waits for a message, is through with the key it set on its stream, or
has given up. -/
inductive Stage (W D : Type) where
  | waiting (w : W)
  | done (key : Option D)
  | failed (error : String)
  deriving DecidableEq, Repr

def Stage.key {W : Type} : Stage W D → Option D
  | done key => key
  | _ => none

/-- A client that sends `m` and goes on unsecured. A message whose sending fails may
still be on its way. -/
def fallBack (m : Msg D) (sends : Bool) : List (Msg D) × Stage D D :=
  ([m], if sends then .done none else .failed "send")

/-- The signing key that the rendezvous server certified for the peer; it is also
what `secure_connection` returns. -/
def certifiedPk (rsPubKey peerId : String) (signedIdPk : D) (key : String) : Option D :=
  if C.length signedIdPk = 0 then none
  else
    match C.getRsPk (if key = "" then rsPubKey else key) with
    | none => none
    | some rsPk =>
      match C.decodeIdPk signedIdPk rsPk with
      | .ok (id, pk) => if id = peerId then some pk else none
      | .error _ => none

/-- `secure_connection` until it reads: without a certified key it sends an empty
message, in case the server waits for one, and goes on unsecured. -/
def secureConnection (rsPubKey peerId : String) (signedIdPk : D) (key : String) (sends : Bool) :
    List (Msg D) × Stage D D :=
  match C.certifiedPk rsPubKey peerId signedIdPk key with
  | none => fallBack .empty sends
  | some signPk => ([], .waiting signPk)

/-- `secure_connection` with what it read; `ourSkB` and `key` are drawn. -/
def onSignedId (peerId : String) (signPk : D) (ourSkB : C.BoxSk) (key : D) (r : Received D)
    (sends : Bool) : List (Msg D) × Stage D D :=
  match r with
  | .timeout => ([], .failed "deadline has elapsed")
  | .closed => ([], .failed "Reset by the peer")
  | .err text => ([], .failed text)
  | .ok bytes =>
    match C.parse bytes with
    | some (.signedId si) =>
      match C.decodeIdPk si signPk with
      | .ok (id, theirPkB) =>
        if id = peerId then
          let (asymmetricValue, symmetricValue) := C.createSymmetricKeyMsg theirPkB ourSkB key
          ([.publicKey asymmetricValue symmetricValue],
            if sends then .done (some key) else .failed "send")
        else fallBack .empty sends
      | .error _ => fallBack (.publicKey C.nil C.nil) sends
    | some _ => fallBack .empty sends
    | none => fallBack .empty sends

/-- `create_tcp_connection` until it reads. There is a handshake if it is asked for
and the key pair has the right lengths. -/
def createTcpConnection (secure : Bool) (keyPair : Option C.SignSk) (id : String)
    (ourSkB : C.BoxSk) (sends : Bool) : List (Msg D) × Stage Unit D :=
  match secure, keyPair with
  | true, some sk =>
    ([.signedId (C.sign (C.writeIdPk id (C.boxPk ourSkB)) sk)],
      if sends then .waiting () else .failed "send")
  | _, _ => ([], .done none)

/-- `create_tcp_connection` with what it read. An empty public key says that the
client has another key of this peer; the key is then registered anew. -/
def onPublicKey (ourSkB : C.BoxSk) (r : Received D) : Stage Unit D × Bool :=
  match r with
  | .timeout => (.failed "deadline has elapsed", false)
  | .closed => (.failed "Failed to receive public key", false)
  | .err text => (.failed text, false)
  | .ok bytes =>
    match C.parse bytes with
    | some (.publicKey asymmetricValue symmetricValue) =>
      if C.length asymmetricValue = 32 then
        match C.decode symmetricValue asymmetricValue ourSkB with
        | .ok key => (.done (some key), false)
        | .error e => (.failed e, false)
      else if C.length asymmetricValue = 0 then (.done none, true)
      else (.failed "Handshake failed: invalid public sign key length from peer", false)
    | some _ => (.done none, false)
    | none => (.failed "Handshake failed: invalid message format", false)

/-! ### What the answers can be -/

variable {C}

variable {key pk : D} {ourSkB : C.BoxSk} {r : Received D}

theorem decodeIdPk_eq_ok {signed : D} {id : String} (h : C.decodeIdPk signed key = .ok (id, pk)) :
    ∃ m, C.verify signed key = some m ∧ C.parseIdPk m = some (id, pk) := by
  unfold decodeIdPk at h
  cases hv : C.verify signed key with
  | none => simp [hv] at h
  | some m =>
    rw [hv] at h
    refine ⟨m, rfl, ?_⟩
    cases hp : C.parseIdPk m with
    | none => simp [hp] at h
    | some r =>
      obtain ⟨id', pk'⟩ := r
      simp only [hp, getPk] at h
      by_cases hl : C.length pk' = 32
      · simp only [hl, if_true, Except.ok.injEq] at h
        rw [h]
      · simp [hl] at h

theorem certifiedPk_eq_some {rsPubKey peerId key : String} {signedIdPk : D}
    (h : C.certifiedPk rsPubKey peerId signedIdPk key = some pk) :
    ∃ rsPk, C.getRsPk (if key = "" then rsPubKey else key) = some rsPk ∧
      C.decodeIdPk signedIdPk rsPk = .ok (peerId, pk) := by
  unfold certifiedPk at h
  split at h
  · cases h
  cases hr : C.getRsPk (if key = "" then rsPubKey else key) with
  | none => simp [hr] at h
  | some rsPk =>
    rw [hr] at h
    refine ⟨rsPk, rfl, ?_⟩
    cases hd : C.decodeIdPk signedIdPk rsPk with
    | error => simp [hd] at h
    | ok r =>
      obtain ⟨id, pk'⟩ := r
      simp only [hd] at h
      split_ifs at h with hid
      cases h
      rw [hid]

/-- The client gives up, or it sends a message without content and sets no key, or it
has read a `SignedId` of the certified key and seals its key to what is signed there. -/
theorem onSignedId_cases (peerId : String) (signPk : D) (ourSkB : C.BoxSk) (key : D)
    (r : Received D) (sends : Bool) :
    (∃ e, C.onSignedId peerId signPk ourSkB key r sends = ([], .failed e)) ∨
    (∃ m, (m = .empty ∨ m = .publicKey C.nil C.nil) ∧
      C.onSignedId peerId signPk ourSkB key r sends = fallBack m sends) ∨
    ∃ bytes si theirPkB, r = .ok bytes ∧ C.parse bytes = some (.signedId si) ∧
      C.decodeIdPk si signPk = .ok (peerId, theirPkB) ∧
      C.onSignedId peerId signPk ourSkB key r sends =
        ([.publicKey (C.boxPk ourSkB) (C.sealBox key theirPkB ourSkB)],
          if sends then .done (some key) else .failed "send") := by
  cases r with
  | timeout | closed | err => exact .inl ⟨_, rfl⟩
  | ok bytes =>
    refine .inr ?_
    unfold onSignedId
    dsimp only
    split
    · rename_i si hp
      split
      · rename_i id theirPkB hd
        by_cases hid : id = peerId
        · subst hid
          exact .inr ⟨bytes, si, theirPkB, rfl, hp, hd, by rw [if_pos rfl]; rfl⟩
        · rw [if_neg hid]
          exact .inl ⟨_, .inl rfl, rfl⟩
      · exact .inl ⟨_, .inr rfl, rfl⟩
    · exact .inl ⟨_, .inl rfl, rfl⟩
    · exact .inl ⟨_, .inl rfl, rfl⟩

theorem onPublicKey_key (h : (C.onPublicKey ourSkB r).1.key = some key) :
    ∃ bytes a s, r = .ok bytes ∧ C.parse bytes = some (.publicKey a s) ∧
      C.openBox s a ourSkB = some key := by
  cases r with
  | timeout | closed | err => cases h
  | ok bytes =>
    unfold onPublicKey at h
    dsimp only at h
    split at h
    · rename_i a s hp
      refine ⟨bytes, a, s, rfl, hp, ?_⟩
      split at h
      · split at h
        · rename_i key' hd
          cases h
          unfold decode at hd
          split_ifs at hd
          split at hd
          · cases hd
          rename_i key' ho
          split_ifs at hd
          cases hd
          exact ho
        · cases h
      · split at h <;> cases h
    · cases h
    · cases h

/-! ### The rendezvous server -/

variable (C)

/-- `secure_tcp_impl`: what it sent and the key it set, with the stream's `next` as
`r`. Whatever is not a key exchange ends it without an error. -/
def secureTcpImpl (parseRendezvous : D → Option (Rendezvous D)) (useWs : Bool) (strKey : String)
    (ourSkB : C.BoxSk) (key : D) (r : Received D) (sends : Bool) :
    Except String (List (Rendezvous D) × Option D) :=
  if useWs then .ok ([], none)
  else
    match C.getRsPk strKey with
    | none => .error "Handshake failed: invalid public key from rendezvous server"
    | some rsPk =>
      match r with
      | .timeout => .error "deadline has elapsed"
      | .ok bytes =>
        match parseRendezvous bytes with
        | some (.keyExchange [signed]) =>
          match C.verify signed rsPk with
          | none => .error "Signature mismatch in key exchange"
          | some theirPkB =>
            match C.getPk theirPkB with
            | none => .error "Wrong their public length in key exchange"
            | some theirPkB =>
              let (asymmetricValue, symmetricValue) := C.createSymmetricKeyMsg theirPkB ourSkB key
              if sends then .ok ([.keyExchange [asymmetricValue, symmetricValue]], some key)
              else .error "send"
        | some (.keyExchange _) => .error "Handshake failed: invalid key exchange message"
        | _ => .ok ([], none)
      | _ => .ok ([], none)

variable {C}

/-- `secure_tcp_impl` succeeds with a key it sealed to a key that the server signed,
or with none. -/
theorem secureTcpImpl_ok {parseRendezvous : D → Option (Rendezvous D)} {strKey : String}
    {sends : Bool} {sent : List (Rendezvous D)} {k : Option D}
    (h : C.secureTcpImpl parseRendezvous false strKey ourSkB key r sends = .ok (sent, k)) :
    (k = none ∧ r ≠ .timeout ∧
      ∀ bytes keys, r = .ok bytes → parseRendezvous bytes ≠ some (.keyExchange keys)) ∨
    (∃ rsPk signed theirPkB, C.getRsPk strKey = some rsPk ∧ C.verify signed rsPk = some theirPkB ∧
      sent = [.keyExchange [C.boxPk ourSkB, C.sealBox key theirPkB ourSkB]] ∧ k = some key) := by
  rw [secureTcpImpl, if_neg Bool.false_ne_true] at h
  split at h
  · cases h
  rename_i rsPk hr
  split at h
  · cases h
  · split at h
    · rename_i signed hp
      split at h
      · cases h
      rename_i m hv
      split at h
      · cases h
      · rename_i theirPkB hl
        -- the key is passed on as it is if it has the length of one
        have hm : m = theirPkB := by
          unfold getPk at hl
          split_ifs at hl
          exact Option.some.inj hl
        subst hm
        simp only [createSymmetricKeyMsg] at h
        split at h
        · cases h
          exact .inr ⟨rsPk, signed, m, hr, hv, rfl, rfl⟩
        · cases h
    · cases h
    · rename_i hno hne
      cases h
      refine .inl ⟨rfl, nofun, ?_⟩
      rintro _ keys ⟨⟩ hp
      exact hne keys hp
  · rename_i hnt hno
    cases h
    refine .inl ⟨rfl, hnt, ?_⟩
    rintro bytes keys rfl
    exact absurd rfl (hno bytes)

end Suite

/-! ### A suite of bytes -/

namespace Plain

/-- Bytes with a one before each and a zero behind the last, then the rest. -/
def join : List UInt8 → List UInt8 → List UInt8
  | [], b => 0 :: b
  | x :: a, b => 1 :: x :: join a b

def split : List UInt8 → Option (List UInt8 × List UInt8)
  | 0 :: b => some ([], b)
  | 1 :: x :: r => (split r).map fun (a, b) => (x :: a, b)
  | _ => none

theorem split_join : ∀ a b : List UInt8, split (join a b) = some (a, b)
  | [], b => rfl
  | x :: a, b => by
    rw [join, split, split_join a b]
    rfl

def chars : List Char → List UInt8
  | [] => []
  | c :: cs => Sealing.leBytes 3 c.toNat ++ chars cs

def unchars : List UInt8 → List Char
  | a :: b :: c :: r => Char.ofNat (a.toNat + 256 * b.toNat + 65536 * c.toNat) :: unchars r
  | _ => []

theorem unchars_chars : ∀ cs : List Char, unchars (chars cs) = cs
  | [] => rfl
  | c :: cs => by
    have hc : c.toNat < 2 ^ 24 := by
      have := c.valid
      simp only [Char.toNat]
      omega
    simp only [chars, Sealing.leBytes, List.cons_append, List.nil_append, unchars, unchars_chars cs,
      List.cons.injEq, and_true, UInt8.toNat_ofNat']
    rw [show c.toNat % 2 ^ 8 + 256 * (c.toNat / 256 % 2 ^ 8) +
      65536 * (c.toNat / 256 / 256 % 2 ^ 8) = c.toNat by omega]
    exact Char.ofNat_toNat c

def write : Msg (List UInt8) → List UInt8
  | .empty => []
  | .signedId id => 3 :: id
  | .publicKey a s => 4 :: join a s
  | .other body => 0 :: body

def parse : List UInt8 → Option (Msg (List UInt8))
  | [] => some .empty
  | 3 :: id => some (.signedId id)
  | 4 :: r => (split r).map fun (a, s) => .publicKey a s
  | 0 :: body => some (.other body)
  | _ => none

/-- A suite whose signatures name the key and whose boxes are open. -/
def suite : Suite (List UInt8) where
  SignSk := UInt8
  BoxSk := UInt8
  length := List.length
  nil := []
  decode64 := fun s => some (List.replicate 32 (UInt8.ofNat s.length))
  signPk := List.replicate 32
  boxPk := List.replicate 32
  sign := fun m sk => sk :: m
  verify := fun d pk =>
    match d with
    | sk :: m => if pk = List.replicate 32 sk then some m else none
    | [] => none
  sealBox := fun m _ _ => m
  openBox := fun m _ _ => some m
  writeIdPk := fun id pk => join (chars id.toList) pk
  parseIdPk := fun d => (split d).map fun (id, pk) => (String.ofList (unchars id), pk)
  write := write
  parse := parse

theorem suite_lawful : suite.Lawful where
  length_nil := rfl
  length_boxPk := fun sk => List.length_replicate
  verify_sign := by
    intro m sk
    exact if_pos rfl
  verify_text := by
    intro m sk pk m' h
    simp only [suite] at h
    split_ifs at h
    exact (Option.some.inj h).symm
  open_seal := fun _ _ _ => rfl
  parseIdPk_write := by
    intro id pk
    simp [suite, split_join, unchars_chars]
  parse_write := by
    intro m
    cases m with
    | publicKey => simp [suite, write, parse, split_join]
    | _ => rfl

end Plain

end CodeDesk.Secure
