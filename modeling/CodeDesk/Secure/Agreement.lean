/-
# Whether the two ends agree

A client and a controlled side, both honest, over a transport that loses and
reorders nothing, each with the configuration it has: they run the handshake, then
their applications send and read messages over the same streams. Up to its first
read an end depends on nothing but its configuration, so a run starts when both
have come so far.

Once both are through, both streams have the same key or none, in every
configuration, and, unless the client expects a handshake of a server that makes
none, no message of an application is lost (`handshake_agrees`). What is left over
of a handshake that only one end takes part in is read by the application of the
other.
-/
import CodeDesk.Net.Wiring
import CodeDesk.Secure.Handshake

namespace CodeDesk.Secure

open Sealing Net

structure Config (C : Suite Bytes) where
  kind : Kind
  secure : Bool
  keyPair : Option C.SignSk
  id : String
  serverSk : C.BoxSk
  rsPubKey : String
  peerId : String
  signedIdPk : Bytes
  key : String
  clientSk : C.BoxSk
  symKey : Bytes
  length_symKey : C.length symKey = 32

structure Party (S : Box) (W : Type) where
  stage : Suite.Stage W Bytes
  stream : Stream S
  sent : List Bytes := []
  read : List Bytes := []

/-- Both ends, with the frames on their way up to the server and down to the client. -/
structure Pair (S : Box) where
  client : Party S Bytes
  server : Party S Unit
  up : List Bytes := []
  down : List Bytes := []

/-- An end takes its turn: the handshake reads, it has waited too long, the
application sends or reads. -/
inductive Turn where
  | clientReads
  | serverReads
  | clientTimeout
  | serverTimeout
  | clientSay (body : Bytes)
  | serverSay (body : Bytes)
  | clientNext
  | serverNext
  deriving DecidableEq, Repr

namespace Pair

variable {S : Box} {C : Suite Bytes} (toKey : Bytes → S.Key) (cfg : Config C)

def setKeyOf (key : Option Bytes) (s : Stream S) : Stream S :=
  match key with
  | some key => s.setKey (toKey key)
  | none => s

def toReceived : Next → Received Bytes
  | .ok bytes => .ok bytes
  | .err => .err "decryption error"
  | .closed => .closed
  | .again => .timeout

/-- Both have come to their first read. -/
def start : Pair S :=
  let c := C.secureConnection cfg.rsPubKey cfg.peerId cfg.signedIdPk cfg.key true
  let v := C.createTcpConnection cfg.secure cfg.keyPair cfg.id cfg.serverSk true
  { client := { stage := c.2, stream := { kind := cfg.kind } }
    server := { stage := v.2, stream := { kind := cfg.kind } }
    up := c.1.map C.write
    down := v.1.map C.write }

def clientReads (p : Pair S) : Pair S :=
  match p.client.stage, p.down with
  | .waiting signPk, f :: down =>
    let n := p.client.stream.next (.data f)
    let r := C.onSignedId cfg.peerId signPk cfg.clientSk cfg.symKey (toReceived n.2) true
    { p with
      client := { p.client with stage := r.2, stream := setKeyOf toKey r.2.key n.1 }
      up := p.up ++ r.1.map C.write
      down := down }
  | _, _ => p

def serverReads (p : Pair S) : Pair S :=
  match p.server.stage, p.up with
  | .waiting _, f :: up =>
    let n := p.server.stream.next (.data f)
    let r := C.onPublicKey cfg.serverSk (toReceived n.2)
    { p with
      server := { p.server with stage := r.1, stream := setKeyOf toKey r.1.key n.1 }
      up := up }
  | _, _ => p

/-- A message of the application of the client; only once the handshake is through. -/
def clientSay (m : Bytes) (p : Pair S) : Pair S :=
  match p.client.stage with
  | .done _ =>
    let r := p.client.stream.sendRaw m
    { p with
      client := { p.client with stream := r.1, sent := p.client.sent ++ [m] }
      up := p.up ++ [r.2] }
  | _ => p

def serverSay (m : Bytes) (p : Pair S) : Pair S :=
  match p.server.stage with
  | .done _ =>
    let r := p.server.stream.sendRaw m
    { p with
      server := { p.server with stream := r.1, sent := p.server.sent ++ [m] }
      down := p.down ++ [r.2] }
  | _ => p

/-- The application of the client reads; an error ends it. -/
def clientNext (p : Pair S) : Pair S :=
  match p.client.stage, p.down with
  | .done _, f :: down =>
    match p.client.stream.next (.data f) with
    | (s, .ok m) =>
      { p with client := { p.client with stream := s, read := p.client.read ++ [m] }, down := down }
    | (_, _) => { p with client := { p.client with stage := .failed "read" } }
  | _, _ => p

def serverNext (p : Pair S) : Pair S :=
  match p.server.stage, p.up with
  | .done _, f :: up =>
    match p.server.stream.next (.data f) with
    | (s, .ok m) =>
      { p with server := { p.server with stream := s, read := p.server.read ++ [m] }, up := up }
    | (_, _) => { p with server := { p.server with stage := .failed "read" } }
  | _, _ => p

def clientTimeout (p : Pair S) : Pair S :=
  match p.client.stage with
  | .waiting _ => { p with client := { p.client with stage := .failed "deadline has elapsed" } }
  | _ => p

def serverTimeout (p : Pair S) : Pair S :=
  match p.server.stage with
  | .waiting _ => { p with server := { p.server with stage := .failed "deadline has elapsed" } }
  | _ => p

def step (p : Pair S) : Turn → Pair S
  | .clientReads => p.clientReads toKey cfg
  | .serverReads => p.serverReads toKey cfg
  | .clientTimeout => p.clientTimeout
  | .serverTimeout => p.serverTimeout
  | .clientSay body => p.clientSay (C.write (.other body))
  | .serverSay body => p.serverSay (C.write (.other body))
  | .clientNext => p.clientNext
  | .serverNext => p.serverNext

/-! ### The phases of a run -/

variable {toKey cfg} {p : Pair S}

def Offers (cfg : Config C) : Bool := cfg.secure && cfg.keyPair.isSome

def Expects (cfg : Config C) : Option Bytes :=
  C.certifiedPk cfg.rsPubKey cfg.peerId cfg.signedIdPk cfg.key

/-- The message of the client's handshake that is left for the application of a
server that makes none. -/
def leftUp (cfg : Config C) : List Bytes := if Offers cfg then [] else [C.write .empty]

/-- The message of the server's handshake that is left for the application of a
client that expects none. -/
def leftDown (cfg : Config C) : List Bytes :=
  if (Expects cfg).isSome then []
  else (C.createTcpConnection cfg.secure cfg.keyPair cfg.id cfg.serverSk true).1.map C.write

/-- The encryption of a stream that was given this key and not used since. -/
def freshEnc (toKey : Bytes → S.Key) (kind : Kind) (key : Option Bytes) : Option (Encrypt S) :=
  (setKeyOf toKey key { kind := kind }).encrypt

/-- Both ends are through; `u` and `d` are still under way. -/
structure Through (cfg : Config C) (p : Pair S) (key : Option Bytes) (u d : List Bytes) : Prop where
  client : p.client.stage = .done key
  server : p.server.stage = .done key
  up : p.up = inbox p.server.stream.encrypt u
  down : p.down = inbox p.client.stream.encrypt d
  upSynced : Synced p.client.stream.encrypt p.server.stream.encrypt u.length
  downSynced : Synced p.server.stream.encrypt p.client.stream.encrypt d.length
  serverRead : p.server.read ++ u = leftUp cfg ++ p.client.sent
  clientRead : Offers cfg = true ∨ Expects cfg = none →
    p.client.read ++ d = leftDown cfg ++ p.server.sent

/-- The client is through, the server has still to read `first`. -/
structure ServerWaits (toKey : Bytes → S.Key) (cfg : Config C) (p : Pair S) (key : Option Bytes)
    (first : Bytes) (d : List Bytes) : Prop where
  offers : Offers cfg = true
  client : p.client.stage = .done key
  server : p.server.stage = .waiting ()
  stream : p.server.stream = { kind := cfg.kind }
  sent : p.server.sent = []
  read : p.server.read = []
  answer : (C.onPublicKey cfg.serverSk (.ok first)).1 = .done key
  up : p.up = first :: inbox (freshEnc toKey cfg.kind key) p.client.sent
  down : p.down = inbox p.client.stream.encrypt d
  upSynced : Synced p.client.stream.encrypt (freshEnc toKey cfg.kind key) p.client.sent.length
  downSynced : Synced (freshEnc toKey cfg.kind key) p.client.stream.encrypt d.length
  clientRead : p.client.read ++ d = leftDown cfg

/-- The server makes no handshake, the client waits for one. -/
structure ClientWaits (cfg : Config C) (p : Pair S) (pk : Bytes) : Prop where
  offers : Offers cfg = false
  expects : Expects cfg = some pk
  client : p.client.stage = .waiting pk
  server : p.server.stage = .done none
  stream : p.client.stream.encrypt = none
  serverStream : p.server.stream.encrypt = none
  sent : p.client.sent = []
  read : p.server.read = []
  up : p.up = []
  down : ∀ m ∈ p.down, ∃ body, m = C.write (.other body)

inductive Phase (toKey : Bytes → S.Key) (cfg : Config C) (p : Pair S) : Prop where
  | clientFailed (e) : p.client.stage = .failed e → Phase toKey cfg p
  | serverFailed (e) : p.server.stage = .failed e → Phase toKey cfg p
  | bothWait (pk) : p = start cfg → Expects cfg = some pk → p.client.stage = .waiting pk →
      p.server.stage = .waiting () → Phase toKey cfg p
  | serverWaits (key first d) : ServerWaits toKey cfg p key first d → Phase toKey cfg p
  | clientWaits (pk) : ClientWaits cfg p pk → Phase toKey cfg p
  | through (key u d) : Through cfg p key u d → Phase toKey cfg p

/-! ### Both are through -/

theorem inbox_unkeyed : ∀ ms : List Bytes, inbox (none : Option (Encrypt S)) ms = ms
  | [] => rfl
  | m :: ms => by
    rw [inbox, show advance (none : Option (Encrypt S)) = none from rfl, inbox_unkeyed ms]
    rfl

variable {key : Option Bytes} {u d : List Bytes} {first pk : Bytes} {e : String}

section

variable (h : Through cfg p key u d)

include h

theorem Through.clientSay (m : Bytes) : Through cfg (p.clientSay m) key (u ++ [m]) d := by
  simp only [Pair.clientSay, h.client]
  refine ⟨rfl, h.server, ?_, ?_, ?_, ?_, ?_, h.clientRead⟩
  · rw [inbox_concat m h.upSynced, ← h.up]
  · rw [inbox_sendRaw, ← h.down]
  · rw [List.length_append]
    exact synced_sendRaw h.upSynced m
  · exact synced_of_sent h.downSynced m
  · rw [← List.append_assoc, h.serverRead, List.append_assoc]

theorem Through.serverSay (m : Bytes) : Through cfg (p.serverSay m) key u (d ++ [m]) := by
  simp only [Pair.serverSay, h.server]
  refine ⟨h.client, rfl, ?_, ?_, ?_, ?_, h.serverRead, fun hc => ?_⟩
  · rw [inbox_sendRaw, ← h.up]
  · rw [inbox_concat m h.downSynced, ← h.down]
  · exact synced_of_sent h.upSynced m
  · rw [List.length_append]
    exact synced_sendRaw h.downSynced m
  · rw [← List.append_assoc, h.clientRead hc, List.append_assoc]

theorem Through.clientNext : ∃ d', Through cfg p.clientNext key u d' := by
  cases d with
  | nil =>
    refine ⟨[], ?_⟩
    have hd : p.down = [] := h.down
    simpa only [Pair.clientNext, h.client, hd] using h
  | cons m d =>
    refine ⟨d, ?_⟩
    have hd : p.down = boxed p.client.stream.encrypt m :: inbox (advance p.client.stream.encrypt) d :=
      h.down
    simp only [Pair.clientNext, h.client, hd, decrypt_boxed]
    refine ⟨rfl, h.server, h.up, rfl, synced_of_received h.upSynced, h.downSynced.advance,
      h.serverRead, fun hc => ?_⟩
    rw [List.append_assoc]
    exact h.clientRead hc

theorem Through.serverNext : ∃ u', Through cfg p.serverNext key u' d := by
  cases u with
  | nil =>
    refine ⟨[], ?_⟩
    have hu : p.up = [] := h.up
    simpa only [Pair.serverNext, h.server, hu] using h
  | cons m u =>
    refine ⟨u, ?_⟩
    have hu : p.up = boxed p.server.stream.encrypt m :: inbox (advance p.server.stream.encrypt) u :=
      h.up
    simp only [Pair.serverNext, h.server, hu, decrypt_boxed]
    refine ⟨h.client, rfl, rfl, h.down, h.upSynced.advance, synced_of_received h.downSynced, ?_,
      h.clientRead⟩
    rw [List.append_assoc]
    exact h.serverRead

theorem Through.step (t : Turn) : Phase toKey cfg (p.step toKey cfg t) := by
  cases t with
  | clientReads | serverReads | clientTimeout | serverTimeout =>
    simp only [Pair.step, Pair.clientReads, Pair.serverReads, Pair.clientTimeout, Pair.serverTimeout,
      h.client, h.server]
    exact .through _ _ _ h
  | clientSay => exact .through _ _ _ (h.clientSay _)
  | serverSay => exact .through _ _ _ (h.serverSay _)
  | clientNext =>
    obtain ⟨d', h'⟩ := h.clientNext
    exact .through _ _ _ h'
  | serverNext =>
    obtain ⟨u', h'⟩ := h.serverNext
    exact .through _ _ _ h'

end

/-! ### One is through -/

section

variable (h : ServerWaits toKey cfg p key first d)

include h

/-- The server reads the answer of the client and sets the key the client set. -/
theorem ServerWaits.serverReads : Through cfg (p.serverReads toKey cfg) key p.client.sent d := by
  simp only [Pair.serverReads, h.server, h.up, h.stream]
  rw [show (Stream.next (.data first) ({ kind := cfg.kind } : Stream S)) =
    ({ kind := cfg.kind }, .ok first) from rfl]
  simp only [toReceived, h.answer]
  refine ⟨h.client, rfl, rfl, h.down, h.upSynced, h.downSynced, ?_, fun _ => ?_⟩
  · rw [h.read, leftUp, if_pos h.offers]
  · rw [h.clientRead, h.sent, List.append_nil]

theorem ServerWaits.clientSay (m : Bytes) : ServerWaits toKey cfg (p.clientSay m) key first d := by
  simp only [Pair.clientSay, h.client]
  refine { h with client := rfl, up := ?_, down := ?_, upSynced := ?_, downSynced := ?_ }
  · rw [inbox_concat m h.upSynced, h.up]
    rfl
  · rw [inbox_sendRaw, ← h.down]
  · rw [List.length_append]
    exact synced_sendRaw h.upSynced m
  · exact synced_of_sent h.downSynced m

theorem ServerWaits.clientNext : ∃ d', ServerWaits toKey cfg p.clientNext key first d' := by
  cases d with
  | nil =>
    refine ⟨[], ?_⟩
    have hd : p.down = [] := h.down
    simpa only [Pair.clientNext, h.client, hd] using h
  | cons m d =>
    refine ⟨d, ?_⟩
    have hd : p.down = boxed p.client.stream.encrypt m :: inbox (advance p.client.stream.encrypt) d :=
      h.down
    simp only [Pair.clientNext, h.client, hd, decrypt_boxed]
    refine ⟨h.offers, rfl, h.server, h.stream, h.sent, h.read, h.answer, h.up, rfl,
      synced_of_received h.upSynced, h.downSynced.advance, ?_⟩
    rw [List.append_assoc]
    exact h.clientRead

theorem ServerWaits.step (t : Turn) : Phase toKey cfg (p.step toKey cfg t) := by
  cases t with
  | clientReads | clientTimeout | serverSay | serverNext =>
    simp only [Pair.step, Pair.clientReads, Pair.clientTimeout, Pair.serverSay, Pair.serverNext,
      h.client, h.server]
    exact .serverWaits _ _ _ h
  | serverReads => exact .through _ _ _ h.serverReads
  | serverTimeout =>
    simp only [Pair.step, Pair.serverTimeout, h.server]
    exact .serverFailed _ rfl
  | clientSay => exact .serverWaits _ _ _ (h.clientSay _)
  | clientNext =>
    obtain ⟨d', h'⟩ := h.clientNext
    exact .serverWaits _ _ _ h'

end

/-- The client takes the first message of the server's application for an answer to
its handshake, and falls back. -/
theorem ClientWaits.clientReads (hC : C.Lawful) (h : ClientWaits cfg p pk) :
    Phase toKey cfg (p.clientReads toKey cfg) := by
  cases hd : p.down with
  | nil =>
    simp only [Pair.clientReads, h.client, hd]
    exact .clientWaits pk h
  | cons m down =>
    obtain ⟨body, rfl⟩ := h.down m (by rw [hd]; exact List.mem_cons_self)
    have hn : p.client.stream.next (.data (C.write (.other body))) =
        (p.client.stream, .ok (C.write (.other body))) := by
      simp only [Stream.next, Stream.decrypt, h.stream]
    have ho : C.onSignedId cfg.peerId pk cfg.clientSk cfg.symKey
        (.ok (C.write (.other body))) true = Suite.fallBack .empty true := by
      simp only [Suite.onSignedId, hC.parse_write]
    simp only [Pair.clientReads, h.client, hd, hn, toReceived, ho]
    have he : (setKeyOf toKey none p.client.stream).encrypt = none := h.stream
    refine .through none [C.write .empty] down ⟨rfl, h.server, ?_, ?_, ?_, ?_, ?_, ?_⟩
    · rw [h.serverStream, h.up]
      rfl
    · show down = inbox (setKeyOf toKey none p.client.stream).encrypt down
      rw [he, inbox_unkeyed]
    · show Synced (setKeyOf toKey none p.client.stream).encrypt p.server.stream.encrypt _
      rw [he, h.serverStream]
      trivial
    · show Synced p.server.stream.encrypt (setKeyOf toKey none p.client.stream).encrypt _
      rw [he, h.serverStream]
      trivial
    · rw [h.read, h.sent, leftUp, h.offers]
      rfl
    · rw [h.offers, h.expects]
      rintro (hf | hf) <;> cases hf

theorem ClientWaits.step (hC : C.Lawful) (h : ClientWaits cfg p pk) (t : Turn) :
    Phase toKey cfg (p.step toKey cfg t) := by
  cases t with
  | clientReads => exact h.clientReads hC
  | clientTimeout =>
    simp only [Pair.step, Pair.clientTimeout, h.client]
    exact .clientFailed _ rfl
  | serverReads | serverTimeout | clientSay | clientNext | serverNext =>
    simp only [Pair.step, Pair.serverReads, Pair.serverTimeout, Pair.clientSay, Pair.clientNext,
      Pair.serverNext, h.client, h.server, h.up]
    exact .clientWaits pk h
  | serverSay body =>
    simp only [Pair.step, Pair.serverSay, h.server, Stream.sendRaw, h.serverStream]
    refine .clientWaits pk { h with server := rfl, down := fun m hm => ?_ }
    rcases List.mem_append.mp hm with hm | hm
    · exact h.down m hm
    · exact ⟨body, List.mem_singleton.mp hm⟩

/-! ### Both wait -/

/-- Whatever the client makes of the message of this server, the server makes the
same of its answer. -/
theorem answer_agrees (hC : C.Lawful) (cfg : Config C) (signPk : Bytes) (sk : C.SignSk) :
    (∃ e, C.onSignedId cfg.peerId signPk cfg.clientSk cfg.symKey (.ok (C.write (.signedId
      (C.sign (C.writeIdPk cfg.id (C.boxPk cfg.serverSk)) sk)))) true = ([], .failed e)) ∨
    ∃ m key, C.onSignedId cfg.peerId signPk cfg.clientSk cfg.symKey (.ok (C.write (.signedId
      (C.sign (C.writeIdPk cfg.id (C.boxPk cfg.serverSk)) sk)))) true = ([m], .done key) ∧
      (C.onPublicKey cfg.serverSk (.ok (C.write m))).1 = .done key := by
  rcases Suite.onSignedId_cases (C := C) cfg.peerId signPk cfg.clientSk cfg.symKey (.ok (C.write
    (.signedId (C.sign (C.writeIdPk cfg.id (C.boxPk cfg.serverSk)) sk)))) true with
    ⟨e, he⟩ | ⟨m, hm, he⟩ | ⟨bytes, si, theirPkB, hb, hp, hid, he⟩
  · exact .inl ⟨e, he⟩
  · refine .inr ⟨m, none, he, ?_⟩
    rcases hm with rfl | rfl
    · simp only [Suite.onPublicKey, hC.parse_write]
    · simp [Suite.onPublicKey, hC.parse_write, hC.length_nil]
  · refine .inr ⟨_, some cfg.symKey, he, ?_⟩
    cases hb
    rw [hC.parse_write] at hp
    cases hp
    -- the text that was signed has the key the server drew
    obtain ⟨m, hv, hpk⟩ := Suite.decodeIdPk_eq_ok hid
    obtain rfl := hC.verify_text _ _ _ _ hv
    rw [hC.parseIdPk_write] at hpk
    obtain ⟨-, rfl⟩ := Prod.mk.inj (Option.some.inj hpk)
    simp [Suite.onPublicKey, hC.parse_write, hC.length_boxPk, Suite.decode, hC.open_seal,
      cfg.length_symKey]

theorem offer_of_waiting {cfg : Config C}
    (h : (C.createTcpConnection cfg.secure cfg.keyPair cfg.id cfg.serverSk true).2 = .waiting ()) :
    ∃ sk, cfg.secure = true ∧ cfg.keyPair = some sk := by
  cases hs : cfg.secure <;> cases hk : cfg.keyPair <;> rw [hs, hk] at h
  case true.some sk => exact ⟨sk, rfl, rfl⟩
  all_goals cases h

theorem createTcpConnection_of_not_offers {cfg : Config C} (h : Offers cfg = false) :
    C.createTcpConnection cfg.secure cfg.keyPair cfg.id cfg.serverSk true = ([], .done none) := by
  unfold Offers at h
  cases hs : cfg.secure <;> cases hk : cfg.keyPair <;> rw [hs, hk] at h
  case true.some sk => cases h
  all_goals rfl

theorem secureConnection_of_expects {cfg : Config C} (he : Expects cfg = some pk) :
    C.secureConnection cfg.rsPubKey cfg.peerId cfg.signedIdPk cfg.key true = ([], .waiting pk) := by
  unfold Expects at he
  rw [Suite.secureConnection, he]

theorem secureConnection_of_not_expects {cfg : Config C} (he : Expects cfg = none) :
    C.secureConnection cfg.rsPubKey cfg.peerId cfg.signedIdPk cfg.key true =
      ([.empty], .done none) := by
  unfold Expects at he
  rw [Suite.secureConnection, he]
  rfl

theorem start_up {cfg : Config C} (he : Expects cfg = some pk) : (start cfg : Pair S).up = [] := by
  simp [start, secureConnection_of_expects he]

theorem synced_fresh (kind : Kind) (key : Option Bytes) :
    Synced (freshEnc toKey kind key) (freshEnc toKey kind key) 0 := by
  cases hk : freshEnc toKey kind key with
  | none => trivial
  | some =>
    refine ⟨rfl, ?_⟩
    cases key with
    | none => cases hk
    | some =>
      simp only [freshEnc, setKeyOf, Stream.setKey] at hk
      split_ifs at hk
      cases hk
      rfl

section

variable (hC : C.Lawful) (he : Expects cfg = some pk)
  (hc : (start cfg : Pair S).client.stage = .waiting pk)
  (hv : (start cfg : Pair S).server.stage = .waiting ())

include hC he hc hv

theorem bothWait_clientReads : Phase toKey cfg ((start cfg : Pair S).clientReads toKey cfg) := by
  obtain ⟨sk, hs, hk⟩ := offer_of_waiting hv
  have hd : (start cfg : Pair S).down =
      [C.write (.signedId (C.sign (C.writeIdPk cfg.id (C.boxPk cfg.serverSk)) sk))] := by
    simp [start, hs, hk, Suite.createTcpConnection]
  have hu : (start cfg : Pair S).up = [] := start_up he
  have hn : ∀ f, (start cfg : Pair S).client.stream.next (.data f) =
      ((start cfg : Pair S).client.stream, .ok f) := fun _ => rfl
  simp only [Pair.clientReads, hc, hd, hn, toReceived, hu]
  rcases answer_agrees hC cfg pk sk with ⟨e, ho⟩ | ⟨m, key, ho, ha⟩
  · rw [ho]
    exact .clientFailed e rfl
  · rw [ho]
    have hoff : Offers cfg = true := by simp [Offers, hs, hk]
    refine .serverWaits key (C.write m) [] ⟨hoff, rfl, hv, rfl, rfl, rfl, ha, rfl, rfl, ?_, ?_, ?_⟩
    · exact synced_fresh cfg.kind key
    · exact synced_fresh cfg.kind key
    · rw [leftDown, he]
      rfl

theorem bothWait_step (t : Turn) : Phase toKey cfg ((start cfg : Pair S).step toKey cfg t) := by
  have hu : (start cfg : Pair S).up = [] := start_up he
  cases t with
  | clientReads => exact bothWait_clientReads hC he hc hv
  | serverReads | clientSay | serverSay | clientNext | serverNext =>
    simp only [Pair.step, Pair.serverReads, Pair.clientSay, Pair.serverSay, Pair.clientNext,
      Pair.serverNext, hc, hv, hu]
    exact .bothWait pk rfl he hc hv
  | clientTimeout =>
    simp only [Pair.step, Pair.clientTimeout, hc]
    exact .clientFailed _ rfl
  | serverTimeout =>
    simp only [Pair.step, Pair.serverTimeout, hv]
    exact .serverFailed _ rfl

end

/-! ### Whole runs -/

theorem clientFailed_step (h : p.client.stage = .failed e) (t : Turn) :
    (p.step toKey cfg t).client.stage = .failed e := by
  cases t with
  | clientReads | clientTimeout | clientSay | clientNext =>
    simp only [Pair.step, Pair.clientReads, Pair.clientTimeout, Pair.clientSay, Pair.clientNext, h]
  | serverReads | serverTimeout | serverSay =>
    dsimp only [Pair.step, Pair.serverReads, Pair.serverTimeout, Pair.serverSay]
    split <;> exact h
  | serverNext =>
    dsimp only [Pair.step, Pair.serverNext]
    repeat' split
    all_goals exact h

theorem serverFailed_step (h : p.server.stage = .failed e) (t : Turn) :
    (p.step toKey cfg t).server.stage = .failed e := by
  cases t with
  | serverReads | serverTimeout | serverSay | serverNext =>
    simp only [Pair.step, Pair.serverReads, Pair.serverTimeout, Pair.serverSay, Pair.serverNext, h]
  | clientReads | clientTimeout | clientSay =>
    dsimp only [Pair.step, Pair.clientReads, Pair.clientTimeout, Pair.clientSay]
    split <;> exact h
  | clientNext =>
    dsimp only [Pair.step, Pair.clientNext]
    repeat' split
    all_goals exact h

theorem Phase.step (hC : C.Lawful) (h : Phase toKey cfg p) (t : Turn) :
    Phase toKey cfg (p.step toKey cfg t) := by
  cases h with
  | clientFailed e h => exact .clientFailed e (clientFailed_step h t)
  | serverFailed e h => exact .serverFailed e (serverFailed_step h t)
  | bothWait pk h he hc hv =>
    subst h
    exact bothWait_step hC he hc hv t
  | serverWaits _ _ _ h | through _ _ _ h => exact h.step t
  | clientWaits pk h => exact h.step hC t

theorem phase_start (hC : C.Lawful) (toKey : Bytes → S.Key) (cfg : Config C) :
    Phase toKey cfg (start cfg : Pair S) := by
  cases he : Expects cfg with
  | some pk =>
    have hc := secureConnection_of_expects he
    cases ho : Offers cfg with
    | true =>
      obtain ⟨hs, hk⟩ := Bool.and_eq_true_iff.mp ho
      obtain ⟨sk, hk⟩ := Option.isSome_iff_exists.mp hk
      refine .bothWait pk rfl he ?_ ?_
      · simp [start, hc]
      · simp [start, hs, hk, Suite.createTcpConnection]
    | false =>
      have hv := createTcpConnection_of_not_offers ho
      refine .clientWaits pk ⟨ho, he, ?_, ?_, rfl, rfl, rfl, rfl, ?_, ?_⟩
      · simp [start, hc]
      · simp [start, hv]
      · simp [start, hc]
      · simp [start, hv]
  | none =>
    have hc := secureConnection_of_not_expects he
    cases ho : Offers cfg with
    | true =>
      obtain ⟨hs, hk⟩ := Bool.and_eq_true_iff.mp ho
      obtain ⟨sk, hk⟩ := Option.isSome_iff_exists.mp hk
      refine .serverWaits none (C.write .empty) (leftDown cfg) ⟨ho, ?_, ?_, rfl, rfl, rfl, ?_, ?_, ?_,
        trivial, trivial, rfl⟩
      · simp [start, hc]
      · simp [start, hs, hk, Suite.createTcpConnection]
      · simp only [Suite.onPublicKey, hC.parse_write]
      · simp only [start, hc]
        rfl
      · show _ = inbox none (leftDown cfg)
        rw [inbox_unkeyed, leftDown, he]
        rfl
    | false =>
      have hv := createTcpConnection_of_not_offers ho
      refine .through none [C.write .empty] [] ⟨?_, ?_, ?_, ?_, trivial, trivial, ?_, fun _ => ?_⟩
      · simp [start, hc]
      · simp [start, hv]
      · simp only [start, hc]
        rfl
      · simp only [start, hv]
        rfl
      · rw [leftUp, ho]
        rfl
      · rw [leftDown, he, hv]
        rfl

theorem key_eq_of_synced {a b : Option (Encrypt S)} {n : ℕ} (h : Synced a b n) :
    a.map (·.key) = b.map (·.key) := by
  cases a <;> cases b <;> simp only [Synced] at h
  · rfl
  · rw [Option.map_some, Option.map_some, h.1]

/-- **Agreement.** When both ends are through, both streams have the same key or
none. The application of the server reads what that of the client sent, after the
empty message if the server made no handshake. Unless the client expects a handshake
of a server that makes none, the application of the client reads what that of the
server sent, after the `SignedId` if it expected no handshake. -/
theorem handshake_agrees (hC : C.Lawful) (toKey : Bytes → S.Key) (cfg : Config C) (ts : List Turn)
    {kc kv : Option Bytes}
    (hc : (Run.run (step toKey cfg) (start cfg) ts).client.stage = .done kc)
    (hv : (Run.run (step toKey cfg) (start cfg) ts).server.stage = .done kv) :
    kc = kv ∧ (Run.run (step toKey cfg) (start cfg) ts).client.stream.encrypt.map (·.key) =
        (Run.run (step toKey cfg) (start cfg) ts).server.stream.encrypt.map (·.key) ∧
      (Run.run (step toKey cfg) (start cfg) ts).server.read <+:
        leftUp cfg ++ (Run.run (step toKey cfg) (start cfg) ts).client.sent ∧
      (Offers cfg = true ∨ Expects cfg = none →
        (Run.run (step toKey cfg) (start cfg) ts).client.read <+:
          leftDown cfg ++ (Run.run (step toKey cfg) (start cfg) ts).server.sent) := by
  have hP : Phase toKey cfg (Run.run (step toKey cfg) (start cfg) ts) :=
    Run.inv_run (fun p t hp => hp.step hC t) (phase_start hC toKey cfg) ts
  generalize Run.run (step toKey cfg) (start cfg) ts = p at hc hv hP ⊢
  cases hP with
  | clientFailed _ h | bothWait _ _ _ h =>
    simp [h] at hc
  | serverFailed e h =>
    simp [h] at hv
  | serverWaits key first d h =>
    simp [h.server] at hv
  | clientWaits pk h =>
    simp [h.client] at hc
  | through key u d h =>
    cases h.client.symm.trans hc
    cases h.server.symm.trans hv
    refine ⟨rfl, key_eq_of_synced h.upSynced, ?_, fun ho => ?_⟩
    · rw [← h.serverRead]
      exact List.prefix_append _ _
    · rw [← h.clientRead ho]
      exact List.prefix_append _ _

def certified : Config Plain.suite where
  kind := .tcp
  secure := true
  keyPair := some (7 : UInt8)
  id := "9"
  serverSk := (5 : UInt8)
  rsPubKey := "k"
  peerId := "9"
  signedIdPk := 1 :: Plain.join (Plain.chars ['9']) (List.replicate 32 7)
  key := ""
  clientSk := (6 : UInt8)
  symKey := List.replicate 32 3
  length_symKey := rfl

/-- The client takes the offer, its application speaks before the server has read the
answer. -/
def certifiedRun : List Turn := [.clientReads, .clientSay [1], .serverReads, .serverNext]

theorem certified_agrees :
    (Run.run (step (S := Box.plain) (fun _ => ()) certified) (start certified)
      certifiedRun).client.stream.encrypt.isSome = true ∧
    (Run.run (step (S := Box.plain) (fun _ => ()) certified) (start certified)
      certifiedRun).client.stream.encrypt.map (·.key) =
    (Run.run (step (S := Box.plain) (fun _ => ()) certified) (start certified)
      certifiedRun).server.stream.encrypt.map (·.key) := by
  have hc : (Run.run (step (S := Box.plain) (fun _ => ()) certified) (start certified)
      certifiedRun).client.stage = .done (some (List.replicate 32 3)) := by decide +kernel
  have hv : (Run.run (step (S := Box.plain) (fun _ => ()) certified) (start certified)
      certifiedRun).server.stage = .done (some (List.replicate 32 3)) := by decide +kernel
  have hs : (Run.run (step (S := Box.plain) (fun _ => ()) certified) (start certified)
      certifiedRun).client.stream.encrypt.isSome = true := by decide +kernel
  exact ⟨hs, (handshake_agrees (S := Box.plain) Plain.suite_lawful (fun _ => ()) certified
    certifiedRun hc hv).2.1⟩

/-- The application of a server without a handshake reads the empty message of the
client's first, not the first message of the client's application; and if the client
expects a handshake there, it takes the first message of the server's application. -/
theorem leftover_is_read_first : (let cfg := { certified with secure := false, signedIdPk := [] }
     let p := Run.run (step (S := Box.plain) (fun _ => ()) cfg) (start cfg)
      [.clientSay [1], .serverNext]
     p.client.stage = .done none ∧ p.server.stage = .done none ∧
      p.server.read = [Plain.suite.write .empty] ∧
      p.client.sent = [Plain.suite.write (.other [1])]) ∧
    (let cfg := { certified with secure := false }
     let p := Run.run (step (S := Box.plain) (fun _ => ()) cfg) (start cfg)
      [.serverSay [1], .serverSay [2], .clientReads, .clientNext]
     p.client.stage = .done none ∧ p.server.stage = .done none ∧
      p.client.read = [Plain.suite.write (.other [2])] ∧
      p.server.sent = [Plain.suite.write (.other [1]), Plain.suite.write (.other [2])]) := by
  decide +kernel

end Pair
end CodeDesk.Secure
