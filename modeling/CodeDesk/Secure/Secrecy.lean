/-
# Who knows the key of a secured connection

Any number of clients and controlled sides that run the handshake over a network
in the hands of an attacker. The attacker sees every message, gives every end
whatever it can make of what it has, hands the clients the `signed_id_pk` it
likes, and may have keys of its own and those of some hosts. The cryptography is
ideal: byte strings are terms.

If the attacker has neither the signing key of the rendezvous server nor that of
a host certified for `peerId`, the key on a client's stream to `peerId` is known
to nobody but that client and a host certified for `peerId` (`key_known_only`).
The invariant is that all the attacker has is safe (`Guard.Safe`) for the guard
that keeps the one key in question.
-/
import CodeDesk.Run
import CodeDesk.Symbolic
import CodeDesk.Secure.Handshake

namespace CodeDesk.Secure

open Symbolic

/-- Whose key it is: the rendezvous server, a host, one run of a client or of a
controlled side, a key exchange of the rendezvous server, the attacker. -/
inductive Name where
  | rs
  | host (h : ℕ)
  | client (i : ℕ)
  | server (j : ℕ)
  | exchange (n : ℕ)
  | attacker (n : ℕ)
  deriving DecidableEq, Repr

abbrev T := Term Name

namespace Ideal

def length : T → ℕ
  | .data b => b.length
  | .text s => s.utf8ByteSize
  | .signPk _ => 32
  | .signSk _ => 64
  | .boxPk _ => 32
  | .boxSk _ => 32
  | .key _ => 32
  | .pair a b => length a + length b + 4
  | .tag _ t => length t + 2
  | .sign m _ => length m + 64
  | .box m _ _ => length m + 16
  | .secretBox m _ _ => length m + 16

def verify : T → T → Option T
  | .sign m n, .signPk n' => if n = n' then some m else none
  | _, _ => none

/-- Either of the two secret keys opens a box, with the public key of the other. -/
def openBox : T → T → Name → Option T
  | .box m pk n, theirPk, a =>
    if (pk = .boxPk a ∧ theirPk = .boxPk n) ∨ (n = a ∧ theirPk = pk) then some m else none
  | _, _, _ => none

def parseIdPk : T → Option (String × T)
  | .pair (.text id) pk => some (id, pk)
  | _ => none

def write : Msg T → T
  | .empty => .data []
  | .signedId id => .tag 3 id
  | .publicKey a s => .tag 4 (.pair a s)
  | .other body => .tag 0 body

def parse : T → Option (Msg T)
  | .data [] => some .empty
  | .tag 3 id => some (.signedId id)
  | .tag 4 (.pair a s) => some (.publicKey a s)
  | .tag 0 body => some (.other body)
  | _ => none

def suite (decode64 : String → Option T) : Suite T where
  SignSk := Name
  BoxSk := Name
  length := length
  nil := .data []
  decode64 := decode64
  signPk := .signPk
  boxPk := .boxPk
  sign := .sign
  verify := verify
  sealBox := .box
  openBox := openBox
  writeIdPk := fun id pk => .pair (.text id) pk
  parseIdPk := parseIdPk
  write := write
  parse := parse

theorem verify_eq_some {s pk m : T} (h : verify s pk = some m) :
    ∃ n, s = .sign m n ∧ pk = .signPk n := by
  unfold verify at h
  split at h
  · rename_i m' n n'
    split_ifs at h with hn
    cases h
    exact ⟨n, rfl, by rw [hn]⟩
  · cases h

theorem openBox_eq_some {d theirPk m : T} {a : Name} (h : openBox d theirPk a = some m) :
    ∃ pk n, d = .box m pk n ∧ ((pk = .boxPk a ∧ theirPk = .boxPk n) ∨ (n = a ∧ theirPk = pk)) := by
  unfold openBox at h
  split at h
  · rename_i m' pk n
    split_ifs at h with ho
    cases h
    exact ⟨pk, n, rfl, ho⟩
  · cases h

theorem parseIdPk_eq_some {m pk : T} {id : String} (h : parseIdPk m = some (id, pk)) :
    m = .pair (.text id) pk := by
  unfold parseIdPk at h
  split at h <;> cases h
  rfl

theorem parse_signedId {d si : T} (h : parse d = some (.signedId si)) : d = .tag 3 si := by
  unfold parse at h
  split at h <;> cases h
  rfl

theorem parse_publicKey {d a s : T} (h : parse d = some (.publicKey a s)) :
    d = .tag 4 (.pair a s) := by
  unfold parse at h
  split at h <;> cases h
  rfl

theorem decodeIdPk_eq_ok {decode64 : String → Option T} {signed key pk : T} {id : String}
    (h : (suite decode64).decodeIdPk signed key = .ok (id, pk)) :
    ∃ n, key = .signPk n ∧ signed = .sign (.pair (.text id) pk) n := by
  obtain ⟨m, hv, hp⟩ := Suite.decodeIdPk_eq_ok h
  obtain ⟨n, rfl, rfl⟩ := verify_eq_some hv
  obtain rfl := parseIdPk_eq_some hp
  exact ⟨n, rfl, rfl⟩

end Ideal

/-! ### The system -/

structure ClientRun where
  peerId : String
  signedIdPk : T
  key : String
  stage : Suite.Stage T T

structure ServerRun where
  host : ℕ
  id : String
  stage : Suite.Stage Unit T

structure System where
  clients : List ClientRun := []
  servers : List ServerRun := []
  certs : List (String × T) := []
  sent : List T := []

inductive Action where
  | connect (peerId : String) (signedIdPk : T) (key : String) (sends : Bool)
  | accept (host : ℕ) (id : String) (secure hasKeyPair sends : Bool)
  | toClient (i : ℕ) (r : Received T) (sends : Bool)
  | toServer (j : ℕ) (r : Received T)
  /-- The rendezvous server certifies a key it was told for an id. -/
  | certify (id : String) (pk : T)
  /-- The rendezvous server signs a key of its own for `secure_tcp`. -/
  | exchange (n : ℕ)
  /-- A message of the application on the stream of a client or a controlled side,
  with its number. -/
  | clientSay (i : ℕ) (body : List UInt8) (c : ℕ)
  | serverSay (j : ℕ) (body : List UInt8) (c : ℕ)

/-- What a stream with this key hands to the network. -/
def onStream (key : Option T) (c : ℕ) (m : T) : T :=
  match key with
  | some k => .secretBox m k c
  | none => m

namespace System

variable (decode64 : String → Option T) (rsPubKey : String)

def step (s : System) : Action → System
  | .connect peerId signedIdPk key sends =>
    let r := (Ideal.suite decode64).secureConnection rsPubKey peerId signedIdPk key sends
    { s with
      clients := s.clients ++ [⟨peerId, signedIdPk, key, r.2⟩]
      sent := s.sent ++ r.1.map Ideal.write }
  | .accept host id secure hasKeyPair sends =>
    let keyPair : Option Name := if hasKeyPair then some (Name.host host) else none
    let r := (Ideal.suite decode64).createTcpConnection secure keyPair id
      (Name.server s.servers.length) sends
    { s with
      servers := s.servers ++ [⟨host, id, r.2⟩]
      sent := s.sent ++ r.1.map Ideal.write }
  | .toClient i r sends =>
    match s.clients[i]? with
    | some c =>
      match c.stage with
      | .waiting signPk =>
        let r := (Ideal.suite decode64).onSignedId c.peerId signPk (Name.client i)
          (.key (Name.client i)) r sends
        { s with
          clients := s.clients.set i { c with stage := r.2 }
          sent := s.sent ++ r.1.map Ideal.write }
      | _ => s
    | none => s
  | .toServer j r =>
    match s.servers[j]? with
    | some v =>
      match v.stage with
      | .waiting _ =>
        let r := (Ideal.suite decode64).onPublicKey (Name.server j) r
        { s with servers := s.servers.set j { v with stage := r.1 } }
      | _ => s
    | none => s
  | .certify id pk =>
    { s with certs := s.certs ++ [(id, pk)], sent := s.sent ++ [.sign (.pair (.text id) pk) .rs] }
  | .exchange n => { s with sent := s.sent ++ [.sign (.boxPk (.exchange n)) .rs] }
  | .clientSay i body c =>
    match s.clients[i]? with
    | some v => { s with sent := s.sent ++ [onStream v.stage.key c (.tag 0 (.data body))] }
    | none => s
  | .serverSay j body c =>
    match s.servers[j]? with
    | some v => { s with sent := s.sent ++ [onStream v.stage.key c (.tag 0 (.data body))] }
    | none => s

variable (held : ℕ → Prop)

/-- What the attacker has from the start: its own keys, those of the hosts in
`held`, and every public signing key. -/
def initial : Set T :=
  {t | (∃ n, t = .signSk (.attacker n) ∨ t = .boxSk (.attacker n) ∨ t = .key (.attacker n)) ∨
    (∃ h, held h ∧ t = .signSk (.host h)) ∨ ∃ n, t = .signPk n}

def known (s : System) : Set T := initial held ∪ {t | t ∈ s.sent}

/-- The attacker gives only what it can make, the rendezvous server certifies what
the attacker can make too, and for `peerId` only keys of hosts it does not have. -/
def Admissible (peerId : String) (s : System) : Action → Prop
  | .connect _ signedIdPk _ _ => Derives (s.known held) signedIdPk
  | .toClient _ (.ok bytes) _ => Derives (s.known held) bytes
  | .toServer _ (.ok bytes) => Derives (s.known held) bytes
  | .certify id pk => Derives (s.known held) pk ∧
      (id = peerId → ∃ h, ¬ held h ∧ pk = .signPk (.host h))
  | _ => True

/-! ### What is kept -/

variable {decode64 rsPubKey held} {peerId : String} {i : ℕ} {s s' : System}

/-- All secrets of the rendezvous server, of the hosts the attacker does not have
and of the runs are kept, and the key of the run `i` of a client. -/
def guard (held : ℕ → Prop) (peerId : String) (i : ℕ) (s : System) : Guard Name where
  signKept := fun n => n = .rs ∨ ∃ h, ¬ held h ∧ n = .host h
  boxKept := fun n => (∃ i, n = .client i) ∨ ∃ j, n = .server j
  keyKept := fun n => n = .client i
  Signed := fun n m =>
    match n with
    | .rs => (∃ c ∈ s.certs, m = .pair (.text c.1) c.2) ∨ ∃ k, m = .boxPk (.exchange k)
    | .host h => ∃ j v, s.servers[j]? = some v ∧ v.host = h ∧
        m = .pair (.text v.id) (.boxPk (.server j))
    | _ => True
  Sealed := fun n pk m => n = .client i ∧ m = .key (.client i) ∧ ∃ j v, pk = .boxPk (.server j) ∧
    s.servers[j]? = some v ∧ (peerId, .signPk (.host v.host)) ∈ s.certs
  sealed_kept := by
    rintro n pk m ⟨rfl, -, j, v, rfl, -⟩
    refine ⟨.inl ⟨i, rfl⟩, fun a ha => .inr ⟨j, ?_⟩⟩
    cases ha
    rfl

/-- Certificates stay, and so do the host and the id of a run. -/
structure Grows (s s' : System) : Prop where
  certs : s.certs ⊆ s'.certs
  servers : ∀ (j : ℕ) (v : ServerRun), s.servers[j]? = some v →
    ∃ v', s'.servers[j]? = some v' ∧ v'.host = v.host ∧ v'.id = v.id

theorem Grows.of_eq (hc : s'.certs = s.certs) (hs : s'.servers = s.servers) : Grows s s' :=
  ⟨by rw [hc]; exact List.Subset.refl _, fun _ v hv => ⟨v, hs ▸ hv, rfl, rfl⟩⟩

variable {t pk : T} {α : Type} {k i' : ℕ} {c : ClientRun} {id : String} {r : Received T}

theorem Grows.safe (hg : Grows s s') (ht : (guard held peerId i s).Safe t) :
    (guard held peerId i s').Safe t := by
  refine Guard.Safe.mono (G := guard held peerId i s) rfl rfl rfl ?_ ?_ ht
  · intro n m hm
    cases n with
    | rs =>
      rcases hm with ⟨c, hc, rfl⟩ | hk
      · exact .inl ⟨c, hg.certs hc, rfl⟩
      · exact .inr hk
    | host =>
      obtain ⟨j, v, hv, rfl, rfl⟩ := hm
      obtain ⟨v', hv', hh, hid⟩ := hg.servers j v hv
      exact ⟨j, v', hv', hh, by rw [hid]⟩
    | _ => trivial
  · rintro n pk m ⟨hn, hm, j, v, hpk, hv, hc⟩
    obtain ⟨v', hv', hh, -⟩ := hg.servers j v hv
    exact ⟨hn, hm, j, v', hpk, hv', hh ▸ hg.certs hc⟩

theorem safe_append {new : List T} (hg : Grows s s') (hs : s'.sent = s.sent ++ new)
    (h : ∀ t ∈ s.known held, (guard held peerId i s).Safe t)
    (hn : ∀ t ∈ new, (guard held peerId i s').Safe t) :
    ∀ t ∈ s'.known held, (guard held peerId i s').Safe t := by
  rintro t (ht | ht)
  · exact hg.safe (h t (.inl ht))
  · rw [Set.mem_ofPred_eq, hs, List.mem_append] at ht
    rcases ht with ht | ht
    · exact hg.safe (h t (.inr ht))
    · exact hn t ht

theorem safe_initial : ∀ t ∈ initial held, (guard held peerId i s).Safe t := by
  rintro t (⟨n, rfl | rfl | rfl⟩ | ⟨h, hh, rfl⟩ | ⟨n, rfl⟩)
  · rintro (hn | ⟨h, -, hn⟩) <;> cases hn
  · rintro (⟨i, hn⟩ | ⟨j, hn⟩) <;> cases hn
  · rintro hn
    cases hn
  · rintro (hn | ⟨h', hh', hn⟩)
    · cases hn
    · cases hn
      exact hh' hh
  · trivial

/-! ### The invariant -/

/-- A run of a client that asks the honest rendezvous server for `peerId`. -/
def Target (decode64 : String → Option T) (rsPubKey peerId : String) (c : ClientRun) : Prop :=
  c.peerId = peerId ∧
    (Ideal.suite decode64).getRsPk (if c.key = "" then rsPubKey else c.key) = some (.signPk .rs)

structure Secret (held : ℕ → Prop) (peerId : String) (i : ℕ) (s : System) : Prop where
  safe : ∀ t ∈ s.known held, (guard held peerId i s).Safe t
  certs : ∀ pk, (peerId, pk) ∈ s.certs → ∃ h, ¬ held h ∧ pk = .signPk (.host h)
  waiting : ∀ (c : ClientRun) (pk : T), s.clients[i]? = some c → c.stage = .waiting pk →
    (peerId, pk) ∈ s.certs
  keys : ∀ (i' : ℕ) (c : ClientRun) (k : T), s.clients[i']? = some c → c.stage.key = some k →
    k = .key (.client i')
  holders : ∀ (j : ℕ) (v : ServerRun), s.servers[j]? = some v →
    v.stage.key = some (.key (.client i)) → (peerId, .signPk (.host v.host)) ∈ s.certs

theorem eq_of_getElem?_concat {l : List α} {x y : α}
    (h : (l ++ [x])[k]? = some y) : l[k]? = some y ∨ (k = l.length ∧ y = x) := by
  rw [List.getElem?_append] at h
  split at h
  · exact .inl h
  · rw [List.getElem?_singleton] at h
    split_ifs at h
    exact .inr ⟨by omega, (Option.some.inj h).symm⟩

theorem eq_of_getElem?_set {l : List α} {x y z : α} {n : ℕ} (hz : l[n]? = some z)
    (h : (l.set n x)[k]? = some y) : (k = n ∧ y = x) ∨ (k ≠ n ∧ l[k]? = some y) := by
  by_cases hk : n = k
  · subst hk
    rw [List.getElem?_set_self (List.getElem?_eq_some_iff.mp hz).1] at h
    cases h
    exact .inl ⟨rfl, rfl⟩
  · rw [List.getElem?_set_ne hk] at h
    exact .inr ⟨Ne.symm hk, h⟩

theorem client_step (decode64 : String → Option T) (rsPubKey : String) (a : Action)
    (hc : s.clients[i]? = some c) :
    ∃ c', (s.step decode64 rsPubKey a).clients[i]? = some c' ∧ c'.peerId = c.peerId ∧
      c'.key = c.key := by
  have hi : i < s.clients.length := (List.getElem?_eq_some_iff.mp hc).1
  cases a with
  | connect =>
    exact ⟨c, by simp [step, List.getElem?_append_left hi, hc], rfl, rfl⟩
  | accept | certify | exchange => exact ⟨c, hc, rfl, rfl⟩
  | toClient i' r sends =>
    unfold step
    dsimp only
    split
    · rename_i c' hc'
      split
      · by_cases h : i' = i
        · subst h
          obtain rfl : c' = c := Option.some.inj (hc'.symm.trans hc)
          exact ⟨_, List.getElem?_set_self hi, rfl, rfl⟩
        · exact ⟨c, (List.getElem?_set_ne h).trans hc, rfl, rfl⟩
      · exact ⟨c, hc, rfl, rfl⟩
    · exact ⟨c, hc, rfl, rfl⟩
  | toServer =>
    unfold step
    dsimp only
    split
    · split <;> exact ⟨c, hc, rfl, rfl⟩
    · exact ⟨c, hc, rfl, rfl⟩
  | clientSay | serverSay =>
    unfold step
    dsimp only
    split <;> exact ⟨c, hc, rfl, rfl⟩

theorem Secret.certified (h : Secret held peerId i s)
    (hd : Derives (s.known held) c.signedIdPk) (ht : Target decode64 rsPubKey peerId c)
    (hpk : (Ideal.suite decode64).certifiedPk rsPubKey c.peerId c.signedIdPk c.key = some pk) :
    (peerId, pk) ∈ s.certs := by
  obtain ⟨rsPk, hr, hid⟩ := Suite.certifiedPk_eq_some hpk
  obtain rfl : rsPk = .signPk .rs := Option.some.inj (hr.symm.trans ht.2)
  obtain ⟨n, hn, hsig⟩ := Ideal.decodeIdPk_eq_ok hid
  cases hn
  rw [hsig] at hd
  rcases Guard.signed_of_derives h.safe (.inl rfl) hd with ⟨⟨id, pk'⟩, hc', he⟩ | ⟨k, hk⟩
  · cases he
    rwa [← ht.1]
  · cases hk

theorem Secret.offered (h : Secret held peerId i s) {si theirPkB : T}
    (hpk : (peerId, pk) ∈ s.certs) (hd : Derives (s.known held) (.tag 3 si))
    (hid : (Ideal.suite decode64).decodeIdPk si pk = .ok (peerId, theirPkB)) :
    ∃ j v, theirPkB = .boxPk (.server j) ∧ s.servers[j]? = some v ∧
      (peerId, .signPk (.host v.host)) ∈ s.certs := by
  obtain ⟨host, hh, rfl⟩ := h.certs pk hpk
  obtain ⟨n, hn, rfl⟩ := Ideal.decodeIdPk_eq_ok hid
  cases hn
  obtain ⟨j, v, hv, rfl, hm⟩ := Guard.signed_of_derives h.safe (.inr ⟨host, hh, rfl⟩) hd.untag
  cases hm
  exact ⟨j, v, rfl, hv, hpk⟩

/-! ### Every action keeps it -/

theorem Secret.connect (h : Secret held peerId i s) (id : String) (signedIdPk : T) (key : String)
    (sends : Bool) (hd : Derives (s.known held) signedIdPk)
    (ht : ∀ c, (s.step decode64 rsPubKey (.connect id signedIdPk key sends)).clients[i]? = some c →
      Target decode64 rsPubKey peerId c) :
    Secret held peerId i (s.step decode64 rsPubKey (.connect id signedIdPk key sends)) := by
  have hnew : ∀ m ∈ ((Ideal.suite decode64).secureConnection rsPubKey id signedIdPk key sends).1,
      m = .empty := by
    unfold Suite.secureConnection
    split <;> simp [Suite.fallBack]
  have hkey : ((Ideal.suite decode64).secureConnection rsPubKey id signedIdPk key sends).2.key =
      none := by
    unfold Suite.secureConnection
    split <;> cases sends <;> rfl
  refine ⟨safe_append (Grows.of_eq (s := s) rfl rfl) rfl h.safe ?_, h.certs, ?_, ?_, h.holders⟩
  · intro t hm
    obtain ⟨m, hmm, rfl⟩ := List.mem_map.mp hm
    rw [hnew m hmm]
    trivial
  · intro c pk hc hs
    have htc := ht c hc
    rcases eq_of_getElem?_concat hc with hc | ⟨-, rfl⟩
    · exact h.waiting c pk hc hs
    refine h.certified hd htc ?_
    -- the run waits, so there is a certified key
    unfold Suite.secureConnection at hs
    split at hs
    · cases sends <;> cases hs
    · rename_i hpk
      cases hs
      exact hpk
  · intro i' c k hc hk
    rcases eq_of_getElem?_concat hc with hc | ⟨-, rfl⟩
    · exact h.keys i' c k hc hk
    · simp [show Suite.Stage.key _ = none from hkey] at hk

theorem createTcpConnection_sent {secure sends : Bool} {keyPair : Option Name}
    {sk : Name} {m : Msg T}
    (hm : m ∈ ((Ideal.suite decode64).createTcpConnection secure keyPair id sk sends).1) :
    ∃ n, keyPair = some n ∧ m = .signedId (.sign (.pair (.text id) (.boxPk sk)) n) := by
  cases secure with
  | false => simp [Suite.createTcpConnection] at hm
  | true =>
    cases keyPair with
    | none => simp [Suite.createTcpConnection] at hm
    | some n => exact ⟨n, rfl, List.mem_singleton.mp hm⟩

section

variable (h : Secret held peerId i s)

include h

theorem Secret.accept (host : ℕ) (id : String) (secure hasKeyPair sends : Bool) :
    Secret held peerId i (s.step decode64 rsPubKey (.accept host id secure hasKeyPair sends)) := by
  have hg : Grows s (s.step decode64 rsPubKey (.accept host id secure hasKeyPair sends)) := by
    refine ⟨List.Subset.refl _, fun j v hv => ⟨v, ?_, rfl, rfl⟩⟩
    have hj : j < s.servers.length := (List.getElem?_eq_some_iff.mp hv).1
    simp [step, List.getElem?_append_left hj, hv]
  refine ⟨safe_append hg rfl h.safe ?_, h.certs, h.waiting, h.keys, ?_⟩
  · intro t hm
    obtain ⟨m, hmm, rfl⟩ := List.mem_map.mp hm
    obtain ⟨n, hn, rfl⟩ := createTcpConnection_sent hmm
    obtain rfl : n = .host host := by
      cases hasKeyPair <;> cases hn
      rfl
    exact ⟨⟨trivial, trivial⟩, fun _ =>
      ⟨s.servers.length, ⟨host, id, _⟩, List.getElem?_concat_length, rfl, rfl⟩⟩
  · intro j v hv hk
    rcases eq_of_getElem?_concat hv with hv | ⟨-, rfl⟩
    · exact h.holders j v hv hk
    · cases secure <;> cases hasKeyPair <;> cases sends <;> cases hk

/-- A client run ends its wait: the key it may have is its own, and what it
sends is safe. -/
theorem Secret.clientDone (hc : s.clients[i']? = some c) {st : Suite.Stage T T} {ms : List (Msg T)}
    (hst : ∀ pk, st ≠ .waiting pk) (hk : ∀ k, st.key = some k → k = .key (.client i'))
    (hm : ∀ m ∈ ms, (guard held peerId i s).Safe (Ideal.write m)) :
    Secret held peerId i { s with
      clients := s.clients.set i' { c with stage := st }, sent := s.sent ++ ms.map Ideal.write } := by
  have hg : Grows s { s with
      clients := s.clients.set i' { c with stage := st }, sent := s.sent ++ ms.map Ideal.write } :=
    Grows.of_eq rfl rfl
  refine ⟨safe_append hg rfl h.safe ?_, h.certs, ?_, ?_, h.holders⟩
  · intro t ht
    obtain ⟨m, hmm, rfl⟩ := List.mem_map.mp ht
    exact hg.safe (hm m hmm)
  · intro c' pk hc' hs
    rcases eq_of_getElem?_set hc hc' with ⟨-, rfl⟩ | ⟨-, hc'⟩
    · exact absurd hs (hst pk)
    · exact h.waiting c' pk hc' hs
  · intro i'' c' k hc' hs
    rcases eq_of_getElem?_set hc hc' with ⟨rfl, rfl⟩ | ⟨-, hc'⟩
    · exact hk k hs
    · exact h.keys i'' c' k hc' hs

theorem Secret.toClient {signPk : T} (sends : Bool) (hc : s.clients[i']? = some c)
    (hw : c.stage = .waiting signPk) (hd : ∀ bytes, r = .ok bytes → Derives (s.known held) bytes)
    (ht : i' = i → c.peerId = peerId) :
    Secret held peerId i (s.step decode64 rsPubKey (.toClient i' r sends)) := by
  simp only [step, hc, hw]
  rcases Suite.onSignedId_cases (C := Ideal.suite decode64) c.peerId signPk (Name.client i')
    (.key (.client i')) r sends with
    ⟨e, he⟩ | ⟨m, hm, he⟩ | ⟨bytes, si, theirPkB, rfl, hp, hid, he⟩
  · rw [he]
    exact h.clientDone hc nofun nofun nofun
  · rw [he]
    refine h.clientDone hc ?_ ?_ ?_
    · cases sends <;> nofun
    · cases sends <;> nofun
    intro m' hmm
    obtain rfl := List.mem_singleton.mp hmm
    rcases hm with rfl | rfl
    · trivial
    · exact ⟨trivial, trivial⟩
  · rw [he]
    have hsi : bytes = .tag 3 si := Ideal.parse_signedId hp
    have hd : Derives (s.known held) (.tag 3 si) := hsi ▸ hd bytes rfl
    refine h.clientDone hc ?_ ?_ ?_
    · cases sends <;> nofun
    · cases sends with
      | false => nofun
      | true =>
        intro k hk
        cases hk
        rfl
    · intro m hmm
      obtain rfl := List.mem_singleton.mp hmm
      refine ⟨trivial, ?_⟩
      by_cases hi : i' = i
      · -- the target seals to the key of a run of a certified host
        subst hi
        rw [ht rfl] at hid
        obtain ⟨j, v, rfl, hv, hcert⟩ := h.offered (h.waiting c signPk hc hw) hd hid
        exact ⟨trivial, .inr ⟨rfl, rfl, j, v, rfl, hv, hcert⟩⟩
      · obtain ⟨n, -, rfl⟩ := Ideal.decodeIdPk_eq_ok hid
        have hpk := Guard.safe_derives h.safe hd.untag.signed.snd
        refine ⟨hpk, .inl fun hk => hi ?_⟩
        cases hk
        rfl

theorem Secret.toServer {j : ℕ} {v : ServerRun} (hv : s.servers[j]? = some v)
    (hw : v.stage = .waiting ()) (hd : ∀ bytes, r = .ok bytes → Derives (s.known held) bytes) :
    Secret held peerId i (s.step decode64 rsPubKey (.toServer j r)) := by
  have hg : Grows s (s.step decode64 rsPubKey (.toServer j r)) := by
    simp only [step, hv, hw]
    refine ⟨List.Subset.refl _, fun j' v' hv' => ?_⟩
    by_cases hj : j = j'
    · subst hj
      obtain rfl : v = v' := Option.some.inj (hv.symm.trans hv')
      exact ⟨_, List.getElem?_set_self (List.getElem?_eq_some_iff.mp hv).1, rfl, rfl⟩
    · exact ⟨v', (List.getElem?_set_ne hj).trans hv', rfl, rfl⟩
  simp only [step, hv, hw] at hg ⊢
  refine ⟨safe_append hg (List.append_nil _).symm h.safe nofun, h.certs, h.waiting, h.keys, ?_⟩
  intro j' v' hv' hk
  rcases eq_of_getElem?_set hv hv' with ⟨rfl, rfl⟩ | ⟨-, hv'⟩
  · obtain ⟨bytes, a, b, rfl, hp, ho⟩ := Suite.onPublicKey_key hk
    obtain rfl := Ideal.parse_publicKey hp
    obtain ⟨pk, n, rfl, hpk⟩ := Ideal.openBox_eq_some ho
    -- the attacker does not know the key, so the box is the one of the client
    rcases (Guard.safe_derives h.safe (hd _ rfl).untag.snd).2 with hk | ⟨rfl, -, j₀, v₀, rfl, hv₀, hc⟩
    · exact absurd rfl hk
    rcases hpk with ⟨hj, -⟩ | ⟨hn, -⟩
    · cases hj
      obtain rfl : v₀ = v := Option.some.inj (hv₀.symm.trans hv)
      exact hc
    · cases hn
  · exact h.holders j' v' hv' hk

theorem Secret.say (ht : (guard held peerId i s).Safe t) :
    Secret held peerId i { s with sent := s.sent ++ [t] } := by
  have hg : Grows s { s with sent := s.sent ++ [t] } := Grows.of_eq rfl rfl
  refine { h with safe := safe_append hg rfl h.safe ?_ }
  intro t' ht'
  rw [List.mem_singleton.mp ht']
  exact hg.safe ht

end

theorem safe_onStream (key : Option T) (c : ℕ) (body : List UInt8) :
    (guard held peerId i s).Safe (onStream key c (.tag 0 (.data body))) := by
  cases key with
  | none => trivial
  | some => exact .inl trivial

theorem Secret.certify (h : Secret held peerId i s) (hd : Derives (s.known held) pk)
    (hp : id = peerId → ∃ h, ¬ held h ∧ pk = .signPk (.host h)) :
    Secret held peerId i (s.step decode64 rsPubKey (.certify id pk)) := by
  have hg : Grows s (s.step decode64 rsPubKey (.certify id pk)) :=
    ⟨List.subset_append_left _ _, fun _ v hv => ⟨v, hv, rfl, rfl⟩⟩
  refine ⟨safe_append hg rfl h.safe ?_, ?_, ?_, h.keys, ?_⟩
  · intro t ht
    rw [List.mem_singleton.mp ht]
    refine ⟨⟨trivial, hg.safe (Guard.safe_derives h.safe hd)⟩, fun _ => .inl ⟨(id, pk), ?_, rfl⟩⟩
    simp [step]
  · intro pk' hpk'
    rcases List.mem_append.mp hpk' with hc | hc
    · exact h.certs pk' hc
    · cases List.mem_singleton.mp hc
      exact hp rfl
  · exact fun c pk' hc hs => hg.certs (h.waiting c pk' hc hs)
  · exact fun j v hv hk => hg.certs (h.holders j v hv hk)

theorem Secret.step (h : Secret held peerId i s) {a : Action} (ha : Admissible held peerId s a)
    (ht : ∀ c, (s.step decode64 rsPubKey a).clients[i]? = some c →
      Target decode64 rsPubKey peerId c) :
    Secret held peerId i (s.step decode64 rsPubKey a) := by
  cases a with
  | connect id signedIdPk key sends => exact h.connect id signedIdPk key sends ha ht
  | accept host id secure hasKeyPair sends => exact h.accept host id secure hasKeyPair sends
  | toClient i' r sends =>
    cases hc : s.clients[i']? with
    | none => simpa only [System.step, hc] using h
    | some c =>
      cases hw : c.stage with
      | waiting =>
        refine h.toClient sends hc hw ?_ ?_
        · rintro bytes rfl
          exact ha
        · rintro rfl
          obtain ⟨c', hc', hp, -⟩ := client_step decode64 rsPubKey (.toClient i' r sends) hc
          rw [← hp]
          exact (ht c' hc').1
      | done | failed => simpa only [System.step, hc, hw] using h
  | toServer j =>
    cases hv : s.servers[j]? with
    | none => simpa only [System.step, hv] using h
    | some v =>
      cases hw : v.stage with
      | waiting =>
        refine h.toServer hv hw ?_
        rintro bytes rfl
        exact ha
      | done | failed => simpa only [System.step, hv, hw] using h
  | certify => exact h.certify ha.1 ha.2
  | exchange n => exact h.say ⟨trivial, fun _ => .inr ⟨n, rfl⟩⟩
  | clientSay i' body c =>
    cases hc : s.clients[i']? with
    | none => simpa only [System.step, hc] using h
    | some =>
      simp only [System.step, hc]
      exact h.say (safe_onStream _ c body)
  | serverSay j body c =>
    cases hv : s.servers[j]? with
    | none => simpa only [System.step, hv] using h
    | some =>
      simp only [System.step, hv]
      exact h.say (safe_onStream _ c body)

theorem secret_start : Secret held peerId i {} := by
  refine ⟨?_, nofun, by simp, by simp, by simp⟩
  rintro t (ht | ht)
  · exact safe_initial t ht
  · cases ht

theorem secret_run (as : List Action)
    (hm : Run.Meets (step decode64 rsPubKey) (Admissible held peerId) {} as)
    (ht : ∀ c, (Run.run (step decode64 rsPubKey) {} as).clients[i]? = some c →
      Target decode64 rsPubKey peerId c) :
    Secret held peerId i (Run.run (step decode64 rsPubKey) {} as) := by
  -- a run that is no target at the start of a step is none at its end
  refine Run.inv_run_of_meets (I := fun s => (∀ c, s.clients[i]? = some c →
    Target decode64 rsPubKey peerId c) → Secret held peerId i s) ?_ (fun _ => secret_start) hm ht
  intro s a _ hI ha ht
  refine (hI fun c hc => ?_).step ha ht
  obtain ⟨c', hc', hp, hk⟩ := client_step decode64 rsPubKey a hc
  have := ht c' hc'
  rwa [Target, hp, hk] at this

/-- **The key of a secured connection.** Whatever the attacker does, it cannot make
the key on the stream of a client that asked the rendezvous server for `peerId`; no
other client has it, and a controlled side has it only if it runs on a host whose
signing key the rendezvous server certified for `peerId`. -/
theorem key_known_only (as : List Action)
    (hm : Run.Meets (step decode64 rsPubKey) (Admissible held peerId) {} as) {i : ℕ}
    {c : ClientRun} {k : T}
    (hc : (Run.run (step decode64 rsPubKey) {} as).clients[i]? = some c)
    (ht : Target decode64 rsPubKey peerId c) (hk : c.stage.key = some k) :
    ¬ Derives ((Run.run (step decode64 rsPubKey) {} as).known held) k ∧
      (∀ (i' : ℕ) (c' : ClientRun),
        (Run.run (step decode64 rsPubKey) {} as).clients[i']? = some c' →
          c'.stage.key = some k → i' = i) ∧
      ∀ (j : ℕ) (v : ServerRun), (Run.run (step decode64 rsPubKey) {} as).servers[j]? = some v →
        v.stage.key = some k →
          (peerId, .signPk (.host v.host)) ∈ (Run.run (step decode64 rsPubKey) {} as).certs ∧
            ¬ held v.host := by
  have hI : Secret held peerId i (Run.run (step decode64 rsPubKey) {} as) := by
    refine secret_run as hm fun c' hc' => ?_
    obtain rfl : c = c' := Option.some.inj (hc.symm.trans hc')
    exact ht
  obtain rfl := hI.keys i c k hc hk
  refine ⟨Guard.key_not_derived hI.safe rfl, fun i' c' hc' hk' => ?_, fun j v hv hk' => ?_⟩
  · cases hI.keys i' c' _ hc' hk'
    rfl
  · have hcert := hI.holders j v hv hk'
    refine ⟨hcert, ?_⟩
    obtain ⟨h, hh, he⟩ := hI.certs _ hcert
    cases he
    exact hh

def secured : List Action :=
  [.certify "9" (.signPk (.host 0)),
    .accept 0 "9" true true true,
    .connect "9" (.sign (.pair (.text "9") (.signPk (.host 0))) .rs) "k" true,
    .toClient 0 (.ok (.tag 3 (.sign (.pair (.text "9") (.boxPk (.server 0))) (.host 0)))) true,
    .toServer 0 (.ok (.tag 4 (.pair (.boxPk (.client 0))
      (.box (.key (.client 0)) (.boxPk (.server 0)) (.client 0)))))]

theorem secured_key_known_only :
    (∃ c v, (Run.run (step (fun _ => some (.signPk .rs)) "") {} secured).clients[0]? = some c ∧
      (Run.run (step (fun _ => some (.signPk .rs)) "") {} secured).servers[0]? = some v ∧
      c.stage.key = some (.key (.client 0)) ∧ v.stage.key = some (.key (.client 0))) ∧
    ¬ Derives ((Run.run (step (fun _ => some (.signPk .rs)) "") {} secured).known (· = 1))
      (.key (.client 0)) := by
  refine ⟨⟨_, _, rfl, rfl, rfl, rfl⟩, ?_⟩
  have hm : Run.Meets (step (fun _ => some (.signPk .rs)) "") (Admissible (· = 1) "9") {}
      secured := by
    refine ⟨⟨.known (.inl (.inr (.inr ⟨_, rfl⟩))), fun _ => ⟨0, by decide, rfl⟩⟩, trivial, ?_, ?_, ?_,
      trivial⟩
    · exact .known (.inr (by decide))
    · exact (Derives.known (t := .tag 3 _) (.inr (by decide)))
    · exact (Derives.known (t := .tag 4 _) (.inr (by decide)))
  exact (key_known_only secured hm (i := 0) rfl ⟨rfl, rfl⟩ rfl).1

end System
end CodeDesk.Secure
