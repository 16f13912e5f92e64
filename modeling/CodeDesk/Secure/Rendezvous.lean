/-
# The channel to the rendezvous server

`secure_tcp_impl` on a stream, and `tcp_proxy_request`, which sends an HTTP request
with its headers and body over the stream so secured. The frames that come in are
those of the network, any list.

The stream is keyed after the handshake, and the request sealed, exactly when the
first thing the network gives is a key exchange or makes the handshake fail
(`proxy_secured_iff`): every other message, and the end of the stream, is taken for
a handshake that came to its end.
-/
import CodeDesk.Net.Stream
import CodeDesk.Secure.Handshake

namespace CodeDesk.Secure

open Sealing Net

structure RendezvousCodec where
  write : Rendezvous Bytes → Bytes
  parse : Bytes → Option (Rendezvous Bytes)

/-- What a caller has drawn and been given for one connection. -/
structure Channel (C : Suite Bytes) (S : Box) where
  codec : RendezvousCodec
  toKey : Bytes → S.Key
  strKey : String
  ourSkB : C.BoxSk
  symKey : Bytes
  /-- Whether the key exchange can be sent. -/
  sends : Bool

namespace Channel

variable {C : Suite Bytes} {S : Box} (ch : Channel C S)

def await : Stream S → List Frame → Stream S × List Frame × Received Bytes
  | s, [] => (s, [], .timeout)
  | s, f :: fs =>
    match s.next f with
    | (s, .ok bytes) => (s, fs, .ok bytes)
    | (s, .err) => (s, fs, .err "read error")
    | (s, .closed) => (s, fs, .closed)
    | (s, .again) => await s fs

/-- What `secure_tcp_impl` leaves: the stream, what it handed to the transport, and
the frames not read yet. -/
structure Secured (S : Box) where
  stream : Stream S
  handed : List Bytes
  rest : List Frame

def secureTcp (useWs : Bool) (conn : Stream S) (frames : List Frame) :
    Except String (Secured S) :=
  let (s, rest, r) := await conn frames
  match C.secureTcpImpl ch.codec.parse useWs ch.strKey ch.ourSkB ch.symKey r ch.sends with
  | .error e => .error e
  | .ok (sent, key) =>
    -- over a WebSocket nothing is read
    let (s, rest) := if useWs then (conn, frames) else (s, rest)
    .ok { stream := match key with
            | some key => s.setKey (ch.toKey key)
            | none => s
          handed := sent.map ch.codec.write
          rest := rest }

structure Request where
  tcpAddr : String
  method : String
  url : String
  body : Bytes
  headers : List (String × String)
  /-- `Url::parse`: the path and the query. -/
  parseUrl : String → Option (String × Option String)
  connects : Bool

def Request.message (q : Request) (path : String) (query : Option String) : Rendezvous Bytes :=
  .httpProxyRequest
    { method := q.method.toUpper
      path := match query with
        | some query => path ++ "?" ++ query
        | none => path
      headers := q.headers
      body := q.body }

/-- `tcp_proxy_request`: what it handed to the transport and what it returns. -/
def tcpProxyRequest (useWs : Bool) (q : Request) (frames : List Frame) :
    List Bytes × Except String Bytes :=
  if q.tcpAddr = "" then ([], .error "No rendezvous server configured for TCP proxy")
  else
    match q.parseUrl q.url with
    | none => ([], .error "invalid url")
    | some (path, query) =>
      if q.connects then
        match ch.secureTcp useWs { kind := if useWs then .webSocket else .tcp } frames with
        | .error e => ([], .error e)
        | .ok s =>
          let out := s.stream.sendRaw (ch.codec.write (q.message path query))
          (s.handed ++ [out.2],
            match (await out.1 s.rest).2.2 with
            | .ok bytes =>
              match ch.codec.parse bytes with
              | some (.httpProxyResponse body) => .ok body
              | some _ => .error "Unexpected response from TCP proxy"
              | none => .error "invalid RendezvousMessage"
            | .err e => .error e
            | .closed => .error "TCP proxy connection closed without response"
            | .timeout => .error "deadline has elapsed")
      else ([], .error "connect")

/-! ### When the channel is secured -/

/-- What the network gives first is neither a key exchange nor keeps the caller
waiting: the stream ends, cannot be read, or has another message. -/
def Astray (frames : List Frame) : Bool :=
  match (await ({ kind := .tcp } : Stream S) frames).2.2 with
  | .timeout => false
  | .closed => true
  | .err _ => true
  | .ok bytes =>
    match ch.codec.parse bytes with
    | some (.keyExchange _) => false
    | _ => true

/-- The key exchange that seals the key drawn to `theirPkB`. -/
def exchange (theirPkB : Bytes) : Bytes :=
  ch.codec.write (.keyExchange [C.boxPk ch.ourSkB, C.sealBox ch.symKey theirPkB ch.ourSkB])

/-- The key was sent only in a box for a key that the server signed. -/
def SealedToServer (handed : List Bytes) : Prop :=
  ∃ rsPk signed theirPkB, C.getRsPk ch.strKey = some rsPk ∧
    C.verify signed rsPk = some theirPkB ∧ handed = [ch.exchange theirPkB]

/-- A stream on which `secure_tcp_impl` succeeded has the key, which was sent only
in a box for a key that the server signed. -/
def Keyed (frames : List Frame) : Prop :=
  ∀ s, ch.secureTcp false { kind := .tcp } frames = .ok s →
    s.stream.encrypt = some { key := ch.toKey ch.symKey } ∧ ch.SealedToServer s.handed

/-- Whatever `tcp_proxy_request` hands to the transport is such a key exchange or the
request sealed under the key. -/
def Confidential (q : Request) (frames : List Frame) : Prop :=
  ∀ f ∈ (ch.tcpProxyRequest false q frames).1,
    (∃ theirPkB, f = ch.exchange theirPkB) ∨
      ∃ nonce path query, f = S.sealBox (ch.toKey ch.symKey) nonce
        (ch.codec.write (q.message path query))

theorem await_unkeyed {s : Stream S} (hs : s.encrypt = none) : ∀ frames, (await s frames).1 = s
  | [] => rfl
  | f :: fs => by
    have ih := await_unkeyed hs fs
    cases f with
    | data => simp only [await, Stream.next, Stream.decrypt, hs]
    | text =>
      by_cases hk : s.kind = .webSocket
      · simp only [await, Stream.next, if_pos hk]
      · simp only [await, Stream.next, if_neg hk, ih]
    | control => simp only [await, Stream.next, ih]
    | close | error => rfl

/-- On a TCP stream the handshake succeeds astray, with the stream as it was, or with
the key sealed to a key that the server signed. -/
theorem secureTcp_ok {frames : List Frame} {s : Secured S}
    (h : ch.secureTcp false { kind := .tcp } frames = .ok s) :
    (ch.Astray frames = true ∧ s.stream.encrypt = none) ∨
    (s.stream.encrypt = some { key := ch.toKey ch.symKey } ∧ ch.SealedToServer s.handed) := by
  have hs : (await ({ kind := .tcp } : Stream S) frames).1 = { kind := .tcp } :=
    await_unkeyed rfl frames
  unfold secureTcp at h
  dsimp only at h
  split at h
  · cases h
  rename_i sent key ho
  simp only [Bool.false_eq_true, if_false, hs] at h
  cases h
  rcases Suite.secureTcpImpl_ok ho with ⟨rfl, hnt, hno⟩ | ⟨rsPk, signed, pk, hr, hv, rfl, rfl⟩
  · refine .inl ⟨?_, rfl⟩
    unfold Astray
    cases hr : (await ({ kind := .tcp } : Stream S) frames).2.2 with
    | timeout => exact absurd hr hnt
    | closed | err => rfl
    | ok bytes =>
      dsimp only
      split
      · rename_i keys hk
        exact absurd hk (hno bytes keys hr)
      · rfl
  · exact .inr ⟨rfl, rsPk, signed, pk, hr, hv, rfl⟩

theorem secureTcp_astray {frames : List Frame} {rsPk : Bytes} (hr : C.getRsPk ch.strKey = some rsPk)
    (ha : ch.Astray frames = true) :
    ∃ s, ch.secureTcp false { kind := .tcp } frames = .ok s ∧ s.stream.encrypt = none := by
  have hs : (await ({ kind := .tcp } : Stream S) frames).1 = { kind := .tcp } :=
    await_unkeyed rfl frames
  have ho : C.secureTcpImpl ch.codec.parse false ch.strKey ch.ourSkB ch.symKey
      (await ({ kind := .tcp } : Stream S) frames).2.2 ch.sends = .ok ([], none) := by
    unfold Astray at ha
    simp only [Suite.secureTcpImpl, Bool.false_eq_true, if_false, hr]
    cases h : (await ({ kind := .tcp } : Stream S) frames).2.2 with
    | timeout => simp [h] at ha
    | closed | err => rfl
    | ok bytes =>
      simp only [h] at ha
      cases hp : ch.codec.parse bytes with
      | none => simp only [hp]
      | some m =>
        cases m with
        | keyExchange => simp [hp] at ha
        | _ => simp only [hp]
  refine ⟨⟨{ kind := .tcp }, [], (await ({ kind := .tcp } : Stream S) frames).2.1⟩, ?_, rfl⟩
  simp [secureTcp, ho, hs]

/-- **No silent downgrade.** A stream that `secure_tcp_impl` accepts is keyed with a key
sent only in a box for a key that the server signed, and `tcp_proxy_request` sends no
request in clear, if and only if the server key is not valid (nothing is accepted
then) or the network does not lead the handshake astray. -/
theorem proxy_secured_iff (frames : List Frame) :
    (ch.Keyed frames ∧ ∀ q, ch.Confidential q frames) ↔
      C.getRsPk ch.strKey = none ∨ ch.Astray frames = false := by
  constructor
  · rintro ⟨hk, -⟩
    cases hr : C.getRsPk ch.strKey with
    | none => exact .inl rfl
    | some =>
      refine .inr ?_
      by_contra ha
      obtain ⟨s, hs, hn⟩ := ch.secureTcp_astray hr (Bool.not_eq_false _ ▸ ha)
      simp [(hk s hs).1] at hn
  · intro hc
    have hkey : ch.Keyed frames := by
      intro s hs
      rcases ch.secureTcp_ok hs with ⟨ha, -⟩ | hk
      · rcases hc with hn | hf
        · simp [secureTcp, Suite.secureTcpImpl, hn] at hs
        · simp [hf] at ha
      · exact hk
    refine ⟨hkey, fun q f hf => ?_⟩
    unfold tcpProxyRequest at hf
    split at hf
    · cases hf
    split at hf
    · cases hf
    rename_i path query _
    split at hf
    · split at hf
      · cases hf
      · rename_i s hs
        obtain ⟨he, rsPk, signed, pk, -, -, hh⟩ := hkey s hs
        rcases List.mem_append.mp hf with hf | hf
        · rw [hh] at hf
          exact .inl ⟨pk, List.mem_singleton.mp hf⟩
        · rw [List.mem_singleton.mp hf]
          simp only [Stream.sendRaw, he]
          exact .inr ⟨_, path, query, rfl⟩
    · cases hf

def strayed : Channel Plain.suite Box.plain where
  codec :=
    { write := fun
        | .httpProxyRequest req => 27 :: req.body
        | _ => []
      parse := fun _ => none }
  toKey := fun _ => ()
  strKey := "k"
  ourSkB := (6 : UInt8)
  symKey := List.replicate 32 3
  sends := true

theorem strayed_sends_in_clear : ¬ strayed.Keyed [.data [1]] ∧
    (strayed.tcpProxyRequest false
      { tcpAddr := "rs", method := "post", url := "u", body := [8, 9], headers := []
        parseUrl := fun _ => some ("/", none), connects := true } [.data [1]]).1 = [[27, 8, 9]] := by
  refine ⟨fun h => ?_, by decide⟩
  have := (h _ rfl).1
  cases this

end Channel
end CodeDesk.Secure
