/-
# What the pipes of a tunnel hold

`Wired P t u d ru rd`: the messages `u` of the client and `d` of the server are
under way, each in the frame the other end will read it from, under the number
it will open it with; behind them come the raw bytes `ru` and `rd`. Each
operation of the two ends has its lemma here. Which messages and bytes may be
under way when, is not decided here.
-/
import CodeDesk.Net.Tunnel

namespace CodeDesk.Net

open Sealing

variable {S : Box}

/-! ### Messages in boxes -/

def advance (e : Option (Encrypt S)) : Option (Encrypt S) :=
  e.map fun e => { e with received := (e.received + 1) % 2 ^ 64 }

/-- The frame from which a stream with encryption `e` reads `m` next. -/
def boxed (e : Option (Encrypt S)) (m : Bytes) : Bytes :=
  match e with
  | none => m
  | some e => S.sealBox e.key e.openNonce m

/-- The frames from which a stream with encryption `e` reads `ms`. -/
def inbox : Option (Encrypt S) → List Bytes → List Bytes
  | _, [] => []
  | e, m :: ms => boxed e m :: inbox (advance e) ms

/-- A sender with encryption `a` has sent `n` messages that the reader with
encryption `b` has not read. -/
def Synced (a b : Option (Encrypt S)) (n : ℕ) : Prop :=
  match a, b with
  | none, none => True
  | some a, some b => a.key = b.key ∧ a.sent % 2 ^ 64 = (b.received + n) % 2 ^ 64
  | _, _ => False

variable {a b : Option (Encrypt S)} {n : ℕ} {s : Stream S} {p : Pipe} {tail : Bytes} {stage : Stage}

theorem Synced.advance (h : Synced a b (n + 1)) : Synced a (advance b) n := by
  cases a <;> cases b <;> simp only [Synced, Net.advance, Option.map] at *
  case some.some a b =>
    refine ⟨h.1, ?_⟩
    rw [h.2, Nat.mod_add_mod]
    congr 1
    omega

theorem sendRaw_boxed (h : Synced s.encrypt b 0) (m : Bytes) : (s.sendRaw m).2 = boxed b m := by
  cases ha : s.encrypt <;> cases b <;> rw [ha] at h <;>
    simp only [Synced] at h <;> simp only [Stream.sendRaw, ha, boxed]
  case some.some a b =>
    have hn : a.sealNonce = b.openNonce := by
      unfold Encrypt.sealNonce Encrypt.openNonce
      rw [← Nat.mod_add_mod, h.2, Nat.mod_add_mod, Nat.add_zero]
    simp only [Encrypt.enc, hn, h.1]

theorem inbox_concat (m : Bytes) :
    ∀ {b : Option (Encrypt S)} {ms : List Bytes}, Synced s.encrypt b ms.length →
      inbox b (ms ++ [m]) = inbox b ms ++ [(s.sendRaw m).2]
  | b, [], h => by rw [sendRaw_boxed h]; rfl
  | b, x :: ms, h => by
    have ih := inbox_concat m (Synced.advance h)
    rw [List.cons_append, inbox, ih]
    rfl

theorem synced_sendRaw
    (h : Synced s.encrypt b n) (m : Bytes) : Synced (s.sendRaw m).1.encrypt b (n + 1) := by
  cases ha : s.encrypt <;> cases b <;> rw [ha] at h <;>
    simp only [Synced] at h <;> simp only [Stream.sendRaw, ha, Synced, Encrypt.enc]
  case some.some a b =>
    refine ⟨h.1, ?_⟩
    rw [Nat.mod_mod, ← Nat.mod_add_mod, h.2, Nat.mod_add_mod, Nat.add_assoc]

/-- Opening moves the receive number of a stream only, sending the other. -/
theorem synced_of_received (h : Synced a b n) : Synced (advance a) b n := by
  cases a <;> cases b <;> simp only [Synced, advance, Option.map] at *
  exact h

theorem synced_of_sent
    (h : Synced a s.encrypt n) (m : Bytes) : Synced a (s.sendRaw m).1.encrypt n := by
  cases hs : s.encrypt <;> cases a <;> rw [hs] at h <;>
    simp only [Synced] at h <;> simp only [Stream.sendRaw, hs, Synced, Encrypt.enc]
  exact h

theorem inbox_sendRaw (s : Stream S) (m : Bytes) (ms : List Bytes) :
    inbox (s.sendRaw m).1.encrypt ms = inbox s.encrypt ms := by
  cases hs : s.encrypt with
  | none => simp only [Stream.sendRaw, hs]
  | some e =>
    simp only [Stream.sendRaw, hs, Encrypt.enc]
    -- The frames depend on the key and the receive number.
    have key : ∀ (ms : List Bytes) (r k : ℕ), inbox (some { e with sent := k, received := r }) ms =
          inbox (some { e with received := r }) ms := by
      intro ms
      induction ms with
      | nil => exact fun _ _ => rfl
      | cons m ms ih =>
        intro r k
        rw [inbox, inbox, List.cons.injEq]
        exact ⟨rfl, ih _ k⟩
    exact key ms e.received _

/-! ### Reads -/

theorem decrypt_boxed (s : Stream S) (m : Bytes) :
    s.next (.data (boxed s.encrypt m)) = ({ s with encrypt := advance s.encrypt }, .ok m) := by
  cases hs : s.encrypt with
  | none =>
    simp only [Stream.next, Stream.decrypt, hs, boxed, advance, Option.map]
    rw [← hs]
  | some e =>
    have hl : ¬ (S.sealBox e.key e.openNonce m).length ≤ 1 := by
      rw [S.length_seal]
      omega
    simp only [Stream.next, Stream.decrypt, hs, boxed, Encrypt.dec, if_neg hl, S.open_seal, advance,
      Option.map]

theorem receive_eq (s : Stream S) (p : Pipe) : s.receive p = match (p.get s).2 with
    | some f => ((s.next f).1, (p.get s).1, (s.next f).2)
    | none => (s, (p.get s).1, .again) := by
  unfold Stream.receive
  rcases p.get s with ⟨p', _ | f⟩ <;> rfl

theorem receive_message {m : Bytes} {ms : List Bytes}
    (hs : s.raw = false) (h : p.Carries s.kind (inbox s.encrypt (m :: ms)) tail) :
    (s.receive p).2.2 = .err ∨
    ((s.receive p).2.2 = .again ∧ (s.receive p).1 = s ∧
      (s.receive p).2.1.Carries s.kind (inbox s.encrypt (m :: ms)) tail) ∨
    ((s.receive p).2.2 = .ok m ∧ (s.receive p).1 = { s with encrypt := advance s.encrypt } ∧
      (s.receive p).2.1.Carries s.kind (inbox (advance s.encrypt) ms) tail) := by
  rw [receive_eq]
  rcases h.getFrame hs with ⟨hn, hc⟩ | ⟨hn, hc⟩ | hn <;> rw [hn]
  · exact .inr (.inl ⟨rfl, rfl, hc⟩)
  · refine .inr (.inr ?_)
    dsimp only
    rw [decrypt_boxed]
    exact ⟨rfl, rfl, hc⟩
  · exact .inl rfl

theorem receive_raw (hs : Pipe.Unframed s) (he : s.encrypt = none) (h : p.Carries s.kind [] tail) :
    (s.receive p).2.2 = .err ∨
    ((s.receive p).2.2 = .again ∧ (s.receive p).1 = s ∧ (s.receive p).2.1.Carries s.kind [] tail) ∨
    ∃ bytes rest, tail = bytes ++ rest ∧ (s.receive p).2.2 = .ok bytes ∧ (s.receive p).1 = s ∧
      (s.receive p).2.1.Carries s.kind [] rest := by
  rw [receive_eq]
  rcases h.getRaw hs with ⟨hn, hc⟩ | ⟨bytes, rest, hn, ht, hc⟩ | hn <;> rw [hn]
  · exact .inr (.inl ⟨rfl, rfl, hc⟩)
  · refine .inr (.inr ⟨bytes, rest, ht, ?_⟩)
    simp only [Stream.next, Stream.decrypt, he]
    exact ⟨trivial, trivial, hc⟩
  · exact .inl rfl

@[simp] theorem next_kind (s : Stream S) (f : Frame) : (s.next f).1.kind = s.kind := by
  cases f with
  | data =>
    dsimp only [Stream.next, Stream.decrypt]
    split <;> rfl
  | text =>
    dsimp only [Stream.next]
    split <;> rfl
  | _ => rfl

theorem receive_kind (s : Stream S) (p : Pipe) : (s.receive p).1.kind = s.kind := by
  unfold Stream.receive
  split
  · exact next_kind s _
  · rfl

/-! ### One way -/

/-- One direction, from stream `a` to stream `b`: of the messages `said` those
in `u` were not heard, and behind them come the raw bytes `r`. -/
structure Way (P : Proto) (a b : Stream S) (sa sb : Stage) (p : Pipe) (said : List Msg)
    (heard : List Bytes) (u : List Msg) (r : Bytes) : Prop where
  log : said.map P.write = heard ++ u.map P.write
  carries : sb ≠ .closed → p.Carries b.kind (inbox b.encrypt (u.map P.write)) r
  synced : sa = .talk → sb = .talk → Synced a.encrypt b.encrypt u.length

@[simp] theorem sendRaw_kind (s : Stream S) (m : Bytes) : (s.sendRaw m).1.kind = s.kind := by
  unfold Stream.sendRaw
  split <;> rfl

@[simp] theorem sendRaw_raw (s : Stream S) (m : Bytes) : (s.sendRaw m).1.raw = s.raw := by
  unfold Stream.sendRaw
  split <;> rfl

theorem sendRaw_length (s : Stream S) (m : Bytes) : (s.sendRaw m).2.length ≤ m.length + 16 := by
  unfold Stream.sendRaw
  split
  · exact le_of_eq (S.length_seal _ _ _)
  · exact Nat.le_add_right _ _

namespace Way

variable {P : Proto} {a b : Stream S} {sa sb : Stage} {p : Pipe} {said u : List Msg}
  {heard : List Bytes} {r : Bytes}

section

variable (h : Way P a b sa sb p said heard u r)

include h

theorem send (hkind : a.kind = b.kind)
    (hraw : a.raw = false) (hsa : sa = .talk) (hsb : sb ≠ .forward) (hr : r = []) (m : Msg) :
    Way P (a.sendRaw (P.write m)).1 b sa sb
      (p.put (a.sendRaw (P.write m)).1 (a.sendRaw (P.write m)).2) (said ++ [m]) heard (u ++ [m])
      r where
  log := by
    simp [h.log]
  carries := by
    intro hc
    have htalk : sb = .talk := by
      cases sb <;> first | rfl | contradiction
    have hsync := h.synced hsa htalk
    rw [← List.length_map P.write] at hsync
    rw [List.map_append, List.map_cons, List.map_nil, inbox_concat _ hsync, hr]
    have hk : (a.sendRaw (P.write m)).1.kind = b.kind := by rw [sendRaw_kind, hkind]
    have hp := h.carries hc
    rw [hr, ← hk] at hp
    rw [← hk]
    refine hp.putFrame (by rw [sendRaw_raw, hraw]) ?_
    exact Nat.le_trans (sendRaw_length a _) (P.length_write m)
  synced := by
    intro h₁ h₂
    rw [List.length_append, List.length_singleton]
    exact synced_sendRaw (h.synced h₁ h₂) _

theorem reader_sends (m : Bytes) : Way P a (b.sendRaw m).1 sa sb p said heard u r where
  log := h.log
  carries := by
    intro hc
    rw [sendRaw_kind, inbox_sendRaw]
    exact h.carries hc
  synced := fun h₁ h₂ => synced_of_sent (h.synced h₁ h₂) m

theorem sendBytes (hkind : a.kind = b.kind) (hun : Pipe.Unframed a) {bytes : Bytes}
    (hb : bytes ≠ []) : Way P a b sa sb (p.put a bytes) said heard u (r ++ bytes) where
  log := h.log
  carries := by
    intro hc
    have hp := h.carries hc
    rw [← hkind] at hp ⊢
    exact hp.putRaw hun hb
  synced := h.synced

theorem arrive (n : ℕ) : Way P a b sa sb (p.arrive n) said heard u r :=
  { h with carries := fun hc => (h.carries hc).arrive n }

theorem sender_hears : Way P { a with encrypt := advance a.encrypt } b sa sb p said heard u r:=
  { h with synced := fun h₁ h₂ => synced_of_received (h.synced h₁ h₂) }

theorem repipe {p' : Pipe} {r' : Bytes}
    (hc : p'.Carries b.kind (inbox b.encrypt (u.map P.write)) r') :
    Way P a b sa sb p' said heard u r' :=
  { h with carries := fun _ => hc }

theorem sender_leaves (a' : Stream S) {sa' : Stage}
    (hs : sa' ≠ .talk) : Way P a' b sa' sb p said heard u r :=
  { h with synced := fun h₁ => absurd h₁ hs }

theorem reader_closes (b' : Stream S) (p' : Pipe) : Way P a b' sa .closed p' said heard u r where
  log := h.log
  carries := fun hc => absurd rfl hc
  synced := nofun

end

theorem hear {m : Msg} {p' : Pipe} (h : Way P a b sa sb p said heard (m :: u) r)
    (hc : p'.Carries b.kind (inbox (advance b.encrypt) (u.map P.write)) r) :
    Way P a { b with encrypt := advance b.encrypt } sa sb p' said (heard ++ [P.write m]) u r where
  log := by simp [h.log]
  carries := fun _ => hc
  synced := fun h₁ h₂ => (h.synced h₁ h₂).advance

theorem read {m : Msg} (h : Way P a b sa sb p said heard (m :: u) r) (hsb : sb = .talk)
    (hraw : b.raw = false) :
    (b.receive p).2.2 = .err ∨
    ((b.receive p).2.2 = .again ∧ (b.receive p).1 = b ∧
      Way P a b sa sb (b.receive p).2.1 said heard (m :: u) r) ∨
    ((b.receive p).2.2 = .ok (P.write m) ∧
      (b.receive p).1 = { b with encrypt := advance b.encrypt } ∧
      Way P a { b with encrypt := advance b.encrypt } sa sb (b.receive p).2.1 said
        (heard ++ [P.write m]) u r) := by
  rcases receive_message hraw (h.carries (by rw [hsb]; nofun)) with he | ⟨ha, hst, hc⟩ | ⟨ho, hst, hc⟩
  · exact .inl he
  · exact .inr (.inl ⟨ha, hst, h.repipe hc⟩)
  · exact .inr (.inr ⟨ho, hst, h.hear hc⟩)

theorem read_none (h : Way P a b sa sb p said heard [] []) (hsb : sb = .talk)
    (hraw : b.raw = false) : b.receive p = (b, p, .again) := by
  rw [Stream.receive, (h.carries (by rw [hsb]; nofun)).getNone hraw]

theorem read_raw (h : Way P a b sa sb p said heard [] r) (hsb : sb = .forward)
    (hb : Pipe.Unframed b ∧ b.encrypt = none) :
    (b.receive p).2.2 = .err ∨ (b.receive p).1 = b ∧
      (((b.receive p).2.2 = .again ∧ Way P a b sa sb (b.receive p).2.1 said heard [] r) ∨
      ∃ bytes rest, r = bytes ++ rest ∧ (b.receive p).2.2 = .ok bytes ∧
        Way P a b sa sb (b.receive p).2.1 said heard [] rest) := by
  rcases receive_raw hb.1 hb.2 (h.carries (by rw [hsb]; nofun)) with
    he | ⟨ha, hst, hc⟩ | ⟨bytes, rest, hr, ho, hst, hc⟩
  · exact .inl he
  · exact .inr ⟨hst, .inl ⟨ha, h.repipe hc⟩⟩
  · exact .inr ⟨hst, .inr ⟨bytes, rest, hr, ho, h.repipe hc⟩⟩

theorem reader_leaves (h : Way P a b sa sb p said heard [] r) (hsb : sb ≠ .closed) {b' : Stream S}
    (hk : b'.kind = b.kind) : Way P a b' sa .forward p said heard [] r where
  log := h.log
  carries := by
    intro _
    rw [hk]
    exact h.carries hsb
  synced := nofun

end Way

/-! ### The wiring -/

/-- A stream that talks frames; one that forwards does not frame and has no key. -/
structure Mode (stage : Stage) (s : Stream S) : Prop where
  talk : stage = .talk → s.raw = false
  forward : stage = .forward → Pipe.Unframed s ∧ s.encrypt = none
  webRtc : stage ≠ .closed → s.kind = .webRtc → s.encrypt = none

theorem Mode.sendRaw (h : Mode stage s) (ht : stage = .talk) (m : Bytes) :
    Mode stage (s.sendRaw m).1 where
  talk := fun _ => by rw [sendRaw_raw, h.talk ht]
  forward := fun hf => nomatch ht.symm.trans hf
  webRtc := by
    intro hs hk
    rw [sendRaw_kind] at hk
    simp only [Stream.sendRaw, h.webRtc hs hk]

theorem Mode.advance (h : Mode stage s) : Mode stage { s with encrypt := advance s.encrypt } where
  talk := h.talk
  forward := fun hf => ⟨(h.forward hf).1, by rw [(h.forward hf).2]; rfl⟩
  webRtc := fun hs hk => by rw [h.webRtc hs hk]; rfl

theorem Mode.closed (s : Stream S) : Mode .closed s where
  talk := nofun
  forward := nofun
  webRtc := fun hs => absurd rfl hs

theorem setRaw_kind (s : Stream S) : s.setRaw.kind = s.kind := by
  unfold Stream.setRaw
  split <;> rfl

theorem Mode.setRaw (h : Mode stage s) (hs : stage ≠ .closed) : Mode .forward s.setRaw := by
  have he : s.setRaw.encrypt = none := by
    unfold Stream.setRaw
    cases hk : s.kind with
    | webRtc => exact h.webRtc hs hk
    | _ => rfl
  refine ⟨nofun, fun _ => ⟨?_, he⟩, fun _ _ => he⟩
  intro hk
  rw [setRaw_kind] at hk
  rw [Stream.setRaw, hk]

/-- Which messages and raw bytes are under way, each way. -/
structure Wired (P : Proto) (t : Tunnel S) (u d : List Msg) (ru rd : Bytes) : Prop where
  kind : t.client.stream.kind = t.server.stream.kind
  client : Mode t.client.stage t.client.stream
  server : Mode t.server.stage t.server.stream
  up : Way P t.client.stream t.server.stream t.client.stage t.server.stage t.up t.clientSaid
    t.serverHeard u ru
  down : Way P t.server.stream t.client.stream t.server.stage t.client.stage t.down t.serverSaid
    t.clientHeard d rd

theorem wired_start (P : Proto) (kind : Kind) (key : Option S.Key) :
    Wired P (Tunnel.start kind key) [] [] [] [] := by
  have hmode : Mode .talk (Tunnel.start kind key).client.stream := by
    cases key <;> cases kind <;> exact ⟨fun _ => rfl, nofun, by first | exact fun _ _ => rfl | nofun⟩
  have hway : Way P (Tunnel.start kind key).client.stream (Tunnel.start kind key).client.stream
      .talk .talk {} [] [] [] [] := by
    refine ⟨rfl, fun _ => Pipe.carries_start _, fun _ _ => ?_⟩
    cases key <;> cases kind <;> first | exact trivial | exact ⟨rfl, rfl⟩
  exact ⟨rfl, hmode, hmode, hway, hway⟩

namespace Wired

open Tunnel

variable {P : Proto} {t : Tunnel S} {u d : List Msg} {ru rd : Bytes}

section

variable (h : Wired P t u d ru rd)

include h

theorem clientSend (hc : t.client.stage = .talk) (hs : t.server.stage ≠ .forward) (hr : ru = [])
    (m : Msg) : Wired P (t.clientSend P m) (u ++ [m]) d ru rd where
  kind := (sendRaw_kind _ _).trans h.kind
  client := h.client.sendRaw hc _
  server := h.server
  up := h.up.send h.kind (h.client.talk hc) hc hs hr m
  down := h.down.reader_sends _

theorem flags (authorized socket delay : Bool) : Wired P { t with server :=
      { t.server with
        authorized := authorized, portForwardSocket := socket, lastTestDelay := delay } } u d ru rd :=
  { h with }

theorem closeClient : Wired P t.closeClient u d ru rd := { h with
    client := Mode.closed _
    up := h.up.sender_leaves _ nofun
    down := h.down.reader_closes _ _ }

theorem closeServer : Wired P t.closeServer u d ru rd := { h with
    server := Mode.closed _
    up := h.up.reader_closes _ _
    down := h.down.sender_leaves _ nofun }

theorem clientSendBytes (hc : t.client.stage = .forward) {bytes : Bytes}
    (hb : bytes ≠ []) : Wired P (t.clientSendBytes bytes) u d (ru ++ bytes) rd :=
  { h with up := h.up.sendBytes h.kind (h.client.forward hc).1 hb }

theorem serverSendBytes (hs : t.server.stage = .forward) {bytes : Bytes}
    (hb : bytes ≠ []) : Wired P (t.serverSendBytes bytes) u d ru (rd ++ bytes) :=
  { h with down := h.down.sendBytes h.kind.symm (h.server.forward hs).1 hb }

theorem serverGot_closed : Wired P t.serverGot.closeServer u d ru rd where
  kind := h.kind.trans (receive_kind _ _).symm
  client := h.client
  server := Mode.closed _
  up := h.up.reader_closes _ _
  down := h.down.sender_leaves _ nofun

theorem clientGot_closed : Wired P t.clientGot.closeClient u d ru rd where
  kind := (receive_kind _ _).trans h.kind
  client := Mode.closed _
  server := h.server
  up := h.up.sender_leaves _ nofun
  down := h.down.reader_closes _ _

variable (hs : t.server.stage = .talk) (hc : t.client.stage ≠ .forward) (hr : rd = [])

include hs hc hr

theorem serverSend (m : Msg) : Wired P (t.serverSend P m) u (d ++ [m]) ru rd where
  kind := h.kind.trans (sendRaw_kind _ _).symm
  client := h.client
  server := h.server.sendRaw hs _
  up := h.up.reader_sends _
  down := h.down.send h.kind.symm (h.server.talk hs) hs hc hr m

theorem serverSendAll (ms : List Msg) : Wired P (t.serverSendAll P ms) u (d ++ ms) ru rd := by
  induction ms generalizing t d with
  | nil => rwa [List.append_nil]
  | cons m ms ih =>
    have := ih (h.serverSend hs hc hr m) hs hc
    rwa [List.append_assoc] at this

theorem grant : Wired P (t.grant P) u (d ++ [.peerInfo]) ru rd :=
  (h.flags true true t.server.lastTestDelay).serverSend hs hc hr _

end

theorem leave (h : Wired P t [] d ru rd) (hs : t.server.stage ≠ .closed)
    (hp : t.server.portForwardSocket = true) : Wired P t.leave [] d ru rd := by
  rw [Tunnel.leave, if_pos hp]
  exact
    { kind := h.kind.trans (setRaw_kind _).symm
      client := h.client
      server := h.server.setRaw hs
      up := h.up.reader_leaves hs (setRaw_kind _)
      down := h.down.sender_leaves _ nofun }

theorem startForward (h : Wired P t u [] ru rd) (hc : t.client.stage ≠ .closed) :
    Wired P t.startForward u [] (ru ++ t.client.buffer) rd := by
  have hw : Wired P { t with
      client := { stream := t.client.stream.setRaw, stage := .forward, buffer := [] } } u [] ru rd :=
    { kind := (setRaw_kind _).trans h.kind
      client := h.client.setRaw hc
      server := h.server
      up := h.up.sender_leaves _ nofun
      down := h.down.reader_leaves hc (setRaw_kind _) }
  unfold Tunnel.startForward
  dsimp only
  split
  case isTrue hb => rw [hb, List.append_nil]; exact hw
  case isFalse hb => exact hw.clientSendBytes rfl hb

theorem serverGot {m : Msg} (h : Wired P t (m :: u) d ru rd) (hs : t.server.stage = .talk) :
    (t.server.stream.receive t.up).2.2 = .err ∨
    ((t.server.stream.receive t.up).2.2 = .again ∧ Wired P t.serverGot (m :: u) d ru rd) ∨
    ((t.server.stream.receive t.up).2.2 = .ok (P.write m) ∧
      Wired P { t.serverGot with serverHeard := t.serverHeard ++ [P.write m] } u d ru rd) := by
  unfold Tunnel.serverGot
  rcases h.up.read hs (h.server.talk hs) with he | ⟨ha, hst, hw⟩ | ⟨ho, hst, hw⟩
  · exact .inl he
  · refine .inr (.inl ⟨ha, ?_⟩)
    simp only [hst]
    exact { h with up := hw }
  · refine .inr (.inr ⟨ho, ?_⟩)
    simp only [hst]
    exact ⟨h.kind, h.client, h.server.advance, hw, h.down.sender_hears⟩

theorem clientGot {m : Msg} (h : Wired P t u (m :: d) ru rd) (hc : t.client.stage = .talk) :
    (t.client.stream.receive t.down).2.2 = .err ∨
    ((t.client.stream.receive t.down).2.2 = .again ∧ Wired P t.clientGot u (m :: d) ru rd) ∨
    ((t.client.stream.receive t.down).2.2 = .ok (P.write m) ∧
      Wired P { t.clientGot with clientHeard := t.clientHeard ++ [P.write m] } u d ru rd) := by
  unfold Tunnel.clientGot
  rcases h.down.read hc (h.client.talk hc) with he | ⟨ha, hst, hw⟩ | ⟨ho, hst, hw⟩
  · exact .inl he
  · refine .inr (.inl ⟨ha, ?_⟩)
    simp only [hst]
    exact { h with down := hw }
  · refine .inr (.inr ⟨ho, ?_⟩)
    simp only [hst]
    exact ⟨h.kind, h.client.advance, h.server, h.up.sender_hears, hw⟩

theorem serverGot_none (h : Wired P t [] d [] rd) (hs : t.server.stage = .talk) :
    (t.server.stream.receive t.up).2.2 = .again ∧ t.serverGot = t := by
  rw [Tunnel.serverGot, h.up.read_none hs (h.server.talk hs)]
  exact ⟨rfl, rfl⟩

theorem clientGot_none (h : Wired P t u [] ru []) (hc : t.client.stage = .talk) :
    (t.client.stream.receive t.down).2.2 = .again ∧ t.clientGot = t := by
  rw [Tunnel.clientGot, h.down.read_none hc (h.client.talk hc)]
  exact ⟨rfl, rfl⟩

theorem serverGot_raw (h : Wired P t [] d ru rd) (hs : t.server.stage = .forward) :
    (t.server.stream.receive t.up).2.2 = .err ∨
    ((t.server.stream.receive t.up).2.2 = .again ∧ Wired P t.serverGot [] d ru rd) ∨
    ∃ bytes rest, ru = bytes ++ rest ∧ (t.server.stream.receive t.up).2.2 = .ok bytes ∧
      Wired P t.serverGot [] d rest rd := by
  unfold Tunnel.serverGot
  rcases h.up.read_raw hs (h.server.forward hs) with
    he | ⟨hst, ⟨ha, hw⟩ | ⟨bytes, rest, hr, ho, hw⟩⟩
  · exact .inl he
  · refine .inr (.inl ⟨ha, ?_⟩)
    simp only [hst]
    exact { h with up := hw }
  · refine .inr (.inr ⟨bytes, rest, hr, ho, ?_⟩)
    simp only [hst]
    exact { h with up := hw }

theorem clientGot_raw (h : Wired P t u [] ru rd) (hc : t.client.stage = .forward) :
    (t.client.stream.receive t.down).2.2 = .err ∨
    ((t.client.stream.receive t.down).2.2 = .again ∧ Wired P t.clientGot u [] ru rd) ∨
    ∃ bytes rest, rd = bytes ++ rest ∧ (t.client.stream.receive t.down).2.2 = .ok bytes ∧
      Wired P t.clientGot u [] ru rest := by
  unfold Tunnel.clientGot
  rcases h.down.read_raw hc (h.client.forward hc) with
    he | ⟨hst, ⟨ha, hw⟩ | ⟨bytes, rest, hr, ho, hw⟩⟩
  · exact .inl he
  · refine .inr (.inl ⟨ha, ?_⟩)
    simp only [hst]
    exact { h with down := hw }
  · refine .inr (.inr ⟨bytes, rest, hr, ho, ?_⟩)
    simp only [hst]
    exact { h with down := hw }

end Wired

end CodeDesk.Net
