/-
# The relay is transparent

What one client receives through the relay is what the other sent after its
`RequestRelay`, in order and from the start: bytes if both are TCP
(`RelaySys.raw`), else frames without the empty ones. `Transparent s e` says so of
the direction from `e`, in every state that two connections can reach; while the
relay runs nothing is lost either, what was not received yet is still in the
decoder or on the way (`Conserved`).

`Conn.Reads` ties what `recv` gave to what the client sent, `Conn.Wrote` what was
written to the frames handed to `send_raw`.
-/
import Mathlib.Data.List.Infix
import CodeDesk.Server.Relay

namespace CodeDesk.Server

open Net Codec Incremental

def nonEmpty (fs : List Bytes) : List Bytes := fs.filter fun f => decide (f ≠ [])

theorem nonEmpty_append (fs gs : List Bytes) : nonEmpty (fs ++ gs) = nonEmpty fs ++ nonEmpty gs :=
  List.filter_append _ _

theorem flatten_nonEmpty : ∀ fs : List Bytes, (nonEmpty fs).flatten = fs.flatten
  | [] => rfl
  | f :: fs => by
    by_cases hf : f = [] <;> simpa [nonEmpty, hf] using flatten_nonEmpty fs

theorem nonEmpty_tail_mono {fs gs : List Bytes} (h : fs <+: gs) :
    nonEmpty fs.tail <+: nonEmpty gs.tail := by
  have htail := h.drop 1
  rw [List.drop_one, List.drop_one] at htail
  exact htail.filter _

/-! ### One connection -/

namespace Conn

/-- The frames of the client, its request included. -/
def frames (c : Conn) : List Bytes :=
  if c.ws then c.said.map WsMessage.payload else (feed usizeMax reader c.sent).items

def received (c : Conn) : List Bytes :=
  if c.ws then c.outbox else (feed usizeMax reader c.out).items

/-- What `recv` is still to give. -/
def pending (c : Conn) : List Bytes :=
  if c.ws then c.queue.map WsMessage.payload
  else (drain (decoder usizeMax) [] c.codec.state (c.buf ++ c.wire)).items

def handed (c : Conn) : List Bytes := nonEmpty c.got.tail

/-- What `recv` gave is the start of what the client sent. -/
inductive Reads (c : Conn) : Prop where
  | ws : c.ws = true → c.said.map WsMessage.payload = c.got ++ c.queue.map WsMessage.payload → Reads c
  | framed : c.ws = false → c.codec.raw = false → c.codec.maxPacketLength = usizeMax →
    drain (decoder usizeMax) [] .head c.sent =
      drain (decoder usizeMax) c.got c.codec.state (c.buf ++ c.wire) →
    Accounted c.sent c.got c.codec.state (c.buf ++ c.wire) → Reads c
  | raw (req : Bytes) (rest : List Bytes) (w : Bytes) : c.ws = false → c.codec.raw = true →
    c.got = req :: rest → Spelled [req] w → c.sent = w ++ (rest.flatten ++ (c.buf ++ c.wire)) → Reads c

/-- The client was written the frames `fs`. -/
inductive Wrote (c : Conn) (fs : List Bytes) : Prop where
  | ws : c.ws = true → c.outbox = fs → Wrote c fs
  | framed : c.ws = false → c.codec.raw = false → Spelled fs c.out → Wrote c fs
  | raw : c.ws = false → c.codec.raw = true → c.out = fs.flatten → Wrote c fs

/-- The client was written the start of the frames `fs`. -/
inductive Cut (c : Conn) (fs : List Bytes) : Prop where
  | frames : (c.ws = false → c.codec.raw = false) → c.received <+: fs → Cut c fs
  | raw : c.ws = false → c.codec.raw = true → c.out <+: fs.flatten → Cut c fs

/-- Nothing was written between `c` and `c'`. -/
structure Quiet (c c' : Conn) : Prop where
  ws : c'.ws = c.ws
  raw : c'.codec.raw = c.codec.raw
  out : c'.out = c.out
  outbox : c'.outbox = c.outbox

/-- `c'` is `c` up to what a poll changes. -/
structure Polled (c c' : Conn) : Prop extends Quiet c c' where
  sent : c'.sent = c.sent
  said : c'.said = c.said

variable {c c' : Conn} {fs fs' : List Bytes} {f : Bytes}

theorem polled_refl (c : Conn) : Polled c c := ⟨⟨rfl, rfl, rfl, rfl⟩, rfl, rfl⟩

theorem Quiet.received (h : Quiet c c') : c'.received = c.received := by
  unfold Conn.received
  rw [h.ws, h.out, h.outbox]

theorem Polled.frames (h : Polled c c') : c'.frames = c.frames := by
  unfold Conn.frames
  rw [h.ws, h.sent, h.said]

theorem Wrote.received (h : c.Wrote fs) (hr : c.ws = false → c.codec.raw = false) :
    c.received = fs := by
  unfold Conn.received
  cases h with
  | ws hw ho => rw [if_pos hw, ho]
  | framed hw _ hs => rw [if_neg (by simp [hw]), hs.feed (by decide)]
  | raw hw hraw => simp [hr hw] at hraw

/-- What was written so far is the start of what is written on. -/
theorem Wrote.cut (h : c.Wrote fs) (hp : fs <+: fs') : c.Cut fs' := by
  have hframes : (c.ws = false → c.codec.raw = false) → c.Cut fs' := fun hr =>
    .frames hr (h.received hr ▸ hp)
  cases h with
  | ws hw => exact hframes (by simp [hw])
  | framed _ hr => exact hframes fun _ => hr
  | raw hw hr ho => exact .raw hw hr (ho ▸ hp.flatten)

theorem Wrote.congr (h : c.Wrote fs) (hp : Quiet c c') : c'.Wrote fs := by
  cases h with
  | ws hw ho => exact .ws (hp.ws.trans hw) (hp.outbox.trans ho)
  | framed hw hr hs => exact .framed (hp.ws.trans hw) (hp.raw.trans hr) (hp.out ▸ hs)
  | raw hw hr ho => exact .raw (hp.ws.trans hw) (hp.raw.trans hr) (hp.out.trans ho)

theorem Reads.frames (h : c.Reads) (hr : c.ws = false → c.codec.raw = false) :
    c.frames = c.got ++ c.pending := by
  unfold Conn.frames pending
  cases h with
  | ws hw hq => rw [if_pos hw, if_pos hw, hq]
  | framed hw _ _ hd =>
    have hitems : (drain (decoder usizeMax) (c.got ++ []) c.codec.state (c.buf ++ c.wire)).items =
        c.got ++ (drain (decoder usizeMax) [] c.codec.state (c.buf ++ c.wire)).items :=
      drain_items c.got
    rw [List.append_nil] at hitems
    rw [if_neg (by simp [hw]), if_neg (by simp [hw]), feed_reader, hd, hitems]
  | raw _ _ _ hw hraw => simp [hr hw] at hraw

theorem reads_start (ws : Bool) : ({ ws := ws } : Conn).Reads := by
  cases ws with
  | true => exact .ws rfl rfl
  | false => exact .framed rfl rfl rfl rfl ⟨[], [], .nil, rfl, rfl⟩

/-- A client that sends more. -/
structure Sends (c c' : Conn) : Prop extends Quiet c c' where
  codec : c'.codec = c.codec
  got : c'.got = c.got
  sent : c.sent <+: c'.sent
  frames : c.frames <+: c'.frames

theorem sends_clientSends (c : Conn) (bytes : Bytes) : Sends c (c.clientSends bytes) := by
  unfold Conn.clientSends
  split_ifs with hws
  · exact ⟨⟨rfl, rfl, rfl, rfl⟩, rfl, rfl, List.prefix_refl _, List.prefix_refl _⟩
  · refine ⟨⟨rfl, rfl, rfl, rfl⟩, rfl, rfl, List.prefix_append _ _, ?_⟩
    unfold Conn.frames
    rw [if_neg hws, if_neg hws]
    exact feed_mono usizeMax (List.prefix_append _ _)

theorem sends_clientSays (c : Conn) (m : WsMessage) : Sends c (c.clientSays m) := by
  unfold Conn.clientSays
  split_ifs with hws
  · refine ⟨⟨rfl, rfl, rfl, rfl⟩, rfl, rfl, List.prefix_refl _, ?_⟩
    unfold Conn.frames
    rw [if_pos hws, if_pos hws, List.map_append]
    exact List.prefix_append _ _
  · exact ⟨⟨rfl, rfl, rfl, rfl⟩, rfl, rfl, List.prefix_refl _, List.prefix_refl _⟩

theorem sends_arrive (c : Conn) (n : ℕ) : Sends c (c.arrive n) :=
  ⟨⟨rfl, rfl, rfl, rfl⟩, rfl, rfl, List.prefix_refl _, List.prefix_refl _⟩

theorem Reads.clientSends (h : c.Reads) (bytes : Bytes) : (c.clientSends bytes).Reads := by
  unfold Conn.clientSends
  split_ifs with hws
  · exact h
  cases h with
  | ws hw => exact absurd hw hws
  | framed hw hr hmax hd hacc =>
    obtain ⟨w, head, hs, hp, hsent⟩ := hacc
    refine .framed hw hr hmax ?_ ⟨w, head, hs, hp, by simp [hsent]⟩
    rw [← List.append_assoc, drain_append bytes, drain_append bytes, hd]
  | raw req rest w hw hr hg hs hsent =>
    exact .raw req rest w hw hr hg hs (by simp [hsent])

theorem Reads.clientSays (h : c.Reads) (m : WsMessage) : (c.clientSays m).Reads := by
  unfold Conn.clientSays
  split_ifs with hws
  · cases h with
    | ws hw hq => exact .ws hw (by simp [hq])
    | framed hw | raw _ _ _ hw => simp [hw] at hws
  · exact h

theorem Reads.arrive (h : c.Reads) (n : ℕ) : (c.arrive n).Reads := by
  have hbuf : c.buf ++ c.wire.take n ++ c.wire.drop n = c.buf ++ c.wire := by
    rw [List.append_assoc, List.take_append_drop]
  cases h with
  | ws hw hq => exact .ws hw hq
  | framed hw hr hmax hd hacc => exact .framed hw hr hmax (hbuf.symm ▸ hd) (hbuf.symm ▸ hacc)
  | raw req rest w hw hr hg hs hsent => exact .raw req rest w hw hr hg hs (hbuf.symm ▸ hsent)

/-- Switching to raw after the request: the decoder stands between two frames,
so what is left in its buffer is raw. -/
theorem Reads.setRaw (h : c.Reads) {req : Bytes} (hw : c.ws = false) (hg : c.got = [req])
    (hs : c.codec.raw = false → c.codec.state = .head) : c.setRaw.Reads := by
  have hset : c.setRaw = { c with codec := c.codec.setRaw } := by simp [Conn.setRaw, hw]
  rw [hset]
  cases h with
  | ws hws => simp [hw] at hws
  | framed _ hr _ _ hacc =>
    obtain ⟨w, head, hspell, hp, hsent⟩ := hacc
    rw [hs hr] at hp
    have hhead : head = [] := hp
    refine .raw req [] w hw rfl hg (hg ▸ hspell) ?_
    simp [hsent, hhead]
  | raw req' rest w _ _ hg' hspell hsent => exact .raw req' rest w hw rfl hg' hspell hsent

theorem recv_cases (h : c.Reads) :
    ∃ c', Polled c c' ∧ c'.Reads ∧ ((c.recv = (c', none) ∧ c'.got = c.got) ∨
      ∃ f, c.recv = (c', some (.ok f)) ∧ c'.got = c.got ++ [f] ∧
        (c.ws = false → c.codec.raw = false → c'.codec.state = .head)) := by
  cases h with
  | ws hw hq =>
    cases hqueue : c.queue with
    | nil =>
      exact ⟨c, polled_refl c, .ws hw hq, .inl ⟨by simp [recv, hw, hqueue], rfl⟩⟩
    | cons m queue =>
      refine ⟨{ c with queue := queue, got := c.got ++ [m.payload] }, ⟨⟨rfl, rfl, rfl, rfl⟩, rfl, rfl⟩,
        .ws hw ?_, .inr ⟨m.payload, by simp [recv, hw, hqueue], rfl, by simp [hw]⟩⟩
      simp [hq, hqueue]
  | framed hw hr hmax hd hacc =>
    rcases decode_unlimited hr hmax c.buf with
      ⟨s', rest, hcall, hdec⟩ | ⟨f, s', rest, hcall, hdec⟩
    · refine ⟨{ c with codec := { c.codec with state := s' }, buf := rest },
        ⟨⟨rfl, rfl, rfl, rfl⟩, rfl, rfl⟩, .framed hw hr hmax ?_ ?_,
        .inl ⟨by simp [recv, hw, hdec], rfl⟩⟩
      · exact hd.trans (drain_congr ((decoder usizeMax).more_append hcall c.wire))
      · exact hacc.more_append hcall
    · have hcall' := (decoder usizeMax).item_append hcall c.wire
      refine ⟨{ c with codec := { c.codec with state := s' }, buf := rest, got := c.got ++ [f] },
        ⟨⟨rfl, rfl, rfl, rfl⟩, rfl, rfl⟩, .framed hw hr hmax ?_ (hacc.item hcall'),
        .inr ⟨f, by simp [recv, hw, hdec], rfl, fun _ _ => (call_item hcall).1⟩⟩
      exact hd.trans (drain_item hcall')
  | raw req rest w hw hr hg hs hsent =>
    by_cases hb : c.buf = []
    · refine ⟨c, polled_refl c, .raw req rest w hw hr hg hs hsent, .inl ⟨?_, rfl⟩⟩
      have hdec : c.codec.decode c.buf = (c.codec, c.buf, .ok none) := by
        simp [Codec.decode, hr, hb]
      rw [recv, if_neg (by simp [hw]), hdec]
    · refine ⟨{ c with buf := [], got := c.got ++ [c.buf] }, ⟨⟨rfl, rfl, rfl, rfl⟩, rfl, rfl⟩,
        .raw req (rest ++ [c.buf]) w hw hr (by simp [hg]) hs (by simp [hsent]),
        .inr ⟨c.buf, ?_, rfl, by simp [hr]⟩⟩
      simp [recv, hw, Codec.decode, hr, hb]

/-- `c'` is `c` up to what a write changes. -/
structure Written (c c' : Conn) : Prop where
  ws : c'.ws = c.ws
  codec : c'.codec = c.codec
  sent : c'.sent = c.sent
  said : c'.said = c.said
  got : c'.got = c.got
  reads : c.Reads → c'.Reads

theorem written_out (c : Conn) (out : Bytes) (outbox : List Bytes) :
    Written c { c with out := out, outbox := outbox } := by
  refine ⟨rfl, rfl, rfl, rfl, rfl, fun h => ?_⟩
  cases h with
  | ws hw hq => exact .ws hw hq
  | framed hw hr hmax hd hacc => exact .framed hw hr hmax hd hacc
  | raw req rest w hw hr hg hs hsent => exact .raw req rest w hw hr hg hs hsent

theorem sendRaw_cases (h : c.Wrote fs) (fails : Option ℕ) (f : Bytes) :
    ∃ c', Written c c' ∧ ((c.sendRaw fails f = (c', true) ∧ c'.Wrote (fs ++ [f])) ∨
      (c.sendRaw fails f = (c', false) ∧ c'.Cut (fs ++ [f]))) := by
  have hself : Written c c := written_out c c.out c.outbox
  have hcut : c.Cut (fs ++ [f]) := h.cut (List.prefix_append _ _)
  cases h with
  | ws hw ho =>
    cases fails with
    | none =>
      refine ⟨_, written_out c c.out (c.outbox ++ [f]), .inl ⟨by simp [sendRaw, hw], ?_⟩⟩
      exact .ws hw (by rw [ho])
    | some =>
      exact ⟨c, hself, .inr ⟨by simp [sendRaw, hw], hcut⟩⟩
  | framed hw hr hs =>
    rcases Nat.lt_or_ge 0x3FFFFFFF f.length with hl | hl
    · exact ⟨c, hself, .inr ⟨by simp [sendRaw, hw, encode_overflow c.codec hr hl], hcut⟩⟩
    obtain ⟨head, hhead, henc⟩ := encode_ok c.codec hr hl
    have hnil : decodeHead head = some (f.length, []) := by simpa using hhead []
    have hspell : Spelled (fs ++ [f]) (c.out ++ (head ++ f)) := .snoc hs hnil
    cases fails with
    | none =>
      refine ⟨_, written_out c (c.out ++ (head ++ f)) c.outbox,
        .inl ⟨by simp [sendRaw, hw, henc], .framed hw hr hspell⟩⟩
    | some n =>
      refine ⟨_, written_out c (c.out ++ (head ++ f).take n) c.outbox,
        .inr ⟨by simp [sendRaw, hw, henc], .frames (fun _ => hr) ?_⟩⟩
      -- a part of the frame's bytes is a prefix of them
      have hpre : c.out ++ (head ++ f).take n <+: c.out ++ (head ++ f) :=
        (List.prefix_append_right_inj _).2 (List.take_prefix _ _)
      have hitems := feed_mono usizeMax hpre
      rw [hspell.feed (by decide)] at hitems
      simpa [received, hw] using hitems
  | raw hw hr ho =>
    have henc : c.codec.encode f [] = (f, .ok ()) := by simp [Codec.encode, hr]
    cases fails with
    | none =>
      refine ⟨_, written_out c (c.out ++ f) c.outbox,
        .inl ⟨by simp [sendRaw, hw, henc], .raw hw hr ?_⟩⟩
      simp [ho]
    | some n =>
      refine ⟨_, written_out c (c.out ++ f.take n) c.outbox,
        .inr ⟨by simp [sendRaw, hw, henc], .raw hw hr ?_⟩⟩
      rw [ho, List.flatten_append, List.flatten_singleton]
      exact (List.prefix_append_right_inj _).2 (List.take_prefix _ _)

end Conn

/-! ### The two connections -/

theorem End.other_ne (e : End) : e.other ≠ e := by cases e <;> decide

@[simp] theorem End.other_other (e : End) : e.other.other = e := by cases e <;> rfl

theorem End.eq_or (e e' : End) : e' = e ∨ e' = e.other := by cases e <;> cases e' <;> decide

theorem End.both (e : End) {P : End → Prop} (h : P e) (ho : P e.other) : ∀ e', P e' := by
  intro e'
  rcases e.eq_or e' with rfl | rfl
  · exact h
  · exact ho

namespace RelaySys

/-- Both connections are TCP and were switched to raw. -/
def raw (s : RelaySys) : Bool := s.relaying && !(s.conn .stream).ws && !(s.conn .peer).ws

/-- What the client of `e.other` received is the start of what that of `e` sent
after its request. -/
def Transparent (s : RelaySys) (e : End) : Prop :=
  if s.raw then ∃ req w after, Spelled [req] w ∧ (s.conn e).sent = w ++ after ∧
    (s.conn e.other).out <+: after
  else (s.conn e.other).received <+: nonEmpty (s.conn e).frames.tail

/-- And the rest of it is in the decoder or on the way. -/
def Conserved (s : RelaySys) (e : End) : Prop :=
  if s.raw then ∃ req w, Spelled [req] w ∧
    (s.conn e).sent = w ++ ((s.conn e.other).out ++ ((s.conn e).buf ++ (s.conn e).wire))
  else nonEmpty (s.conn e).frames.tail = (s.conn e.other).received ++ nonEmpty (s.conn e).pending

/-- What `make_pair_` has done for connection `e` before the pairing. -/
def Asked (s : RelaySys) (e : End) : Prop :=
  if s.relaying then (s.conn e).got ≠ []
  else if (s.uuid e).isSome then ∃ req, (s.conn e).got = [req] ∧
    ((s.conn e).ws = false → (s.conn e).codec.raw = false → (s.conn e).codec.state = .head)
  else (s.conn e).got = []

/-- What holds while the relay has not ended. -/
structure Live (s : RelaySys) : Prop where
  reads : ∀ e, (s.conn e).Reads
  wrote : ∀ e, (s.conn e.other).Wrote (s.conn e).handed
  mode : ∀ e, (s.conn e).ws = false → (s.conn e).codec.raw = s.raw
  asked : ∀ e, s.Asked e

variable {s : RelaySys} {e : End} {c c' : Conn}

@[simp] theorem setConn_same (s : RelaySys) (e : End) (c : Conn) : (s.setConn e c).conn e = c :=
  Function.update_self ..

@[simp] theorem setConn_other (s : RelaySys) (e : End) (c : Conn) :
    (s.setConn e c).conn e.other = s.conn e.other :=
  Function.update_of_ne e.other_ne ..

theorem ws_of_raw (h : s.raw = true) (e : End) : (s.conn e).ws = false := by
  simp only [raw, Bool.and_eq_true, Bool.not_eq_true'] at h
  cases e
  · exact h.2
  · exact h.1.2

theorem raw_setConn {s' : RelaySys} (hs : s'.conn = (s.setConn e c').conn)
    (hrel : s'.relaying = s.relaying) (hws : c'.ws = (s.conn e).ws) : s'.raw = s.raw := by
  have hall : ∀ e', (s'.conn e').ws = (s.conn e').ws := by
    rw [hs]
    exact e.both (by rw [setConn_same, hws]) (by rw [setConn_other])
  unfold raw
  rw [hall, hall, hrel]

/-! ### What the two invariants give -/

section

variable (hm : ∀ e, (s.conn e).ws = false → (s.conn e).codec.raw = s.raw)

include hm

theorem reads_of_raw (hraw : s.raw = true) (hr : (s.conn e).Reads) :
    ∃ req w, Spelled [req] w ∧ (s.conn e).sent =
      w ++ ((s.conn e).handed.flatten ++ ((s.conn e).buf ++ (s.conn e).wire)) := by
  cases hr with
  | ws hw => simp [ws_of_raw hraw e] at hw
  | framed hw hf => simp [hm e hw, hraw] at hf
  | raw req rest w _ _ hg hs hsent =>
    refine ⟨req, w, hs, ?_⟩
    rw [hsent, Conn.handed, hg, flatten_nonEmpty, List.tail_cons]

theorem framed_of_not_raw (hraw : ¬s.raw = true) (e : End) (hw : (s.conn e).ws = false) :
    (s.conn e).codec.raw = false := by
  rw [hm e hw]
  simpa using hraw

theorem transparent_of_cut (hr : (s.conn e).Reads) (hc : (s.conn e.other).Cut (s.conn e).handed) :
    s.Transparent e := by
  unfold Transparent
  split_ifs with hraw
  · obtain ⟨req, w, hs, hsent⟩ := reads_of_raw hm hraw hr
    cases hc with
    | frames hf => simp [hm e.other, hraw, ws_of_raw hraw] at hf
    | raw _ _ ho => exact ⟨req, w, _, hs, hsent, ho.trans (List.prefix_append _ _)⟩
  · have hoff := framed_of_not_raw hm hraw
    have hframes : (s.conn e).handed <+: nonEmpty (s.conn e).frames.tail := by
      rw [hr.frames (hoff e)]
      exact nonEmpty_tail_mono (List.prefix_append _ _)
    cases hc with
    | frames _ ho => exact ho.trans hframes
    | raw hw hon => simp [hoff _ hw] at hon

end

theorem Live.transparent (h : s.Live) (e : End) : s.Transparent e :=
  transparent_of_cut h.mode (h.reads e) ((h.wrote e).cut (List.prefix_refl _))

theorem Live.conserved (h : s.Live) (hrel : s.relaying = true) (e : End) : s.Conserved e := by
  have hgot : (s.conn e).got ≠ [] := by simpa [Asked, hrel] using h.asked e
  unfold Conserved
  split_ifs with hraw
  · obtain ⟨req, w, hs, hsent⟩ := reads_of_raw h.mode hraw (h.reads e)
    refine ⟨req, w, hs, ?_⟩
    cases h.wrote e with
    | ws hw => simp [ws_of_raw hraw] at hw
    | framed hw hf => simp [h.mode _ hw, hraw] at hf
    | raw _ _ ho => rw [hsent, ho]
  · have hoff := framed_of_not_raw h.mode hraw
    rw [(h.reads e).frames (hoff e), (h.wrote e).received (hoff e.other), Conn.handed,
      List.tail_append_of_ne_nil hgot, nonEmpty_append]

theorem Transparent.grow {s' : RelaySys} (h : s.Transparent e) (hraw : s'.raw = s.raw)
    (ho : Conn.Quiet (s.conn e.other) (s'.conn e.other)) (hsent : (s.conn e).sent <+: (s'.conn e).sent)
    (hframes : (s.conn e).frames <+: (s'.conn e).frames) : s'.Transparent e := by
  unfold Transparent at *
  rw [hraw]
  by_cases hr : s.raw = true
  · rw [if_pos hr] at *
    obtain ⟨req, w, after, hs, hw, hp⟩ := h
    obtain ⟨more, hmore⟩ := hsent
    refine ⟨req, w, after ++ more, hs, ?_, ?_⟩
    · rw [← hmore, hw, List.append_assoc]
    · rw [ho.out]
      exact hp.trans (List.prefix_append _ _)
  · rw [if_neg hr] at *
    rw [ho.received]
    exact h.trans (nonEmpty_tail_mono hframes)

/-! ### The steps -/

theorem Live.quiet {s' : RelaySys} (h : s.Live) (hs : s'.conn = (s.setConn e c').conn)
    (hrel : s'.relaying = s.relaying) (hu : s'.uuid e.other = s.uuid e.other) (hr : c'.Reads)
    (hq : Conn.Quiet (s.conn e) c') (hg : c'.handed = (s.conn e).handed) (ha : s'.Asked e) :
    s'.Live := by
  have hsame : s'.conn e = c' := by rw [hs, setConn_same]
  have hother : s'.conn e.other = s.conn e.other := by rw [hs, setConn_other]
  have hraw : s'.raw = s.raw := raw_setConn hs hrel hq.ws
  refine ⟨e.both ?_ ?_, e.both ?_ ?_, e.both ?_ ?_, e.both ha ?_⟩
  · rwa [hsame]
  · rw [hother]
    exact h.reads _
  · rw [hsame, hother, hg]
    exact h.wrote _
  · have := h.wrote e.other
    rw [End.other_other] at this ⊢
    rw [hsame, hother]
    exact this.congr hq
  · rw [hsame, hraw, hq.ws, hq.raw]
    exact h.mode _
  · rw [hother, hraw]
    exact h.mode _
  · have := h.asked e.other
    unfold Asked at *
    rwa [hrel, hu, hother]

/-- Between the relay's own steps the clients send. -/
structure Inv (s : RelaySys) : Prop where
  transparent : ∀ e, s.Transparent e
  live : s.ended = false → s.Live

theorem Live.inv (h : s.Live) : s.Inv := ⟨h.transparent, fun _ => h⟩

theorem inv_start (ws : End → Bool) : (start ws).Inv := by
  apply Live.inv
  refine ⟨fun e => Conn.reads_start _, fun e => ?_, fun e hw => rfl, fun e => rfl⟩
  cases hw : ws e.other with
  | true => exact .ws hw rfl
  | false => exact .framed hw rfl .nil

theorem Inv.transparent_setConn (h : s.Inv) (hq : Conn.Quiet (s.conn e) c')
    (hsent : (s.conn e).sent <+: c'.sent) (hframes : (s.conn e).frames <+: c'.frames)
    {s' : RelaySys} (hs : s'.conn = (s.setConn e c').conn) (hrel : s'.relaying = s.relaying) :
    ∀ e', s'.Transparent e' := by
  have hraw := raw_setConn hs hrel hq.ws
  refine e.both ((h.transparent e).grow hraw ?_ ?_ ?_)
    ((h.transparent e.other).grow hraw ?_ ?_ ?_) <;> rw [hs]
  · rw [setConn_other]
    exact (Conn.polled_refl _).toQuiet
  · rwa [setConn_same]
  · rwa [setConn_same]
  · rwa [End.other_other, setConn_same]
  · rw [setConn_other]
  · rw [setConn_other]

theorem Inv.client (h : s.Inv) (hs : Conn.Sends (s.conn e) c') (hr : (s.conn e).Reads → c'.Reads) :
    (s.setConn e c').Inv := by
  refine ⟨h.transparent_setConn hs.toQuiet hs.sent hs.frames rfl rfl, fun hend => ?_⟩
  have hl := h.live hend
  refine hl.quiet rfl rfl rfl (hr (hl.reads e)) hs.toQuiet (by rw [Conn.handed, hs.got]; rfl) ?_
  have := hl.asked e
  unfold Asked at *
  rwa [setConn_same, hs.got, hs.codec, hs.ws]

theorem Inv.readRequest (h : s.Inv) (hend : s.ended = false) (hrel : s.relaying = false)
    (hu : (s.uuid e).isSome = false) (key : String) (parse : Bytes → Option RequestRelay) :
    (s.readRequest key parse e).Inv := by
  have hl := h.live hend
  have hgot : (s.conn e).got = [] := by simpa [Asked, hrel, hu] using hl.asked e
  obtain ⟨c', hp, hr, ⟨hrecv, hg⟩ | ⟨f, hrecv, hg, hstate⟩⟩ := Conn.recv_cases (hl.reads e)
  · -- nothing yet
    have hstep : s.readRequest key parse e = s.setConn e c' := by simp [RelaySys.readRequest, hrecv]
    rw [hstep]
    apply Live.inv
    refine hl.quiet rfl rfl rfl hr hp.toQuiet (by rw [Conn.handed, hg]; rfl) ?_
    simp [Asked, setConn, hrel, hu, hg, hgot]
  · cases hreq : requestUuid key parse f with
    | none =>
      have hstep : s.readRequest key parse e = { s.setConn e c' with ended := true } := by
        simp [RelaySys.readRequest, hrecv, hreq]
      rw [hstep]
      exact ⟨h.transparent_setConn hp.toQuiet (by rw [hp.sent]) (by rw [hp.frames]) rfl rfl, nofun⟩
    | some u =>
      have hstep : s.readRequest key parse e =
          { s.setConn e c' with uuid := Function.update s.uuid e (some u) } := by
        simp [RelaySys.readRequest, hrecv, hreq]
      rw [hgot, List.nil_append] at hg
      rw [hstep]
      apply Live.inv
      refine hl.quiet rfl rfl ?_ hr hp.toQuiet (by simp [Conn.handed, hg, hgot]) ?_
      · exact Function.update_of_ne e.other_ne ..
      · simp [Asked, hrel, hg, setConn]
        intro hw hf
        exact hstate (hp.ws.symm.trans hw) (hp.raw.symm.trans hf)

/-- Two plain connections, each with its request read: they stop framing and relay. -/
theorem Live.setRaw (hl : s.Live) (hws : ∀ e, (s.conn e).ws = false)
    (hasked : ∀ e, ∃ req, (s.conn e).got = [req] ∧
      ((s.conn e).codec.raw = false → (s.conn e).codec.state = .head)) :
    ({ s with conn := fun e => (s.conn e).setRaw, relaying := true } : RelaySys).Live := by
  have hset : ∀ e, (s.conn e).setRaw = { s.conn e with codec := (s.conn e).codec.setRaw } := by
    intro e
    simp [Conn.setRaw, hws e]
  have hraw : ({ s with conn := fun e => (s.conn e).setRaw, relaying := true } : RelaySys).raw =
      true := by
    simp [raw, hset, hws]
  have hnone : ∀ e, (s.conn e).handed = [] := by
    intro e
    obtain ⟨req, hg, -⟩ := hasked e
    simp [Conn.handed, hg, nonEmpty]
  refine ⟨fun e => ?_, fun e => ?_, fun e _ => ?_, fun e => ?_⟩
  · obtain ⟨req, hg, hs⟩ := hasked e
    exact (hl.reads e).setRaw (hws e) hg hs
  · -- nothing was handed on before
    have hwrote := hl.wrote e
    rw [hnone] at hwrote
    have hout : (s.conn e.other).out = [] := by
      cases hwrote with
      | ws hw => simp [hws] at hw
      | framed _ _ hs => exact hs.eq_nil
      | raw _ _ ho => simpa using ho
    have hhand : (s.conn e).setRaw.handed = [] := by
      rw [hset]
      exact hnone e
    show ((s.conn e.other).setRaw).Wrote (s.conn e).setRaw.handed
    rw [hhand, hset]
    exact .raw (hws _) rfl hout
  · show (s.conn e).setRaw.codec.raw = _
    rw [hraw, hset]
    rfl
  · obtain ⟨req, hg, -⟩ := hasked e
    simp [Asked, hset, hg]

theorem Inv.makePair (h : s.Inv) (hend : s.ended = false) (hrel : s.relaying = false)
    (hu : ∀ e, (s.uuid e).isSome = true) : s.makePair.Inv := by
  have hl := h.live hend
  have hasked : ∀ e, ∃ req, (s.conn e).got = [req] ∧
      ((s.conn e).ws = false → (s.conn e).codec.raw = false → (s.conn e).codec.state = .head) := by
    intro e
    simpa [Asked, hrel, hu e] using hl.asked e
  apply Live.inv
  unfold RelaySys.makePair
  split_ifs with hboth
  · have hws : ∀ e, (s.conn e).ws = false := by
      simp only [Bool.and_eq_true, Bool.not_eq_true'] at hboth
      intro e
      cases e
      · exact hboth.2
      · exact hboth.1
    refine hl.setRaw hws fun e => ?_
    obtain ⟨req, hg, hs⟩ := hasked e
    exact ⟨req, hg, hs (hws e)⟩
  · have hunraw : s.raw = false := by simp [raw, hrel]
    have hraw : ({ s with relaying := true } : RelaySys).raw = false := by
      simpa [raw] using hboth
    refine ⟨hl.reads, hl.wrote, fun e hw => ?_, fun e => ?_⟩
    · rw [hraw, ← hunraw]
      exact hl.mode e hw
    · obtain ⟨req, hg, -⟩ := hasked e
      simp [Asked, hg]

/-- Connection `e` was polled and its frame written to the other: what holds
whether the write succeeded or not. -/
structure Passed (s s' : RelaySys) (e : End) : Prop where
  polled : Conn.Polled (s.conn e) (s'.conn e)
  reads : (s'.conn e).Reads
  got : (s'.conn e).got ≠ []
  written : Conn.Written (s.conn e.other) (s'.conn e.other)
  relaying : s'.relaying = s.relaying

namespace Passed

variable {s' : RelaySys}

variable (hp : Passed s s' e)

include hp

theorem ws : ∀ e', (s'.conn e').ws = (s.conn e').ws := e.both hp.polled.ws hp.written.ws

theorem raw : s'.raw = s.raw := by
  unfold RelaySys.raw
  rw [hp.ws, hp.ws, hp.relaying]

theorem mode (hl : s.Live) (e' : End) (hw : (s'.conn e').ws = false) :
    (s'.conn e').codec.raw = s'.raw := by
  rw [hp.raw, ← hl.mode e' ((hp.ws e').symm.trans hw)]
  rcases e.eq_or e' with rfl | rfl
  · exact hp.polled.raw
  · rw [hp.written.codec]

theorem live (hl : s.Live) (hrel : s.relaying = true)
    (hw : (s'.conn e.other).Wrote (s'.conn e).handed) : s'.Live := by
  refine ⟨e.both hp.reads (hp.written.reads (hl.reads _)), e.both hw ?_, hp.mode hl, fun e' => ?_⟩
  · have hback := hl.wrote e.other
    rw [End.other_other] at hback ⊢
    rw [Conn.handed, hp.written.got]
    exact hback.congr hp.polled.toQuiet
  · have hask := hl.asked e.other
    unfold Asked at *
    rw [hp.relaying]
    rw [if_pos hrel] at *
    rw [← hp.written.got] at hask
    revert e'
    exact e.both hp.got hask

theorem transparent (hl : s.Live)
    (hc : (s'.conn e.other).Cut (s'.conn e).handed) (e' : End) : s'.Transparent e' := by
  rcases e.eq_or e' with rfl | rfl
  · exact transparent_of_cut (hp.mode hl) hp.reads hc
  -- the other way nothing has moved
  have hquiet := hp.polled.toQuiet
  apply (hl.transparent e.other).grow hp.raw
  · rwa [End.other_other]
  · rw [hp.written.sent]
  · unfold Conn.frames
    rw [hp.written.ws, hp.written.said, hp.written.sent]

end Passed

theorem Inv.relay (h : s.Inv) (hend : s.ended = false) (hrel : s.relaying = true) (e : End)
    (fails : Option ℕ) : (s.relay e fails).Inv := by
  have hl := h.live hend
  have hgot : (s.conn e).got ≠ [] := by simpa [Asked, hrel] using hl.asked e
  have hquiet : ∀ c', Conn.Polled (s.conn e) c' → c'.Reads → c'.handed = (s.conn e).handed →
      c'.got ≠ [] → (s.setConn e c').Inv := by
    intro c' hp hr hh hg
    exact (hl.quiet rfl rfl rfl hr hp.toQuiet hh (by simp [Asked, setConn, hrel, hg])).inv
  obtain ⟨c', hp, hr, ⟨hrecv, hg⟩ | ⟨f, hrecv, hg, -⟩⟩ := Conn.recv_cases (hl.reads e)
  · -- nothing yet
    have hstep : s.relay e fails = s.setConn e c' := by simp [RelaySys.relay, hrecv]
    rw [hstep]
    exact hquiet c' hp hr (by rw [Conn.handed, hg]; rfl) (by rwa [hg])
  have hasked : c'.got ≠ [] := by simp [hg]
  have hhand : c'.handed = (s.conn e).handed ++ nonEmpty [f] := by
    rw [Conn.handed, hg, List.tail_append_of_ne_nil hgot, nonEmpty_append]
    rfl
  by_cases hf : f = []
  · -- an empty frame is dropped
    have hstep : s.relay e fails = s.setConn e c' := by simp [RelaySys.relay, hrecv, hf]
    rw [hstep]
    exact hquiet c' hp hr (by simp [hhand, hf, nonEmpty]) hasked
  have hone : nonEmpty [f] = [f] := by simp [nonEmpty, hf]
  rw [hone] at hhand
  obtain ⟨d, hd, hsend⟩ := Conn.sendRaw_cases (hl.wrote e) fails f
  have hpoll : ((s.setConn e c').setConn e.other d).conn e = c' := by
    have hsame := setConn_other (s.setConn e c') e.other d
    rwa [End.other_other, setConn_same] at hsame
  have hwrite : ((s.setConn e c').setConn e.other d).conn e.other = d := setConn_same ..
  have hpassed : ∀ b, Passed s { (s.setConn e c').setConn e.other d with ended := b } e := fun b =>
    ⟨by rwa [hpoll], by rwa [hpoll], by rwa [hpoll], by rwa [hwrite], rfl⟩
  rcases hsend with ⟨hok, hw⟩ | ⟨hok, hc⟩
  · have hstep : s.relay e fails = { (s.setConn e c').setConn e.other d with ended := false } := by
      simp [RelaySys.relay, hrecv, hf, hok]
    rw [hstep]
    apply Live.inv
    apply (hpassed false).live hl hrel
    rwa [hpoll, hwrite, hhand]
  · have hstep : s.relay e fails = { (s.setConn e c').setConn e.other d with ended := true } := by
      simp [RelaySys.relay, hrecv, hf, hok]
    rw [hstep]
    refine ⟨(hpassed true).transparent hl ?_, nofun⟩
    rwa [hpoll, hwrite, hhand]

theorem inv_step (key : String) (parse : Bytes → Option RequestRelay) (s : RelaySys) (i : Input)
    (h : s.Inv) : (step key parse s i).Inv := by
  cases i with
  | clientSends e bytes =>
    exact h.client (Conn.sends_clientSends _ bytes) fun hr => hr.clientSends bytes
  | clientSays e m => exact h.client (Conn.sends_clientSays _ m) fun hr => hr.clientSays m
  | arrive e n => exact h.client (Conn.sends_arrive _ n) fun hr => hr.arrive n
  | recv e fails =>
    rw [step]
    split_ifs with hend hrel hu
    · exact h
    · exact h.relay (by simpa using hend) hrel e fails
    · exact h
    · exact h.readRequest (by simpa using hend) (by simpa using hrel) (by simpa using hu) key parse
  | pair =>
    rw [step]
    split_ifs with hon hu
    · exact h
    · simp only [Bool.or_eq_true, not_or, Bool.not_eq_true] at hon
      refine h.makePair hon.1 hon.2 fun e => ?_
      cases e
      · exact hu.1
      · rw [← hu.2]
        exact hu.1
    · exact h
  | finish => exact ⟨fun e => (h.transparent e).grow rfl (Conn.polled_refl _).toQuiet
      (List.prefix_refl _) (List.prefix_refl _), nofun⟩

def requestBytes : Bytes := [0x92, 0x01, 0x03, 0x12, 0x01, 0x75]

def parseRequest (bytes : Bytes) : Option RequestRelay :=
  if bytes = requestBytes then some ⟨"", "u"⟩ else none

/-- Two TCP clients; the first sends five bytes right behind its request, and
they are in the decoder's buffer, one of them missing, when the pair is made. -/
def bufferedRun : List Input :=
  [.clientSends .peer (0x18 :: requestBytes ++ [1, 2, 3, 4, 5]), .arrive .peer 11, .recv .peer none,
    .clientSends .stream (0x18 :: requestBytes), .arrive .stream 7, .recv .stream none, .pair,
    .recv .peer none, .clientSends .stream [9], .arrive .peer 1, .arrive .stream 1,
    .recv .stream none]

end RelaySys

end CodeDesk.Server
