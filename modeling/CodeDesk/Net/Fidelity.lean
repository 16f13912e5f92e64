/-
# The bytes a tunnel delivers

Both ends of a tunnel leave the messages for raw bytes on their own, so a message
under way at that time, or sent after it, comes out as application data. The
server waits for the answer to its test delay before it leaves after a message,
but not after a click of the connection manager, and neither end waits for any
other message of the other.

`Orderly` is the condition that no message is caught so. In a run whose steps
are all orderly the target gets a prefix of what the application wrote, the
application a prefix of what the target wrote, and only messages are parsed
(`faithful_run`). The invariant has three parts: what the pipes hold (`Wired`),
which messages and raw bytes may be under way in which stages (`Order`), and
that no byte is lost on the way (`Counted`).
-/
import CodeDesk.Net.Order
import CodeDesk.Net.Wiring

namespace CodeDesk.Net

open Sealing

def Outcome.replies : Outcome → List Notice
  | .stay replies => replies
  | .granted => []
  | .closed replies => replies

namespace Tunnel

variable {S : Box} {P : Proto} {t : Tunnel S} {u d : List Msg} {ru rd : Bytes}

/-! ### The condition -/

def unheard (t : Tunnel S) : List Msg := t.clientSaid.drop t.serverHeard.length

/-- No message is caught by a change to raw bytes: the client sends none once the
server forwards; when the server leaves its main loop after a message, it has
read all others; when it leaves at a click, it has read all and no test delay is
unanswered; and after the peer info it sends no other message. -/
def Orderly (t : Tunnel S) : Event → Prop
  | .clientNext login _ => t.client.stage = .talk → login = true → t.server.stage ≠ .forward
  | .clientSay _ => t.server.stage ≠ .forward
  | .serverNext o => t.server.stage = .talk →
    (t.server.authorized = true → o.replies = []) ∧
      ((t.server.authorized = true ∨ o = .granted) →
        (t.server.lastTestDelay = false ∨ t.unheard.head? = some (.testDelay false)) →
        t.unheard.length ≤ 1)
  | .authorize o => t.server.stage = .talk → (t.server.authorized = true ∨ o = .granted) →
    t.server.lastTestDelay = false ∧ t.unheard = []
  | .serverSay _ => t.server.stage = .talk → t.server.authorized = false
  | .serverClose replies => t.server.stage = .talk → t.server.authorized = true → replies = []
  | _ => True

instance (t : Tunnel S) : ∀ i, Decidable (t.Orderly i)
  | .clientNext _ _ => inferInstanceAs (Decidable (_ → _ → _))
  | .clientSay _ => inferInstanceAs (Decidable (_ ≠ _))
  | .serverNext _ => inferInstanceAs (Decidable (_ → _ ∧ _))
  | .authorize _ => inferInstanceAs (Decidable (_ → _ → _))
  | .serverSay _ => inferInstanceAs (Decidable (_ → _))
  | .serverClose _ => inferInstanceAs (Decidable (_ → _ → _))
  | .appWrite _ => .isTrue trivial
  | .targetWrite _ => .isTrue trivial
  | .arriveUp _ => .isTrue trivial
  | .arriveDown _ => .isTrue trivial
  | .clientRead _ => .isTrue trivial
  | .serverRead _ => .isTrue trivial
  | .clientClose => .isTrue trivial
  | .testDelayTick => .isTrue trivial

/-! ### The invariant -/

/-- Every byte of the application is with the target, under way, or not sent yet,
and likewise the other way. -/
structure Counted (t : Tunnel S) (ru rd : Bytes) : Prop where
  app : ∃ rest, t.app.wrote = t.target.got ++ (ru ++ rest) ∧
    (t.client.stage = .talk → rest = t.client.buffer ++ t.app.pending) ∧
    (t.client.stage = .forward → rest = t.app.pending)
  target : ∃ rest, t.target.wrote = t.app.got ++ (rd ++ rest) ∧
    (t.server.stage ≠ .closed → rest = t.target.pending)

theorem Counted.closeClient (h : Counted t ru rd) : Counted t.closeClient ru rd := by
  obtain ⟨rest, hw, -⟩ := h.app
  exact ⟨⟨rest, hw, nofun, nofun⟩, h.target⟩

theorem Counted.closeServer (h : Counted t ru rd) : Counted t.closeServer ru rd := by
  obtain ⟨rest, hw, -⟩ := h.target
  exact ⟨h.app, rest, hw, fun hs => absurd rfl hs⟩

theorem Counted.startForward (h : Counted t ru rd) (hc : t.client.stage = .talk) :
    Counted t.startForward (ru ++ t.client.buffer) rd := by
  obtain ⟨rest, hw, ht, -⟩ := h.app
  have happ : t.app.wrote = t.target.got ++ (ru ++ t.client.buffer ++ t.app.pending) := by
    rw [hw, ht hc, List.append_assoc]
  unfold Tunnel.startForward
  dsimp only
  split <;> exact ⟨⟨t.app.pending, happ, nofun, fun _ => rfl⟩, h.target⟩

theorem Counted.leave (h : Counted t ru rd) (hs : t.server.stage ≠ .closed)
    (hp : t.server.portForwardSocket = true) : Counted t.leave ru rd := by
  obtain ⟨rest, hwrote, hrest⟩ := h.target
  rw [Tunnel.leave, if_pos hp]
  exact ⟨h.app, rest, hwrote, fun _ => hrest hs⟩

structure Inv (P : Proto) (t : Tunnel S) (u d : List Msg) (ru rd : Bytes) : Prop where
  wired : Wired P t u d ru rd
  order : Order t.client.stage t.server.stage t.server.authorized t.server.portForwardSocket
    t.server.lastTestDelay u d ru rd
  counted : Counted t ru rd

def Held (P : Proto) (t : Tunnel S) : Prop := ∃ u d ru rd, Inv P t u d ru rd

theorem serverSendAll_frame (ms : List Msg) (t : Tunnel S) :
    ∃ stream, (t.serverSendAll P ms).server = { t.server with stream := stream } ∧
      (t.serverSendAll P ms).client = t.client ∧ (t.serverSendAll P ms).app = t.app ∧
      (t.serverSendAll P ms).target = t.target := by
  induction ms generalizing t with
  | nil => exact ⟨_, rfl, rfl, rfl, rfl⟩
  | cons m ms ih =>
    obtain ⟨stream, hs, hc, ha, ht⟩ := ih (t.serverSend P m)
    exact ⟨stream, hs, hc, ha, ht⟩

theorem afterMessage_leave (hp : t.server.portForwardSocket = true)
    (ha : t.server.authorized = true) (hd : t.server.lastTestDelay = false) :
    afterMessage (t, true) = t.leave := by
  rw [afterMessage, if_neg nofun, if_pos]
  simp [hp, ha, hd]

theorem leave_eq (hp : t.server.portForwardSocket = true) : t.leave =
      { t with server := { t.server with stream := t.server.stream.setRaw, stage := .forward } } :=
  if_pos hp

theorem held_start (P : Proto) (kind : Kind) (key : Option S.Key) : Held P (start kind key) := by
  refine ⟨[], [], [], [], wired_start P kind key, .start, ?_⟩
  exact ⟨⟨[], rfl, fun _ => rfl, nofun⟩, [], rfl, fun _ => rfl⟩

variable {m : Msg} {login keep : Bool} {o : Outcome}

section

variable (h : Inv P t u d ru rd)

include h

theorem Inv.unheard_eq : t.unheard = u := by
  have hlog := congrArg (List.drop t.serverHeard.length) h.wired.up.log
  rw [List.drop_left, ← List.map_drop] at hlog
  -- Different messages are written differently.
  have hinj : Function.Injective P.write := by
    intro x y hxy
    have := congrArg P.parse hxy
    rwa [P.parse_write, P.parse_write, Option.some.injEq] at this
  exact List.map_injective_iff.2 hinj hlog

theorem Inv.held : Held P t := ⟨u, d, ru, rd, h⟩

theorem Inv.closeClient : Inv P t.closeClient u d ru rd :=
  ⟨h.wired.closeClient, h.order.closeClient, h.counted.closeClient⟩

theorem Inv.closeServer : Inv P t.closeServer u d ru rd :=
  ⟨h.wired.closeServer, h.order.closeServer, h.counted.closeServer⟩

theorem Inv.clientSend (hc : t.client.stage = .talk) (hs : t.server.stage ≠ .forward)
    (hm : m ≠ .testDelay false) : Inv P (t.clientSend P m) (u ++ [m]) d ru rd :=
  ⟨h.wired.clientSend hc hs (h.order.clientTalk hc) m, h.order.say hs hm,
    h.counted.app, h.counted.target⟩

theorem Inv.clientKeep (hc : t.client.stage = .talk) (n : ℕ) : Inv P (t.clientKeep n) u d ru rd:= by
  obtain ⟨rest, hwrote, htalk, -⟩ := h.counted.app
  have hw := h.wired
  refine ⟨{ hw with }, h.order, ⟨rest, hwrote, fun _ => ?_, fun hf => ?_⟩, h.counted.target⟩
  · show rest = t.client.buffer ++ t.app.pending.take n ++ t.app.pending.drop n
    rw [htalk hc, List.append_assoc, List.take_append_drop]
  · cases hc.symm.trans hf

theorem Inv.clientPass (hc : t.client.stage = .forward) {n : ℕ} (hb : t.app.pending.take n ≠ []) :
    Inv P (t.clientPass n) u d (ru ++ t.app.pending.take n) rd := by
  obtain ⟨rest, hwrote, -, hforward⟩ := h.counted.app
  have hw := h.wired
  have hgot : Wired P { t with app := { t.app with pending := t.app.pending.drop n } } u d ru rd :=
    { hw with }
  refine ⟨hgot.clientSendBytes hc hb, ?_,
    ⟨t.app.pending.drop n, ?_, fun hf => ?_, fun _ => rfl⟩, h.counted.target⟩
  · have ho := h.order
    show Order t.client.stage _ _ _ _ _ _ _ _
    rw [hc] at ho ⊢
    exact ho.clientPuts _
  · show t.app.wrote = t.target.got ++ (ru ++ t.app.pending.take n ++ t.app.pending.drop n)
    rw [hwrote, hforward hc, List.append_assoc, List.take_append_drop]
  · cases hc.symm.trans hf

theorem Inv.client_ne_forward (ha : t.server.authorized = false) : t.client.stage ≠ .forward:= by
  intro hc
  cases ha.symm.trans (h.order.clientForward hc).2

variable (hs : t.server.stage = .talk)

include hs

theorem Inv.notify (ha : t.server.authorized = false) (ns : List Notice) :
    Inv P (t.serverSendAll P (ns.map Notice.msg)) u (d ++ ns.map Notice.msg) ru rd := by
  have hns : ∀ m : Msg, m = .peerInfo ∨ m = .testDelay false → m ∉ ns.map Notice.msg := by
    intro m hm hmem
    obtain ⟨n, -, rfl⟩ := List.mem_map.1 hmem
    cases n <;> rcases hm with hm | hm <;> cases hm
  have ho := h.order
  rw [hs, ha] at ho
  obtain ⟨stream, hserver, hclient, happ, htarget⟩ :=
    serverSendAll_frame (P := P) (ns.map Notice.msg) t
  refine ⟨h.wired.serverSendAll hs (h.client_ne_forward ha) (ho.serverTalk rfl).1 _, ?_, ?_⟩
  · rw [hserver, hclient, hs, ha]
    exact ho.notify ⟨hns _ (.inl rfl), hns _ (.inr rfl)⟩
  · constructor
    · rw [happ, htarget, hclient]
      exact h.counted.app
    · rw [happ, htarget, hserver]
      exact h.counted.target

theorem held_replies (ns : List Notice) (hn : t.server.authorized = true → ns = []) :
    ∃ d', Inv P (t.serverSendAll P (ns.map Notice.msg)) u d' ru rd ∧
      (t.serverSendAll P (ns.map Notice.msg)).server.authorized = t.server.authorized ∧
      (t.serverSendAll P (ns.map Notice.msg)).server.stage = .talk := by
  obtain ⟨stream, hserver, -⟩ := serverSendAll_frame (P := P) (ns.map Notice.msg) t
  rw [hserver]
  cases ha : t.server.authorized with
  | true =>
    obtain rfl := hn ha
    exact ⟨d, h, rfl, hs⟩
  | false => exact ⟨_, h.notify hs ha ns, rfl, hs⟩

theorem Inv.afterMessage : afterMessage (t, true) = t:= by
  have hw := (h.order.serverTalk hs).2.2
  rw [Tunnel.afterMessage, if_neg nofun, if_neg]
  intro hc
  simp only [Bool.and_eq_true, Bool.not_eq_true'] at hc
  cases (hw hc.1.2).symm.trans hc.2

theorem Inv.grant (ha : t.server.authorized = false) (hl : t.server.lastTestDelay = true) :
    Inv P (t.grant P) u (d ++ [.peerInfo]) ru rd := by
  have ho := h.order
  rw [hs, ha, hl] at ho
  refine ⟨h.wired.grant hs (h.client_ne_forward ha) (ho.serverTalk rfl).1, ?_, h.counted.app,
    h.counted.target⟩
  show Order t.client.stage t.server.stage true true t.server.lastTestDelay _ _ _ _
  rw [hs, hl]
  exact ho.grant

end

/-! ### Steps of the client -/

theorem held_clientSay (h : Held P t) (x : UiData) (ho : t.server.stage ≠ .forward) :
    Held P (t.clientSay P x) := by
  obtain ⟨u, d, ru, rd, hi⟩ := h
  unfold clientSay
  split
  case isTrue hc =>
    have hm : x.msg ≠ .testDelay false := by cases x <;> nofun
    exact (hi.clientSend hc ho hm).held
  case isFalse => exact hi.held

theorem held_clientMessage (hc : t.client.stage = .talk) (hw : Wired P t u d ru rd)
    (ho : Order .talk t.server.stage t.server.authorized t.server.portForwardSocket
      t.server.lastTestDelay u (m :: d) ru rd)
    (hn : Counted t ru rd) (hl : login = true → t.server.stage ≠ .forward) :
    Held P (t.clientMessage P login keep m) := by
  have hear : m ≠ .peerInfo → m ≠ .testDelay false → Inv P t u d ru rd := by
    intro hp hm
    refine ⟨hw, ?_, hn⟩
    rw [hc]
    exact ho.clientHears hp hm
  cases m with
  | hash =>
    have hi := hear nofun nofun
    cases login with
    | false => exact hi.held
    | true => exact ⟨_, _, _, _, hi.clientSend hc (hl rfl) nofun⟩
  | loginError =>
    have hi := hear nofun nofun
    cases keep with
    | false => exact hi.closeClient.held
    | true => exact hi.held
  | testDelay fromClient =>
    cases fromClient with
    | true => exact (hear nofun nofun).held
    | false =>
      obtain ⟨hs, ho'⟩ := ho.clientAnswers
      rw [← hc] at ho'
      exact ⟨_, _, _, _, hw.clientSend hc hs (ho.clientTalk rfl) _, ho', hn.app, hn.target⟩
  | peerInfo =>
    obtain ⟨rfl, ho'⟩ := ho.clientLeaves t.client.buffer
    refine ⟨_, _, _, _, hw.startForward (by rw [hc]; nofun), ?_, hn.startForward hc⟩
    have hst : t.startForward.client.stage = .forward ∧ t.startForward.server = t.server := by
      unfold startForward
      dsimp only
      split <;> exact ⟨rfl, rfl⟩
    show Order t.startForward.client.stage t.startForward.server.stage _ _ _ _ _ _ _
    rw [hst.1]
    simpa only [clientMessage, hst.2] using ho'
  | loginRequest | other => exact (hear nofun nofun).held

theorem held_clientNext (h : Held P t)
    (hl : t.client.stage = .talk → login = true → t.server.stage ≠ .forward) :
    Held P (t.clientNext P login keep) := by
  obtain ⟨u, d, ru, rd, hi⟩ := h
  have hclosed : Held P t.clientGot.closeClient :=
    ⟨u, d, ru, rd, hi.wired.clientGot_closed, hi.order.closeClient,
      ({ hi.counted with } : Counted t.clientGot ru rd).closeClient⟩
  unfold clientNext
  cases hc : t.client.stage with
  | closed => exact hi.held
  | talk =>
    have ho := hi.order
    rw [hc] at ho
    cases d with
    | nil =>
      obtain rfl := ho.rawDown_nil
      obtain ⟨ha, hg⟩ := hi.wired.clientGot_none hc
      rw [ha, hg]
      exact hi.held
    | cons =>
      rcases hi.wired.clientGot hc with he | ⟨ha, hw⟩ | ⟨hm, hw⟩
      · rwa [he]
      · rw [ha]
        exact ⟨_, _, _, _, hw, hi.order, { hi.counted with }⟩
      · rw [hm]
        dsimp only [clientTalk]
        rw [P.parse_write]
        exact held_clientMessage hc hw ho { hi.counted with } (hl hc)
  | forward =>
    obtain ⟨rfl, -⟩ := hi.order.clientForward hc
    rcases hi.wired.clientGot_raw hc with he | ⟨ha, hw⟩ | ⟨bytes, rest, rfl, hb, hw⟩
    · rwa [he]
    · rw [ha]
      exact ⟨_, _, _, _, hw, hi.order, { hi.counted with }⟩
    · rw [hb]
      obtain ⟨left, hwrote, hleft⟩ := hi.counted.target
      refine ⟨_, _, _, _, { hw with }, hi.order.clientGets, hi.counted.app, left, ?_, hleft⟩
      show t.target.wrote = t.app.got ++ bytes ++ (rest ++ left)
      rw [hwrote]
      simp

theorem held_clientRead (h : Held P t) (n : ℕ) : Held P (t.clientRead n) := by
  obtain ⟨u, d, ru, rd, hi⟩ := h
  unfold clientRead
  split_ifs with hb
  · exact hi.held
  · cases hc : t.client.stage with
    | closed => exact hi.held
    | talk => exact (hi.clientKeep hc n).held
    | forward => exact (hi.clientPass hc hb).held

/-! ### Steps of the server -/

theorem Inv.grant_leave (h : Inv P t [] d ru rd) (hs : t.server.stage = .talk)
    (ha : t.server.authorized = false) (hl : t.server.lastTestDelay = false) :
    Inv P (t.grant P).leave [] (d ++ [.peerInfo]) ru rd := by
  have ho := h.order
  rw [hs, ha, hl] at ho
  have hne : (t.grant P).server.stage ≠ .closed := fun hc => nomatch hs.symm.trans hc
  have hw := h.wired.grant hs (h.client_ne_forward ha) (ho.serverTalk rfl).1
  have hn : Counted (t.grant P) ru rd := { h.counted with }
  refine ⟨hw.leave hne rfl, ?_, hn.leave hne rfl⟩
  rw [leave_eq rfl]
  show Order t.client.stage .forward true true t.server.lastTestDelay _ _ _ _
  rw [hl]
  exact ho.grantAndLeave

/-- What follows from the outcome of a message that is no test delay. -/
theorem held_settle (h : Inv P t u d ru rd) (hs : t.server.stage = .talk)
    (hn : t.server.authorized = true → o.replies = [])
    (hl : o = .granted → t.server.lastTestDelay = false → u = []) :
    Held P (afterMessage (t.settle P o)) := by
  cases o with
  | stay ns =>
    obtain ⟨d', hi, -, hs'⟩ := held_replies h hs ns hn
    dsimp only [settle]
    rw [hi.afterMessage hs']
    exact hi.held
  | closed ns =>
    obtain ⟨d', hi, -, -⟩ := held_replies h hs ns hn
    exact hi.closeServer.closeServer.held
  | granted =>
    dsimp only [settle]
    cases ha : t.server.authorized with
    | true =>
      rw [if_pos rfl, h.afterMessage hs]
      exact h.held
    | false =>
      rw [if_neg (by decide)]
      cases hd : t.server.lastTestDelay with
      | true =>
        have hi := h.grant hs ha hd
        rw [hi.afterMessage hs]
        exact hi.held
      | false =>
        obtain rfl := hl rfl hd
        have hleave : afterMessage (t.grant P, true) = (t.grant P).leave :=
          afterMessage_leave rfl rfl hd
        rw [hleave]
        exact (h.grant_leave hs ha hd).held

theorem held_onMessage (hs : t.server.stage = .talk) (hw : Wired P t u d ru rd)
    (ho : Order t.client.stage .talk t.server.authorized t.server.portForwardSocket
      t.server.lastTestDelay (m :: u) d ru rd)
    (hn : Counted t ru rd) (hr : t.server.authorized = true → o.replies = [])
    (hl : (t.server.authorized = true ∨ o = .granted) →
      (t.server.lastTestDelay = false ∨ m = .testDelay false) → u = []) :
    Held P (afterMessage (t.onMessage P o m)) := by
  have hear : m ≠ .testDelay false → Inv P t u d ru rd := by
    intro hm
    refine ⟨hw, ?_, hn⟩
    rw [hs]
    exact ho.serverHears hm
  have hsettle : m ≠ .testDelay false → Held P (afterMessage (t.settle P o)) := fun hm =>
    held_settle (hear hm) hs hr fun hg hd => hl (.inr hg) (.inl hd)
  cases m with
  | testDelay fromClient =>
    cases fromClient with
    | true =>
      have hi := hear nofun
      dsimp only [onMessage]
      rw [if_pos rfl, hi.afterMessage hs]
      exact hi.held
    | false =>
      dsimp only [onMessage]
      rw [if_neg (by decide)]
      -- The answer: the server goes on talking, or it has waited for this.
      cases ha : t.server.authorized with
      | false =>
        have hi : Inv P t.delayAnswered u d ru rd := by
          refine ⟨hw.flags _ _ false, ?_, hn.app, hn.target⟩
          show Order t.client.stage t.server.stage t.server.authorized _ _ _ _ _ _
          rw [ha] at ho
          rw [hs, ha]
          exact ho.serverHearsAnswer
        rw [hi.afterMessage hs]
        exact hi.held
      | true =>
        obtain rfl := hl (.inl ha) (.inr rfl)
        have hp : t.server.portForwardSocket = true := by rw [(ho.serverTalk rfl).2.1, ha]
        have hne : t.server.stage ≠ .closed := by rw [hs]; nofun
        have hleave : afterMessage (t.delayAnswered, true) = t.delayAnswered.leave :=
          afterMessage_leave hp ha rfl
        have hn' : Counted t.delayAnswered ru rd := { hn with }
        rw [hleave]
        refine ⟨_, _, _, _, Wired.leave (hw.flags _ _ false) hne hp, ?_, hn'.leave hne hp⟩
        rw [leave_eq (t := t.delayAnswered) hp]
        show Order t.client.stage .forward t.server.authorized _ false _ _ _ _
        rw [ha] at ho ⊢
        exact ho.serverLeaves
  | _ => exact hsettle nofun

section

variable (h : Held P t)

include h

theorem held_serverNext (hord : t.Orderly (.serverNext o)) : Held P (t.serverNext P o) := by
  obtain ⟨u, d, ru, rd, hi⟩ := h
  have hclosed : Held P t.serverGot.closeServer :=
    ⟨u, d, ru, rd, hi.wired.serverGot_closed, hi.order.closeServer,
      ({ hi.counted with } : Counted t.serverGot ru rd).closeServer⟩
  unfold serverNext
  cases hs : t.server.stage with
  | closed => exact hi.held
  | talk =>
    obtain ⟨hr, hl⟩ := hord hs
    rw [hi.unheard_eq] at hl
    have ho := hi.order
    rw [hs] at ho
    cases u with
    | nil =>
      obtain rfl := ho.rawUp_nil
      obtain ⟨ha, hg⟩ := hi.wired.serverGot_none hs
      rw [ha, hg]
      exact hi.held
    | cons =>
      rcases hi.wired.serverGot hs with he | ⟨ha, hw⟩ | ⟨hm, hw⟩
      · rwa [he]
      · rw [ha]
        exact ⟨_, _, _, _, hw, hi.order, { hi.counted with }⟩
      · rw [hm]
        dsimp only [serverTalk]
        rw [P.parse_write]
        refine held_onMessage hs hw ho { hi.counted with } hr ?_
        intro hg hd
        have hlen := hl hg (hd.imp_right fun hm => by rw [hm]; rfl)
        rw [List.length_cons] at hlen
        exact List.length_eq_zero_iff.1 (by omega)
  | forward =>
    obtain ⟨rfl, -⟩ := hi.order.serverForward hs
    rcases hi.wired.serverGot_raw hs with he | ⟨ha, hw⟩ | ⟨bytes, rest, rfl, hb, hw⟩
    · rwa [he]
    · rw [ha]
      exact ⟨_, _, _, _, hw, hi.order, { hi.counted with }⟩
    · rw [hb]
      obtain ⟨left, hwrote, hleft⟩ := hi.counted.app
      refine ⟨_, _, _, _, { hw with }, hi.order.serverGets, ⟨left, ?_, hleft⟩, hi.counted.target⟩
      show t.app.wrote = t.target.got ++ bytes ++ (rest ++ left)
      rw [hwrote]
      simp

theorem held_authorize (hord : t.Orderly (.authorize o)) : Held P (t.authorize P o) := by
  obtain ⟨u, d, ru, rd, hi⟩ := h
  unfold authorize
  split
  case isFalse => exact hi.held
  case isTrue hs =>
    have hleave := hord hs
    have hwait := (hi.order.serverTalk hs).2
    rw [hi.unheard_eq] at hleave
    unfold click
    cases ha : t.server.authorized with
    | true =>
      -- It waits for an answer, so the click is not orderly.
      cases (hwait.2 ha).symm.trans (hleave (.inl ha)).1
    | false =>
      rw [if_neg (by decide)]
      have hsock : t.server.portForwardSocket = false := by rw [hwait.1, ha]
      cases o with
      | granted =>
        obtain ⟨hd, rfl⟩ := hleave (.inr rfl)
        have heq : afterClick (t.settle P .granted) = (t.grant P).leave := by
          rw [settle, ha, if_neg (by decide)]
          rfl
        rw [heq]
        exact (hi.grant_leave hs ha hd).held
      | stay ns =>
        obtain ⟨stream, hserver, -⟩ := serverSendAll_frame (P := P) (ns.map Notice.msg) t
        have heq : afterClick (t.settle P (.stay ns)) = t.serverSendAll P (ns.map Notice.msg) := by
          dsimp only [settle]
          rw [afterClick, if_neg nofun, if_neg]
          rw [hserver, hsock]
          decide
        rw [heq]
        exact (hi.notify hs ha ns).held
      | closed ns => exact ⟨_, _, _, _, (hi.notify hs ha ns).closeServer.closeServer⟩

theorem held_testDelayTick : Held P (t.testDelayTick P) := by
  obtain ⟨u, d, ru, rd, hi⟩ := h
  unfold testDelayTick
  split
  case isFalse => exact hi.held
  case isTrue hc =>
    obtain ⟨hs, hd, hauth⟩ := hc
    have ho := hi.order
    have ha : t.server.authorized = false := by
      rw [(ho.serverTalk hs).2.1, and_self] at hauth
      exact Bool.eq_false_iff.2 hauth
    rw [hs, ha, hd] at ho
    have hw := (hi.wired.flags t.server.authorized t.server.portForwardSocket true).serverSend hs
      (hi.client_ne_forward ha) (ho.serverTalk rfl).1 (.testDelay false)
    refine ⟨_, _, _, _, hw, ?_, hi.counted.app, hi.counted.target⟩
    show Order t.client.stage t.server.stage t.server.authorized _ true _ _ _ _
    rw [hs, ha]
    exact ho.tick

theorem held_serverSay {n : Notice} (hord : t.Orderly (.serverSay n)) :
    Held P (t.serverSay P n) := by
  obtain ⟨u, d, ru, rd, hi⟩ := h
  unfold serverSay
  split
  case isFalse => exact hi.held
  case isTrue hs => exact (hi.notify hs (hord hs) [n]).held

theorem held_serverClose {ns : List Notice} (hord : t.Orderly (.serverClose ns)) :
    Held P (t.serverClose P ns) := by
  obtain ⟨u, d, ru, rd, hi⟩ := h
  unfold serverClose
  cases hs : t.server.stage with
  | talk =>
    obtain ⟨d', hi', -⟩ := held_replies hi hs ns (hord hs)
    exact hi'.closeServer.held
  | forward => exact hi.closeServer.held
  | closed => exact hi.held

theorem held_serverRead (n : ℕ) : Held P (t.serverRead n) := by
  obtain ⟨u, d, ru, rd, hi⟩ := h
  unfold serverRead
  dsimp only
  split
  case isTrue => exact hi.held
  case isFalse hb =>
    push Not at hb
    obtain ⟨hb, hs⟩ := hb
    obtain ⟨rest, hwrote, hrest⟩ := hi.counted.target
    have hw := hi.wired
    have hgot : Wired P { t with target := { t.target with pending := t.target.pending.drop n } }
        u d ru rd := { hw with }
    refine ⟨_, _, _, _, hgot.serverSendBytes hs hb, ?_, hi.counted.app,
      t.target.pending.drop n, ?_, fun _ => rfl⟩
    · have ho := hi.order
      show Order _ t.server.stage _ _ _ _ _ _ _
      rw [hs] at ho ⊢
      exact ho.serverPuts _
    · show t.target.wrote = t.app.got ++ (rd ++ t.target.pending.take n ++ t.target.pending.drop n)
      rw [hwrote, hrest (by rw [hs]; nofun), List.append_assoc, List.take_append_drop]

/-! ### Runs -/

theorem held_step (i : Event) (ho : t.Orderly i) : Held P (t.step P i) := by
  cases i with
  | clientRead n => exact held_clientRead h n
  | serverRead n => exact held_serverRead h n
  | clientNext => exact held_clientNext h ho
  | clientSay x => exact held_clientSay h x ho
  | serverNext => exact held_serverNext h ho
  | authorize => exact held_authorize h ho
  | testDelayTick => exact held_testDelayTick h
  | serverSay => exact held_serverSay h ho
  | serverClose => exact held_serverClose h ho
  | clientClose =>
    obtain ⟨u, d, ru, rd, hi⟩ := h
    exact hi.closeClient.held
  | arriveUp n =>
    obtain ⟨u, d, ru, rd, hw, ho, hn⟩ := h
    exact ⟨u, d, ru, rd, { hw with up := hw.up.arrive n }, ho, hn.app, hn.target⟩
  | arriveDown n =>
    obtain ⟨u, d, ru, rd, hw, ho, hn⟩ := h
    exact ⟨u, d, ru, rd, { hw with down := hw.down.arrive n }, ho, hn.app, hn.target⟩
  | appWrite bytes =>
    obtain ⟨u, d, ru, rd, hw, ho, ⟨rest, hwrote, htalk, hforward⟩, htarget⟩ := h
    refine ⟨u, d, ru, rd, { hw with }, ho, ⟨rest ++ bytes, ?_, fun hc => ?_, fun hc => ?_⟩, htarget⟩
    · show t.app.wrote ++ bytes = t.target.got ++ (ru ++ (rest ++ bytes))
      rw [hwrote]
      simp
    · show rest ++ bytes = t.client.buffer ++ (t.app.pending ++ bytes)
      rw [htalk hc, List.append_assoc]
    · show rest ++ bytes = t.app.pending ++ bytes
      rw [hforward hc]
  | targetWrite bytes =>
    obtain ⟨u, d, ru, rd, hw, ho, happ, rest, hwrote, hrest⟩ := h
    refine ⟨u, d, ru, rd, { hw with }, ho, happ, rest ++ bytes, ?_, fun hs => ?_⟩
    · show t.target.wrote ++ bytes = t.app.got ++ (rd ++ (rest ++ bytes))
      rw [hwrote]
      simp
    · show rest ++ bytes = t.target.pending ++ bytes
      rw [hrest hs]

end

/-- What the target and the application got are prefixes of what the other wrote,
and what was parsed were the messages of the other end. -/
structure Faithful (P : Proto) (t : Tunnel S) : Prop where
  target : t.target.got <+: t.app.wrote
  app : t.app.got <+: t.target.wrote
  server : t.serverHeard <+: t.clientSaid.map P.write
  client : t.clientHeard <+: t.serverSaid.map P.write

theorem Held.faithful (h : Held P t) : Faithful P t := by
  obtain ⟨u, d, ru, rd, hw, -, ⟨rest, hwrote, -⟩, left, hwrote', -⟩ := h
  exact
    { target := ⟨_, hwrote.symm⟩
      app := ⟨_, hwrote'.symm⟩
      server := ⟨_, hw.up.log.symm⟩
      client := ⟨_, hw.down.log.symm⟩ }

/-- **A tunnel is faithful as long as no message is caught by the change.**
Over any transport, secured or not, for every order and chunking: if every
step is orderly, the target has a prefix of what the application wrote, the
application a prefix of what the target wrote, and the ends parsed the
messages of each other and nothing else. -/
theorem faithful_run (P : Proto) (kind : Kind) (key : Option S.Key) (is : List Event)
    (h : Run.Meets (step P) Orderly (start kind key) is) :
    Faithful P (Run.run (step P) (start kind key) is) :=
  Held.faithful (Run.inv_run_of_meets (fun _ i _ hi ho => held_step hi i ho)
    (held_start P kind key) h)

/-- A login by password while a test delay is unanswered: the server waits for the
answer, behind which raw bytes already come. -/
def passwordLogin : List Event :=
  [.serverSay .hash, .arriveDown 100, .clientNext true true, .testDelayTick, .arriveUp 100,
    .serverNext .granted, .arriveDown 3, .appWrite [1, 2, 3], .clientRead 2, .arriveDown 100,
    .clientNext false true, .clientNext false true, .arriveUp 1, .serverNext (.stay []),
    .arriveUp 100, .serverNext (.stay []), .serverNext (.stay []), .targetWrite [9],
    .serverRead 1, .arriveDown 1, .clientNext false true]

theorem passwordLogin_faithful :
    Run.Meets (step Proto.tags) Orderly (start (S := Box.plain) .tcp (some ())) passwordLogin ∧
    (Run.run (step Proto.tags) (start (S := Box.plain) .tcp (some ())) passwordLogin).target.got =
      [1, 2] ∧
    (Run.run (step Proto.tags) (start (S := Box.plain) .tcp (some ())) passwordLogin).app.got =
      [9] ∧
    Faithful Proto.tags
      (Run.run (step Proto.tags) (start (S := Box.plain) .tcp (some ())) passwordLogin) := by
  have h : Run.Meets (step Proto.tags) Orderly (start (S := Box.plain) .tcp (some ()))
      passwordLogin := by
    decide +kernel
  exact ⟨h, by decide +kernel, by decide +kernel,
    faithful_run (S := Box.plain) Proto.tags .tcp (some ()) _ h⟩

/-- A login by a click while a test delay is unanswered: the server does not wait,
and the target gets the answer, in its box and its frame. -/
theorem click_sends_answer_to_target :
    ¬ Faithful Proto.tags (Run.run (step Proto.tags) (start (S := Box.plain) .tcp (some ()))
      [.serverSay .hash, .arriveDown 100, .clientNext true true, .arriveUp 100,
        .serverNext (.stay []), .testDelayTick, .authorize .granted, .arriveDown 100,
        .clientNext false true, .clientNext false true, .arriveUp 100,
        .serverNext (.stay [])]) := by
  intro h
  exact absurd h.target (by decide +kernel)

end Tunnel
end CodeDesk.Net
