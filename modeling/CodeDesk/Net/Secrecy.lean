/-
# What of the forwarded data is encrypted

`set_raw` drops the key of a TCP stream and of a WebSocket, and both ends forward
with `send_bytes`, which seals nothing on any stream. So each piece of
application data reaches the transport as it is (`handed_step`), and a session
that was secured when the client checked it hands over only boxes as long as
nothing is forwarded at all (`sealed_iff_none_forwarded`).
-/
import CodeDesk.Net.Tunnel

namespace CodeDesk.Net.Tunnel

open Sealing

variable {S : Box} (P : Proto)

/-! ### Messages hand over no application data -/

theorem handed_serverSendAll (ms : List Msg) (t : Tunnel S) :
    (t.serverSendAll P ms).handed = t.handed := by
  induction ms generalizing t with
  | nil => rfl
  | cons m ms ih => exact ih (t.serverSend P m)

variable (t : Tunnel S)

theorem handed_leave : t.leave.handed = t.handed := by
  unfold leave
  split <;> rfl

variable (o : Outcome)

theorem handed_settle (t : Tunnel S) : (t.settle P o).1.handed = t.handed := by
  cases o with
  | stay | closed => exact handed_serverSendAll P _ t
  | granted =>
    dsimp only [settle]
    split <;> rfl

theorem handed_afterMessage (r : Tunnel S × Bool) : (afterMessage r).handed = r.1.handed := by
  unfold afterMessage
  split
  · exact handed_leave r.1
  · split
    · exact handed_leave r.1
    · rfl

theorem handed_onMessage (m : Msg) (t : Tunnel S) : (t.onMessage P o m).1.handed = t.handed := by
  cases m with
  | testDelay fromClient => cases fromClient <;> rfl
  | _ => exact handed_settle P o t

theorem handed_serverNext (t : Tunnel S) : (t.serverNext P o).handed = t.handed := by
  unfold serverNext
  cases t.server.stage with
  | talk =>
    dsimp only [serverTalk]
    cases (t.server.stream.receive t.up).2.2 with
    | ok bytes =>
      dsimp only
      cases P.parse bytes with
      | none => rfl
      | some =>
        rw [handed_afterMessage, handed_onMessage]
        rfl
    | _ => rfl
  | forward =>
    cases (t.server.stream.receive t.up).2.2 <;> rfl
  | closed => rfl

theorem handed_authorize (t : Tunnel S) : (t.authorize P o).handed = t.handed := by
  have hr : (t.click P o).1.handed = t.handed := by
    unfold click
    split
    · rfl
    · exact handed_settle P o t
  unfold authorize afterClick
  split
  · split
    · rw [handed_leave, hr]
    · split
      · rw [handed_leave, hr]
      · exact hr
  · rfl

theorem handed_serverClose (replies : List Notice) (t : Tunnel S) :
    (t.serverClose P replies).handed = t.handed := by
  unfold serverClose
  cases t.server.stage with
  | talk => exact handed_serverSendAll P _ t
  | _ => rfl

/-! ### Application data -/

/-- The step hands application data to a transport: a chunk read while the end
forwards, or what the client kept, when the peer info comes. -/
def Forwards (t : Tunnel S) : Event → Prop
  | .clientRead n => t.client.stage = .forward ∧ t.app.pending.take n ≠ []
  | .serverRead n => t.server.stage = .forward ∧ t.target.pending.take n ≠ []
  | .clientNext _ _ =>
    t.client.stage = .talk ∧ t.client.buffer ≠ [] ∧
      ∃ bytes, (t.client.stream.receive t.down).2.2 = .ok bytes ∧ P.parse bytes = some .peerInfo
  | _ => False

theorem handed_startForward : t.startForward.handed =
      t.handed ++ if t.client.buffer = [] then [] else [⟨t.client.buffer, t.client.buffer⟩] := by
  unfold startForward
  dsimp only
  split
  · rw [List.append_nil]
  · rfl

theorem handed_clientNext (login keep : Bool) (t : Tunnel S) :
    (Forwards P t (.clientNext login keep) ∧
        ∃ bytes ≠ [], (t.clientNext P login keep).handed = t.handed ++ [⟨bytes, bytes⟩]) ∨
      (¬ Forwards P t (.clientNext login keep) ∧
        (t.clientNext P login keep).handed = t.handed) := by
  unfold clientNext Forwards
  cases hs : t.client.stage with
  | closed => exact .inr ⟨fun h => absurd h.1 nofun, rfl⟩
  | forward =>
    refine .inr ⟨fun h => absurd h.1 nofun, ?_⟩
    cases (t.client.stream.receive t.down).2.2 <;> rfl
  | talk =>
    dsimp only [clientTalk]
    cases hn : (t.client.stream.receive t.down).2.2 with
    | ok bytes =>
      dsimp only
      cases hp : P.parse bytes with
      | none =>
        refine .inr ⟨?_, rfl⟩
        rintro ⟨-, -, b, hb, hpb⟩
        cases hb
        simp [hp] at hpb
      | some m =>
        by_cases hm : m = .peerInfo
        · subst hm
          simp only [clientMessage, handed_startForward]
          by_cases hb : t.client.buffer = []
          · exact .inr ⟨fun h => h.2.1 hb, by simp [clientGot, hb]⟩
          · exact .inl ⟨⟨trivial, hb, bytes, rfl, hp⟩, t.client.buffer, hb, by simp [clientGot, hb]⟩
        · refine .inr ⟨?_, ?_⟩
          · rintro ⟨-, -, b, hb, hpb⟩
            cases hb
            rw [hp] at hpb
            exact hm (Option.some.inj hpb)
          · cases m with
            | peerInfo => exact absurd rfl hm
            | hash => cases login <;> rfl
            | loginError => cases keep <;> rfl
            | testDelay fromClient => cases fromClient <;> rfl
            | _ => rfl
    | _ =>
      refine .inr ⟨?_, rfl⟩
      rintro ⟨-, -, b, hb, -⟩
      cases hb

theorem handed_step (i : Event) :
    (Forwards P t i ∧ ∃ bytes ≠ [], (t.step P i).handed = t.handed ++ [⟨bytes, bytes⟩]) ∨
      (¬ Forwards P t i ∧ (t.step P i).handed = t.handed) := by
  cases i with
  | clientNext login keep => exact handed_clientNext P login keep t
  | clientRead n =>
    dsimp only [step, clientRead, Forwards]
    split_ifs with hc
    · exact .inr ⟨fun h => h.2 hc, rfl⟩
    · cases t.client.stage with
      | forward => exact .inl ⟨⟨rfl, hc⟩, _, hc, rfl⟩
      | _ => exact .inr ⟨fun h => absurd h.1 nofun, rfl⟩
  | serverRead n =>
    dsimp only [step, serverRead, Forwards]
    split_ifs with hc
    · exact .inr ⟨fun h => hc.elim h.2 fun hs => hs h.1, rfl⟩
    · push Not at hc
      exact .inl ⟨⟨hc.2, hc.1⟩, _, hc.1, rfl⟩
  | clientSay =>
    refine .inr ⟨id, ?_⟩
    dsimp only [step, clientSay]
    split <;> rfl
  | serverSay =>
    refine .inr ⟨id, ?_⟩
    dsimp only [step, serverSay]
    split <;> rfl
  | testDelayTick =>
    refine .inr ⟨id, ?_⟩
    dsimp only [step, testDelayTick]
    split <;> rfl
  | serverNext o => exact .inr ⟨id, handed_serverNext P o t⟩
  | authorize o => exact .inr ⟨id, handed_authorize P o t⟩
  | serverClose replies => exact .inr ⟨id, handed_serverClose P replies t⟩
  | _ => exact .inr ⟨id, rfl⟩

/-! ### Sessions -/

/-- All application data so far went to the transport in boxes under `key`. -/
def Sealed (key : S.Key) (t : Tunnel S) : Prop :=
  ∀ h ∈ t.handed, ∃ nonce, h.wire = S.sealBox key nonce h.plain

theorem not_sealed_plain (key : S.Key) (nonce bytes : Bytes) :
    bytes ≠ S.sealBox key nonce bytes := by
  intro h
  have hl := S.length_seal key nonce bytes
  rw [← h] at hl
  omega

theorem sealed_run_iff (key : S.Key) (is : List Event) (t : Tunnel S) :
    Sealed key (Run.run (step P) t is) ↔
      Sealed key t ∧ Run.Meets (step P) (fun t i => ¬ Forwards P t i) t is := by
  induction is generalizing t with
  | nil => simp [Run.Meets]
  | cons i is ih =>
    rw [Run.run_cons, ih, Run.Meets]
    rcases handed_step P t i with ⟨hf, bytes, hb, hh⟩ | ⟨hf, hh⟩
    · have hns : ¬ Sealed key (t.step P i) := by
        intro h
        obtain ⟨nonce, hn⟩ := h ⟨bytes, bytes⟩ (by rw [hh]; simp)
        exact not_sealed_plain key nonce bytes hn
      exact ⟨fun h => absurd h.1 hns, fun h => absurd hf h.2.1⟩
    · have hs : Sealed key (t.step P i) ↔ Sealed key t := by
        unfold Sealed
        rw [hh]
      rw [hs]
      exact ⟨fun h => ⟨h.1, hf, h.2⟩, fun h => ⟨h.1, h.2.2⟩⟩

/-- **Forwarded data is not encrypted.** A session whose stream is secured at the
start, over any transport, hands all its application data over in boxes if and
only if no step of it forwards any. -/
theorem sealed_iff_none_forwarded (kind : Kind) (key : S.Key) (is : List Event) :
    (start kind (some key)).client.stream.isSecured = true ∧
      (Sealed key (Run.run (step P) (start kind (some key)) is) ↔
        Run.Meets (step P) (fun t i => ¬ Forwards P t i) (start kind (some key)) is) := by
  constructor
  · cases kind <;> rfl
  · rw [sealed_run_iff]
    exact and_iff_right (fun h hm => nomatch hm)

/-- The click lets the client in that has asked; then the application writes two
bytes. -/
theorem two_bytes_unsealed :
    ¬ Sealed (S := Box.plain) () (Run.run (step Proto.tags) (start .tcp (some ()))
      [.serverSay .hash, .arriveDown 100, .clientNext true true, .arriveUp 100,
        .serverNext (.stay []), .authorize .granted, .arriveDown 100, .clientNext false true,
        .appWrite [1, 2], .clientRead 2]) := by
  intro h
  obtain ⟨nonce, hn⟩ := h ⟨[1, 2], [1, 2]⟩ (by decide +kernel)
  exact not_sealed_plain (S := Box.plain) () nonce [1, 2] hn

end CodeDesk.Net.Tunnel
