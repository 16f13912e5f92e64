/-
# What may be under way in a tunnel

`Order` says, of the stages of the two ends, the flags of the server and the
messages and raw bytes under way, which go together: the peer info is the last
message of the server, a server that is authorized and still talks waits for an
answer that is under way, and raw bytes of an end come only after its last
message. It is a statement about these values alone; there is one lemma for each
thing an end does.
-/
import CodeDesk.Net.Tunnel

namespace CodeDesk.Net

/-- Stages `c` and `s` of client and server, the flags of the server, the messages
`u` and `d` and the raw bytes `ru` and `rd` under way. -/
structure Order (c s : Stage) (authorized socket delay : Bool) (u d : List Msg) (ru rd : Bytes) :
    Prop where
  clientTalk : c = .talk → ru = []
  clientForward : c = .forward → d = [] ∧ authorized = true
  serverTalk : s = .talk → rd = [] ∧ socket = authorized ∧ (authorized = true → delay = true)
  serverForward : s = .forward → u = [] ∧ authorized = true ∧ delay = false
  rawUp : ru = [] ∨ d = [] ∧ authorized = true
  rawDown : rd = [] ∨ authorized = true
  /-- The peer info is sent with the authorization, and nothing after it. -/
  unpromised : authorized = false → .peerInfo ∉ d
  promised : authorized = true → c = .talk → ∃ d', d = d' ++ [.peerInfo] ∧ .peerInfo ∉ d'
  /-- An unanswered test delay is under way, or its answer is. -/
  delays : (u ++ d).count (.testDelay false) = if delay then 1 else 0

namespace Order

variable {c s : Stage} {authorized socket delay : Bool} {u d : List Msg} {ru rd : Bytes} {m : Msg}

theorem start : Order .talk .talk false false false [] [] [] [] :=
  ⟨fun _ => rfl, nofun, fun _ => ⟨rfl, rfl, nofun⟩, nofun, .inl rfl, .inl rfl, fun _ => nofun,
    nofun, rfl⟩

theorem count_down {ms : List Msg} (hm : .testDelay false ∉ ms) :
    (u ++ (d ++ ms)).count (.testDelay false) = (u ++ d).count (.testDelay false) := by
  rw [← List.append_assoc, List.count_append, List.count_eq_zero_of_not_mem hm, Nat.add_zero]

/-- The peer info is still to come after another message was heard. -/
theorem promised_tail (h : Order .talk s authorized socket delay u (m :: d) ru rd)
    (hp : m ≠ .peerInfo) (ha : authorized = true) :
    ∃ d', d = d' ++ [.peerInfo] ∧ .peerInfo ∉ d' := by
  obtain ⟨d', hd, hn⟩ := h.promised ha rfl
  cases d' with
  | nil => exact absurd (List.cons.inj hd).1 hp
  | cons x d' => exact ⟨d', (List.cons.inj hd).2, fun hx => hn (List.mem_cons_of_mem _ hx)⟩

section

variable (h : Order c s authorized socket delay u d ru rd)

include h

theorem closeClient : Order .closed s authorized socket delay u d ru rd :=
  { h with clientTalk := nofun, clientForward := nofun, promised := nofun }

theorem closeServer : Order c .closed authorized false delay u d ru rd :=
  { h with serverTalk := nofun, serverForward := nofun }

theorem say (hs : s ≠ .forward) (hm : m ≠ .testDelay false) :
    Order c s authorized socket delay (u ++ [m]) d ru rd :=
  { h with
    serverForward := fun hf => absurd hf hs
    delays := by
      have := h.delays
      simp only [List.count_append, List.count_singleton, beq_iff_eq, hm, if_false] at this ⊢
      omega }

end

theorem clientHears (h : Order .talk s authorized socket delay u (m :: d) ru rd)
    (hp : m ≠ .peerInfo) (hm : m ≠ .testDelay false) :
    Order .talk s authorized socket delay u d ru rd :=
  { h with
    clientForward := nofun
    rawUp := .inl (h.clientTalk rfl)
    unpromised := fun ha hd => h.unpromised ha (List.mem_cons_of_mem _ hd)
    promised := fun ha _ => h.promised_tail hp ha
    delays := by
      have := h.delays
      rw [List.count_append, List.count_cons_of_ne hm] at this
      rw [List.count_append]
      exact this }

theorem clientAnswers (h : Order .talk s authorized socket delay u (.testDelay false :: d) ru rd) :
    s ≠ .forward ∧ Order .talk s authorized socket delay (u ++ [.testDelay false]) d ru rd := by
  have hs : s ≠ .forward := by
    intro hf
    have := h.delays
    rw [(h.serverForward hf).2.2, List.count_append, List.count_cons_self] at this
    simp at this
  refine ⟨hs, { h with
    clientForward := nofun
    serverForward := fun hf => absurd hf hs
    rawUp := .inl (h.clientTalk rfl)
    unpromised := fun ha hd => h.unpromised ha (List.mem_cons_of_mem _ hd)
    promised := fun ha _ => h.promised_tail nofun ha
    delays := ?_ }⟩
  have := h.delays
  rw [List.count_append, List.count_cons_self] at this
  rw [List.count_append, List.count_append, List.count_singleton_self]
  omega

theorem clientLeaves (h : Order .talk s authorized socket delay u (.peerInfo :: d) ru rd)
    (bytes : Bytes) : d = [] ∧ Order .forward s authorized socket delay u [] (ru ++ bytes) rd := by
  have ha : authorized = true := by
    cases authorized with
    | true => rfl
    | false => exact absurd List.mem_cons_self (h.unpromised rfl)
  have hd : d = [] := by
    obtain ⟨d', hd, hn⟩ := h.promised ha rfl
    cases d' with
    | nil => exact (List.cons.inj hd).2
    | cons => exact absurd ((List.cons.inj hd).1 ▸ List.mem_cons_self) hn
  subst hd
  refine ⟨rfl, { h with
    clientTalk := nofun
    clientForward := fun _ => ⟨rfl, ha⟩
    rawUp := .inr ⟨rfl, ha⟩
    unpromised := fun _ => nofun
    promised := nofun
    delays := ?_ }⟩
  have := h.delays
  rw [List.count_append, List.count_cons_of_ne (by decide)] at this
  rwa [List.count_append]

theorem notify (h : Order c .talk false socket delay u d ru rd) {ms : List Msg}
    (hm : .peerInfo ∉ ms ∧ .testDelay false ∉ ms) :
    Order c .talk false socket delay u (d ++ ms) ru rd :=
  { h with
    clientForward := fun hc => nomatch (h.clientForward hc).2
    rawUp := h.rawUp.imp_right fun hr => nomatch hr.2
    unpromised := fun ha hd => (List.mem_append.1 hd).elim (h.unpromised ha) hm.1
    promised := nofun
    delays := (count_down hm.2).trans h.delays }

theorem tick (h : Order c .talk false socket false u d ru rd) :
    Order c .talk false socket true u (d ++ [.testDelay false]) ru rd :=
  { h with
    clientForward := fun hc => nomatch (h.clientForward hc).2
    serverTalk := fun hs => ⟨(h.serverTalk hs).1, (h.serverTalk hs).2.1, nofun⟩
    serverForward := nofun
    rawUp := h.rawUp.imp_right fun hr => nomatch hr.2
    unpromised := by
      intro ha hd
      rcases List.mem_append.1 hd with hd | hd
      · exact h.unpromised ha hd
      · cases List.mem_singleton.1 hd
    promised := nofun
    delays := by
      have := h.delays
      rw [List.count_append] at this
      simp at this ⊢
      omega }

theorem serverHears (h : Order c .talk authorized socket delay (m :: u) d ru rd)
    (hm : m ≠ .testDelay false) : Order c .talk authorized socket delay u d ru rd :=
  { h with
    serverForward := nofun
    delays := by
      have := h.delays
      rw [List.cons_append, List.count_cons_of_ne hm] at this
      exact this }

theorem answered (h : Order c .talk authorized socket delay (.testDelay false :: u) d ru rd) :
    (u ++ d).count (.testDelay false) = 0 := by
  have := h.delays
  rw [List.cons_append, List.count_cons_self] at this
  split at this <;> omega

theorem serverHearsAnswer (h : Order c .talk false socket delay (.testDelay false :: u) d ru rd) :
    Order c .talk false socket false u d ru rd :=
  { h with
    serverTalk := fun hs => ⟨(h.serverTalk hs).1, (h.serverTalk hs).2.1, nofun⟩
    serverForward := nofun
    delays := h.answered }

theorem serverLeaves (h : Order c .talk true socket delay [.testDelay false] d ru rd) :
    Order c .forward true socket false [] d ru rd :=
  { h with
    serverTalk := nofun
    serverForward := fun _ => ⟨rfl, rfl, rfl⟩
    delays := h.answered }

theorem grant (h : Order c .talk false socket true u d ru rd) :
    Order c .talk true true true u (d ++ [.peerInfo]) ru rd :=
  { h with
    clientForward := fun hc => nomatch (h.clientForward hc).2
    serverTalk := fun hs => ⟨(h.serverTalk hs).1, rfl, fun _ => rfl⟩
    serverForward := nofun
    rawUp := h.rawUp.imp_right fun hr => nomatch hr.2
    rawDown := .inr rfl
    unpromised := nofun
    promised := fun _ _ => ⟨d, rfl, h.unpromised rfl⟩
    delays := (count_down (by decide)).trans h.delays }

theorem grantAndLeave (h : Order c .talk false socket false [] d ru rd) :
    Order c .forward true true false [] (d ++ [.peerInfo]) ru rd :=
  { h with
    clientForward := fun hc => nomatch (h.clientForward hc).2
    serverTalk := nofun
    serverForward := fun _ => ⟨rfl, rfl, rfl⟩
    rawUp := h.rawUp.imp_right fun hr => nomatch hr.2
    rawDown := .inr rfl
    unpromised := nofun
    promised := fun _ _ => ⟨d, rfl, h.unpromised rfl⟩
    delays := (count_down (by decide)).trans h.delays }

/-! Raw bytes. -/

theorem clientPuts (h : Order .forward s authorized socket delay u d ru rd) (bytes : Bytes) :
    Order .forward s authorized socket delay u d (ru ++ bytes) rd :=
  { h with clientTalk := nofun, rawUp := .inr (h.clientForward rfl) }

theorem serverPuts (h : Order c .forward authorized socket delay u d ru rd) (bytes : Bytes) :
    Order c .forward authorized socket delay u d ru (rd ++ bytes) :=
  { h with serverTalk := nofun, rawDown := .inr (h.serverForward rfl).2.1 }

theorem serverGets {bytes rest : Bytes}
    (h : Order c s authorized socket delay u d (bytes ++ rest) rd) :
    Order c s authorized socket delay u d rest rd :=
  { h with
    clientTalk := fun hc => (List.append_eq_nil_iff.1 (h.clientTalk hc)).2
    rawUp := h.rawUp.imp_left fun hr => (List.append_eq_nil_iff.1 hr).2 }

theorem clientGets {bytes rest : Bytes}
    (h : Order c s authorized socket delay u d ru (bytes ++ rest)) :
    Order c s authorized socket delay u d ru rest :=
  { h with
    serverTalk := fun hs => ⟨(List.append_eq_nil_iff.1 (h.serverTalk hs).1).2, (h.serverTalk hs).2⟩
    rawDown := h.rawDown.imp_left fun hr => (List.append_eq_nil_iff.1 hr).2 }

theorem rawUp_nil (h : Order c .talk authorized socket delay [] d ru rd) : ru = [] := by
  rcases h.rawUp with hr | ⟨rfl, rfl⟩
  · exact hr
  · have := h.delays
    rw [(h.serverTalk rfl).2.2 rfl] at this
    cases this

theorem rawDown_nil (h : Order .talk s authorized socket delay u [] ru rd) : rd = [] := by
  rcases h.rawDown with hr | rfl
  · exact hr
  · obtain ⟨d', hd, -⟩ := h.promised rfl rfl
    exact absurd hd.symm (by simp)

end Order

end CodeDesk.Net
