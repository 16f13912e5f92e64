/-
# Which displays a connection captures

`CaptureDisplays` adds displays to those a connection captures, takes some away,
or names them all (`Connection::capture_displays` and `Server::capture_displays`).
The three cases come down to two flags of one loop over the video services:
subscribe to those named, unsubscribe from those not named. For the displays to
be taken away the loop is called with the second flag only, so that it takes away
the others and keeps these (`drops_the_others`); `capture_displays_iff` says when
a message does what it names.

`Server` is one connection's view of the services. Here the services have the
subscribers of all connections (`Hub`), `Hub.view` is the view of one of them, and
what the loop does to the others is nothing (`subscribers_captureDisplays`).
-/
import CodeDesk.Conn.Subscriptions
import Mathlib.Logic.Function.Basic

namespace CodeDesk.Conn

/-! ### One connection's view -/

namespace Server

variable {v : Server} {names : List Service} {inc exc b : Bool} {s x : Service}

theorem subscribe_services (v : Server) (s : Service) (b : Bool) :
    (v.subscribe s b).services = v.services := by
  unfold subscribe
  split
  · split
    · rfl
    · split
      · unfold onSubscribe
        split <;> rfl
      · rfl
  · rfl

theorem mem_subscribe_iff (hs : s ∈ v.services) :
    x ∈ (v.subscribe s b).subs ↔ if x = s then b = true else x ∈ v.subs := by
  rw [subscribe, dif_pos hs]
  by_cases hx : x = s
  · subst hx
    by_cases hm : x ∈ v.subs <;> cases b <;> simp [hm, onSubscribe, onUnsubscribe]
  · by_cases hm : s ∈ v.subs <;> cases b <;> simp [hm, onSubscribe, onUnsubscribe, hx]

/-- What the loop makes of a subscription to a video service. -/
def After (names : List Service) (inc exc : Bool) (x : Service) (subscribed : Prop) : Prop :=
  if x ∈ names then inc = true ∨ subscribed else exc = false ∧ subscribed

theorem after_after (P : Prop) :
    After names inc exc x (After names inc exc x P) ↔ After names inc exc x P := by
  unfold After
  split
  · rw [or_self_left]
  · rw [and_self_left]

theorem captureDisplay_services (names : List Service) (inc exc : Bool) (v : Server) (s : Service) :
    (v.captureDisplay names inc exc s).services = v.services := by
  unfold captureDisplay
  split <;> split <;> first | exact subscribe_services _ _ _ | rfl

theorem mem_captureDisplay_iff (hs : s ∈ v.services) : x ∈ (v.captureDisplay names inc exc s).subs ↔
      if x = s then After names inc exc x (x ∈ v.subs) else x ∈ v.subs := by
  unfold captureDisplay After
  by_cases hx : x = s
  · subst hx
    by_cases hn : x ∈ names <;> cases inc <;> cases exc <;> simp [hn, mem_subscribe_iff hs]
  · by_cases hn : s ∈ names <;> cases inc <;> cases exc <;> simp [hn, hx, mem_subscribe_iff hs]

theorem captureDisplays_services (names : List Service) (inc exc : Bool) (v : Server) :
    (v.captureDisplays names inc exc).services = v.services := by
  unfold captureDisplays
  generalize v.services.filter Service.isVideo = ss
  induction ss generalizing v with
  | nil => rfl
  | cons s ss ih => exact (ih _).trans (captureDisplay_services names inc exc v s)

theorem mem_foldl_captureDisplay {ss : List Service} (hss : ss ⊆ v.services) :
    x ∈ (ss.foldl (captureDisplay names inc exc) v).subs ↔
      if x ∈ ss then After names inc exc x (x ∈ v.subs) else x ∈ v.subs := by
  induction ss generalizing v with
  | nil => simp
  | cons s ss ih =>
    obtain ⟨hs, hss⟩ := List.cons_subset.1 hss
    rw [List.foldl_cons, ih (by rwa [captureDisplay_services]), mem_captureDisplay_iff hs]
    by_cases hxs : x = s
    · simp only [hxs, if_true, List.mem_cons_self]
      split
      · exact after_after _
      · rfl
    · simp [hxs]

theorem mem_captureDisplays_iff (hx : x ∈ v.services) (hv : x.isVideo = true) :
    x ∈ (v.captureDisplays names inc exc).subs ↔ After names inc exc x (x ∈ v.subs) := by
  unfold captureDisplays
  rw [mem_foldl_captureDisplay fun y hy => (List.mem_filter.1 hy).1,
    if_pos (List.mem_filter.2 ⟨hx, hv⟩)]

theorem mem_captureDisplays_of_not_isVideo (hv : x.isVideo = false) :
    x ∈ (v.captureDisplays names inc exc).subs ↔ x ∈ v.subs := by
  unfold captureDisplays
  rw [mem_foldl_captureDisplay fun y hy => (List.mem_filter.1 hy).1,
    if_neg fun h => by simp [hv] at h]

theorem mem_addService (v : Server) : x ∈ (v.addService s).services ↔ x = s ∨ x ∈ v.services := by
  unfold addService
  split_ifs with hs
  · exact ⟨Or.inr, fun h => h.elim (fun he => he ▸ hs) id⟩
  · exact List.mem_cons

theorem mem_foldl_addService (source : VideoSource) (ds : List ℕ) (v : Server) :
    x ∈ (ds.foldl (fun v d => v.addService (.video source d)) v).services ↔
      (∃ d ∈ ds, x = .video source d) ∨ x ∈ v.services := by
  induction ds generalizing v with
  | nil => simp
  | cons d ds ih =>
    rw [List.foldl_cons, ih, mem_addService]
    simp only [List.mem_cons, exists_eq_or_imp]
    rw [or_left_comm, or_assoc]

/-- The services a message asks for are there, and the loop is run. -/
def captureFor (source : VideoSource) (add sub set : List ℕ) (v : Server) : Server :=
  let v := (add ++ set).foldl (fun v d => v.addService (.video source d)) v
  if add ≠ [] then v.captureDisplays (add.map (.video source)) true false
  else if sub ≠ [] then v.captureDisplays (sub.map (.video source)) false true
  else v.captureDisplays (set.map (.video source)) true true

/-- One display in one call of the loop. A service that is not there has no
subscriber, and is none of those that are subscribed to. -/
theorem mem_captureDisplays_video {source : VideoSource} {d : ℕ} (ds : List ℕ) (inc exc : Bool)
    (hds : inc = true → d ∈ ds → .video source d ∈ v.services) :
    .video source d ∈ (v.captureDisplays (ds.map (.video source)) inc exc).subs ↔
      if d ∈ ds then inc = true ∨ .video source d ∈ v.subs
      else exc = false ∧ .video source d ∈ v.subs := by
  by_cases hx : Service.video source d ∈ v.services
  · have hname : Service.video source d ∈ ds.map (.video source) ↔ d ∈ ds := by simp
    rw [mem_captureDisplays_iff hx rfl, After]
    simp only [hname]
  · have hno : Service.video source d ∉ v.subs := fun h => hx (v.subs_services _ h)
    have hno' : Service.video source d ∉
        (v.captureDisplays (ds.map (.video source)) inc exc).subs := fun h =>
      hx (captureDisplays_services _ _ _ v ▸ subs_services _ _ h)
    rw [iff_false_left hno']
    split_ifs with hd
    · rintro (hi | hm)
      · exact hx (hds hi hd)
      · exact hno hm
    · exact fun h => hno h.2

theorem mem_captureFor {source : VideoSource} {add sub set : List ℕ} {d : ℕ} (v : Server) :
    .video source d ∈ (v.captureFor source add sub set).subs ↔
      if add ≠ [] then .video source d ∈ v.subs ∨ d ∈ add
      else if sub ≠ [] then .video source d ∈ v.subs ∧ d ∈ sub
      else d ∈ set := by
  unfold captureFor
  generalize hw : (add ++ set).foldl (fun v d => v.addService (.video source d)) v = w
  have hsubs : w.subs = v.subs := hw ▸ foldl_addService_subs source _ _
  have hservices : d ∈ add ++ set → Service.video source d ∈ w.services := fun hd =>
    hw ▸ (mem_foldl_addService source _ _).2 (.inl ⟨d, hd, rfl⟩)
  by_cases ha : add = []
  · by_cases hs : sub = []
    · rw [if_neg (not_not.2 ha), if_neg (not_not.2 hs), if_neg (not_not.2 ha),
        if_neg (not_not.2 hs),
        mem_captureDisplays_video set true true fun _ hd => hservices (List.mem_append_right _ hd)]
      simp
    · rw [if_neg (not_not.2 ha), if_pos hs, if_neg (not_not.2 ha), if_pos hs,
        mem_captureDisplays_video sub false true nofun, hsubs]
      by_cases hd : d ∈ sub <;> simp [hd]
  · rw [if_pos ha, if_pos ha,
      mem_captureDisplays_video add true false fun _ hd => hservices (List.mem_append_left _ hd),
      hsubs]
    by_cases hd : d ∈ add <;> simp [hd]

theorem captureFor_of_not_isVideo (source : VideoSource) (add sub set : List ℕ) (v : Server)
    (hx : x.isVideo = false) :
    (x ∈ (v.captureFor source add sub set).services ↔ x ∈ v.services) ∧
      (x ∈ (v.captureFor source add sub set).subs ↔ x ∈ v.subs) := by
  unfold captureFor
  generalize hw : (add ++ set).foldl (fun v d => v.addService (.video source d)) v = w
  have hservices : x ∈ w.services ↔ x ∈ v.services := by
    rw [← hw, mem_foldl_addService, or_iff_right]
    rintro ⟨d, -, rfl⟩
    cases hx
  have hsubs : w.subs = v.subs := hw ▸ foldl_addService_subs source _ _
  split
  · rw [captureDisplays_services, mem_captureDisplays_of_not_isVideo hx, hsubs]
    exact ⟨hservices, Iff.rfl⟩
  · split <;> rw [captureDisplays_services, mem_captureDisplays_of_not_isVideo hx, hsubs] <;>
      exact ⟨hservices, Iff.rfl⟩

end Server

/-! ### All connections -/

/-- The services of the server with the ids of their subscribers. -/
structure Hub where
  services : List Service
  subscribers : Service → List ℤ
  absent : ∀ s, s ∉ services → subscribers s = []

namespace Hub

def setSubscribers (s : Service) (ids : List ℤ) (u : Hub) (hs : s ∈ u.services) : Hub where
  services := u.services
  subscribers := Function.update u.subscribers s ids
  absent := fun x hx => by
    have hne : x ≠ s := fun h => hx (h ▸ hs)
    rw [Function.update_of_ne hne]
    exact u.absent x hx

def subscribe (s : Service) (id : ℤ) (sub : Bool) (u : Hub) : Hub :=
  if hs : s ∈ u.services then
    if decide (id ∈ u.subscribers s) = sub then u
    else if sub then u.setSubscribers s (id :: u.subscribers s) hs
    else u.setSubscribers s ((u.subscribers s).filter (· ≠ id)) hs
  else u

def addService (s : Service) (u : Hub) : Hub :=
  if s ∈ u.services then u
  else { u with
    services := s :: u.services
    absent := fun x hx => u.absent x fun h => hx (List.mem_cons_of_mem _ h) }

def captureDisplay (id : ℤ) (names : List Service) (inc exc : Bool) (u : Hub) (s : Service) : Hub :=
  if s ∈ names then if inc then u.subscribe s id true else u
  else if exc then u.subscribe s id false else u

def captureDisplays (id : ℤ) (names : List Service) (inc exc : Bool) (u : Hub) : Hub :=
  (u.services.filter Service.isVideo).foldl (captureDisplay id names inc exc) u

def getSubbedDisplaysCount (id : ℤ) (u : Hub) : ℕ :=
  (u.services.filter fun s => s.isVideo && id ∈ u.subscribers s).length

def captureFor (id : ℤ) (source : VideoSource) (add sub set : List ℕ) (u : Hub) : Hub :=
  let u := (add ++ set).foldl (fun u d => u.addService (.video source d)) u
  if add ≠ [] then u.captureDisplays id (add.map (.video source)) true false
  else if sub ≠ [] then u.captureDisplays id (sub.map (.video source)) false true
  else u.captureDisplays id (set.map (.video source)) true true

/-- `Connection::capture_displays` of connection `id`: the services, and
`multi_ui_session`. -/
def connectionCaptureDisplays (id : ℤ) (source : VideoSource) (followRemoteWindow : Bool)
    (add sub set : List ℕ) (u : Hub) : Hub × Bool :=
  let u := u.captureFor id source add sub set
  let multiUiSession : Bool := 1 < u.getSubbedDisplaysCount id
  (if followRemoteWindow then u.subscribe .windowFocus id (!multiUiSession) else u, multiUiSession)

variable {u : Hub} {id j : ℤ} {s x : Service} {b : Bool}

/-! ### The other connections -/

theorem subscribers_subscribe (hj : j ≠ id) :
    j ∈ (u.subscribe s id b).subscribers x ↔ j ∈ u.subscribers x := by
  have hset : ∀ (ids : List ℤ) (hs : s ∈ u.services), (j ∈ ids ↔ j ∈ u.subscribers s) →
      (j ∈ (u.setSubscribers s ids hs).subscribers x ↔ j ∈ u.subscribers x) := by
    intro ids hs hids
    unfold setSubscribers
    by_cases hx : x = s
    · subst hx
      simpa using hids
    · simp [hx]
  unfold subscribe
  split
  · split
    · rfl
    · split <;> exact hset _ _ (by simp [hj])
  · rfl

variable {names : List Service} {inc exc : Bool} {source : VideoSource} {add sub set : List ℕ}

theorem subscribers_captureDisplays (hj : j ≠ id) :
    j ∈ (u.captureDisplays id names inc exc).subscribers x ↔ j ∈ u.subscribers x := by
  unfold captureDisplays
  generalize u.services.filter Service.isVideo = ss
  induction ss generalizing u with
  | nil => rfl
  | cons s ss ih =>
    refine ih.trans ?_
    unfold captureDisplay
    split <;> split <;> first | exact subscribers_subscribe hj | rfl

theorem addService_subscribers (s : Service) (u : Hub) :
    (u.addService s).subscribers = u.subscribers := by
  unfold addService
  split <;> rfl

theorem foldl_addService_subscribers (source : VideoSource) (ds : List ℕ) (u : Hub) :
    (ds.foldl (fun u d => u.addService (.video source d)) u).subscribers = u.subscribers := by
  induction ds generalizing u with
  | nil => rfl
  | cons d ds ih => exact (ih _).trans (addService_subscribers _ u)

theorem subscribers_captureFor (hj : j ≠ id) :
    j ∈ (u.captureFor id source add sub set).subscribers x ↔ j ∈ u.subscribers x := by
  rw [← foldl_addService_subscribers source (add ++ set) u]
  unfold captureFor
  split
  · exact subscribers_captureDisplays hj
  · split <;> exact subscribers_captureDisplays hj

/-! ### The view of one connection -/

structure Sees (u : Hub) (id : ℤ) (v : Server) : Prop where
  services : v.services = u.services
  subs : ∀ x, x ∈ v.subs ↔ id ∈ u.subscribers x

def view (id : ℤ) (u : Hub) : Server where
  services := u.services
  subs := u.services.filter fun s => id ∈ u.subscribers s
  subs_services := fun _ hx => (List.mem_filter.1 hx).1

theorem sees_view (id : ℤ) (u : Hub) : u.Sees id (u.view id) where
  services := rfl
  subs := fun x => by
    unfold view
    simp only [List.mem_filter, decide_eq_true_eq, and_iff_right_iff_imp]
    intro hid
    by_contra hx
    simp [u.absent x hx] at hid

variable {v : Server}

theorem subscribe_services (u : Hub) : (u.subscribe s id b).services = u.services := by
  unfold subscribe
  split
  · split
    · rfl
    · split <;> rfl
  · rfl

theorem mem_subscribe_self (hs : s ∈ u.services) :
    id ∈ (u.subscribe s id b).subscribers x ↔ if x = s then b = true else id ∈ u.subscribers x := by
  rw [subscribe, dif_pos hs]
  by_cases hx : x = s
  · subst hx
    by_cases hm : id ∈ u.subscribers x <;> cases b <;> simp [hm, setSubscribers]
  · by_cases hm : id ∈ u.subscribers s <;> cases b <;> simp [hm, setSubscribers, hx]

theorem Sees.subscribe (h : u.Sees id v) (s : Service) (b : Bool) :
    (u.subscribe s id b).Sees id (v.subscribe s b) where
  services := by rw [Server.subscribe_services, subscribe_services, h.services]
  subs := fun x => by
    by_cases hs : s ∈ u.services
    · rw [mem_subscribe_self hs, Server.mem_subscribe_iff (h.services ▸ hs), h.subs]
    · have hs' : s ∉ v.services := h.services ▸ hs
      rw [Hub.subscribe, Server.subscribe, dif_neg hs, dif_neg hs']
      exact h.subs x

theorem Sees.addService (h : u.Sees id v) (s : Service) :
    (u.addService s).Sees id (v.addService s) where
  services := by
    unfold Hub.addService Server.addService
    by_cases hs : s ∈ u.services
    · rw [if_pos hs, if_pos (h.services ▸ hs), h.services]
    · rw [if_neg hs, if_neg (h.services ▸ hs)]
      exact congrArg (s :: ·) h.services
  subs := fun x => by rw [Server.addService_subs, addService_subscribers, h.subs]

theorem Sees.captureDisplay (h : u.Sees id v) (names : List Service) (inc exc : Bool)
    (s : Service) :
    (u.captureDisplay id names inc exc s).Sees id (v.captureDisplay names inc exc s) := by
  unfold Hub.captureDisplay Server.captureDisplay
  split <;> split <;> first | exact h.subscribe _ _ | exact h

theorem Sees.captureDisplays (h : u.Sees id v) (names : List Service) (inc exc : Bool) :
    (u.captureDisplays id names inc exc).Sees id (v.captureDisplays names inc exc) := by
  rw [Hub.captureDisplays, Server.captureDisplays, h.services]
  generalize u.services.filter Service.isVideo = ss
  induction ss generalizing u v with
  | nil => exact h
  | cons s ss ih => exact ih (h.captureDisplay names inc exc s)

theorem Sees.captureFor (h : u.Sees id v) (source : VideoSource) (add sub set : List ℕ) :
    (u.captureFor id source add sub set).Sees id (v.captureFor source add sub set) := by
  have hadd : ∀ (ds : List ℕ) {u : Hub} {v : Server}, u.Sees id v →
      (ds.foldl (fun u d => u.addService (.video source d)) u).Sees id
        (ds.foldl (fun v d => v.addService (.video source d)) v) := by
    intro ds
    induction ds with
    | nil => exact fun h => h
    | cons d ds ih => exact fun h => ih (h.addService _)
  have h' := hadd (add ++ set) h
  unfold Hub.captureFor Server.captureFor
  split
  · exact h'.captureDisplays _ _ _
  · split <;> exact h'.captureDisplays _ _ _

/-! ### The message -/

def Captures (id : ℤ) (source : VideoSource) (d : ℕ) (u : Hub) : Prop :=
  id ∈ u.subscribers (.video source d)

instance {source : VideoSource} {d : ℕ} : Decidable (u.Captures id source d) :=
  inferInstanceAs (Decidable (_ ∈ _))

/-- What a message says of a display: captured or to be added, captured and not
to be taken away, or one of those named. -/
def Named (add sub set : List ℕ) (d : ℕ) (captured : Prop) : Prop :=
  if add ≠ [] then captured ∨ d ∈ add
  else if sub ≠ [] then captured ∧ d ∉ sub
  else d ∈ set

theorem captures_connection {follow : Bool} {d : ℕ} :
    (u.connectionCaptureDisplays id source follow add sub set).1.Captures id source d ↔
      if add ≠ [] then u.Captures id source d ∨ d ∈ add
      else if sub ≠ [] then u.Captures id source d ∧ d ∈ sub
      else d ∈ set := by
  have hfor := ((sees_view id u).captureFor source add sub set).subs (.video source d)
  rw [Server.mem_captureFor, (sees_view id u).subs] at hfor
  unfold connectionCaptureDisplays Captures
  dsimp only
  split
  · -- The window focus is no display.
    by_cases hs : .windowFocus ∈ (u.captureFor id source add sub set).services
    · rw [mem_subscribe_self hs, if_neg nofun, ← hfor]
    · rw [Hub.subscribe, dif_neg hs, ← hfor]
  · exact hfor.symm

/-- A message does what it names for the displays there are, unless it is to take
displays away from a connection that captures some of them; the other connections
keep what they have. -/
theorem capture_displays_iff (u : Hub) (id : ℤ) (source : VideoSource) (follow : Bool)
    (add sub set : List ℕ) (existing : ℕ → Prop) :
    ((∀ d, existing d →
        ((u.connectionCaptureDisplays id source follow add sub set).1.Captures id source d ↔
          Named add sub set d (u.Captures id source d))) ↔
      (add ≠ [] ∨ sub = [] ∨ ∀ d, existing d → ¬ u.Captures id source d)) ∧
    ∀ j, j ≠ id → ∀ s,
      (j ∈ (u.connectionCaptureDisplays id source follow add sub set).1.subscribers s ↔
        j ∈ u.subscribers s) := by
  constructor
  · simp only [captures_connection, Named]
    by_cases ha : add = []
    · by_cases hs : sub = []
      · simp [ha, hs]
      simp only [ha, hs, ne_eq, not_true_eq_false, not_false_eq_true, if_false, if_true, false_or]
      refine forall_congr' fun d => imp_congr_right fun _ => ?_
      -- The two sets are the parts of what was captured.
      constructor
      · intro h hc
        by_cases hd : d ∈ sub
        · exact (h.1 ⟨hc, hd⟩).2 hd
        · exact hd (h.2 ⟨hc, hd⟩).2
      · exact fun hc => ⟨fun h => absurd h.1 hc, fun h => absurd h.1 hc⟩
    · simp [ha]
  · intro j hj s
    unfold connectionCaptureDisplays
    split
    · exact (subscribers_subscribe hj).trans (subscribers_captureFor hj)
    · exact subscribers_captureFor hj

def twoDisplays : Hub where
  services := [.video .monitor 0, .video .monitor 1]
  subscribers := fun
    | .video .monitor 0 => [1, 2]
    | .video .monitor 1 => [1, 2]
    | _ => []
  absent := by
    intro s hs
    split
    · simp at hs
    · simp at hs
    · rfl

theorem capture_displays_iff_twoDisplays : (∀ d, d < 2 →
      ((twoDisplays.connectionCaptureDisplays 1 .monitor false [] [] [1]).1.Captures 1 .monitor d ↔
        Named [] [] [1] d (twoDisplays.Captures 1 .monitor d))) ∧
    (2 ∈ (twoDisplays.connectionCaptureDisplays 1 .monitor false [] [] [1]).1.subscribers
        (.video .monitor 0) ↔ 2 ∈ twoDisplays.subscribers (.video .monitor 0)) :=
  have h := capture_displays_iff twoDisplays 1 .monitor false [] [] [1] (· < 2)
  ⟨h.1.2 (.inr (.inl rfl)), h.2 2 (by decide) _⟩

/-- Display 1 is to be taken away: it is kept, and display 0 is not. -/
theorem drops_the_others :
    let u := (twoDisplays.connectionCaptureDisplays 1 .monitor false [] [1] []).1
    twoDisplays.Captures 1 .monitor 0 ∧ twoDisplays.Captures 1 .monitor 1 ∧
      ¬ u.Captures 1 .monitor 0 ∧ u.Captures 1 .monitor 1 := by
  decide

end Hub
end CodeDesk.Conn
