/-
# A permanent password lasts until it is changed

`password_lasts`: once `set_permanent_password` has taken a password, a peer
that knows it is let in until an operation changes the password, whatever is
done to the salt, by the sync from the service and by restarts in between.
What is stored is either the encrypted hash of the password with the salt of
the configuration (`Hashed`), which no operation touches then, or nothing,
and the preset password is the one that was set (`Preset`).
-/
import CodeDesk.Auth.Config
import CodeDesk.Run

namespace CodeDesk.Auth.Installation

variable (v : Installation)

/-! ### Operations -/

inductive Op where
  | setPermanentPassword (env : Env) (password : Text)
  | setPermanentPasswordStorageForSync (env : Env) (storage salt : Text)
  | setSalt (env : Env) (salt : Text)
  | getSalt (env : Env)
  /-- A connection begins and is sent its salt. -/
  | connect (env : Env)
  /-- The configuration is written to the file, and a new process reads it. -/
  | restart (env env' : Env)

def restart (env env' : Env) (w : State) : State :=
  v.load env' (v.store { env with written := true } w)

def step (w : State) : Op → State
  | .setPermanentPassword env p => (v.setPermanentPassword env p w).1
  | .setPermanentPasswordStorageForSync env storage salt =>
    (v.setPermanentPasswordStorageForSync env storage salt w).1
  | .setSalt env salt => v.setSalt env salt w
  | .getSalt env => (v.getSalt env w).1
  | .connect env => (v.getEffectivePermanentPasswordSalt env w).1
  | .restart env env' => v.restart env env' w

/-- The operation succeeds in changing the password: it says so, and the stored
one is another one afterwards. A sync also says so where it only sets the salt;
that changes a stored password, which is bound to it, but not an empty one. -/
def Changes (w : State) : Op → Prop
  | .setPermanentPassword env p =>
    (v.setPermanentPassword env p w).2 = true ∧
      (v.setPermanentPassword env p w).1.config.password ≠ w.config.password
  | .setPermanentPasswordStorageForSync env storage salt =>
    (v.setPermanentPasswordStorageForSync env storage salt w).2 = .ok true ∧
      (w.config.password ≠ [] ∨ storage ≠ [])
  | _ => False

instance (w : State) : DecidablePred (v.Changes w)
  | .setPermanentPassword _ _ => inferInstanceAs (Decidable (_ ∧ _))
  | .setPermanentPasswordStorageForSync _ _ _ => inferInstanceAs (Decidable (_ ∧ _))
  | .setSalt _ _ => inferInstanceAs (Decidable False)
  | .getSalt _ => inferInstanceAs (Decidable False)
  | .connect _ => inferInstanceAs (Decidable False)
  | .restart _ _ => inferInstanceAs (Decidable False)

/-! ### Storing and loading -/

variable {v} {env env' : Env} {w : State} {c : Config} {p salt : Text}

@[simp] theorem store_config (v : Installation) (env : Env) (w : State) :
    (v.store env w).config = w.config := by
  unfold store
  split <;> rfl

/-- The password and the salt are written and read as they are. -/
def Settled (v : Installation) (c : Config) : Prop :=
  ∀ pk, v.validateOrDecryptPermanentPasswordStorage pk c = (c, .ok ()) ∧
    (c.password = [] ∨ v.decodePermanentPasswordH1FromStorage pk c.password ≠ none)

theorem loadId_keeps (v : Installation) (env : Env) (c : Config) :
    (v.loadId env c).1.password = c.password ∧ (v.loadId env c).1.salt = c.salt := by
  unfold loadId
  repeat' split
  all_goals exact ⟨rfl, rfl⟩

theorem validate_of_decode {pk : Option Bytes} {h1 : Digest}
    (h : v.decodePermanentPasswordH1FromStorage pk c.password = some h1) (hs : c.salt ≠ []) :
    v.validateOrDecryptPermanentPasswordStorage pk c = (c, .ok ()) := by
  have hc := Machine.current_of_decode h
  obtain ⟨hashed, again, hd, hh⟩ := Machine.decrypted_of_decode h
  unfold validateOrDecryptPermanentPasswordStorage
  rw [if_neg (Machine.ne_nil_of_current hc), if_neg (Machine.not_legacy_of_current hc), hd]
  dsimp only
  rw [ensurePermanentPasswordHashSalt, if_neg hs, hh]
  rfl

theorem storedPassword_of_settled {f : Config}
    (h : c.password = [] ∨ v.decodePermanentPasswordH1FromStorage env.pk c.password ≠ none) :
    v.storedPassword env f c = c := by
  rw [storedPassword, if_neg]
  rintro ⟨hn, he⟩
  exact h.elim hn fun h => h he

theorem store_settled (env : Env) (h : Settled v w.config) (hw : env.written = true) :
    (v.store env w).file.password = w.config.password ∧
      (v.store env w).file.salt = w.config.salt := by
  obtain ⟨hv, hd⟩ := h env.pk
  have hp : v.prepareConfigForStore env.pk w.config = w.config := by
    rw [prepareConfigForStore, hv]
  have hs : v.storedPassword env w.file w.config = w.config := storedPassword_of_settled hd
  rw [store, if_pos hw, hp, hs, storedId]
  dsimp only
  split <;> exact ⟨rfl, rfl⟩

theorem load_config (v : Installation) (env : Env) (w : State) : (v.load env w).config =
      (v.loadId env (v.validateOrDecryptPermanentPasswordStorage env.pk w.file).1).1 := by
  unfold load
  dsimp only
  split
  · rw [store_config]
  · rfl

theorem restart_settled (h : ∀ c, c.password = w.config.password → c.salt = w.config.salt →
    Settled v c) (env env' : Env) :
    (v.restart env env' w).config.password = w.config.password ∧
      (v.restart env env' w).config.salt = w.config.salt := by
  obtain ⟨hp, hs⟩ := store_settled { env with written := true } (h w.config rfl rfl) rfl
  rw [restart, load_config, (h _ hp hs env'.pk).1]
  obtain ⟨hp', hs'⟩ := v.loadId_keeps env' (v.store { env with written := true } w).file
  exact ⟨hp'.trans hp, hs'.trans hs⟩

/-! ### The password is set -/

/-- The configuration holds the encrypted hash of `p` and `salt`. -/
structure Hashed (v : Installation) (p salt : Text) (c : Config) : Prop where
  decode : ∀ pk, v.decodePermanentPasswordH1FromStorage pk c.password =
    some (v.computePermanentPasswordH1 p salt)
  salt_eq : c.salt = salt
  salt_ne : salt ≠ []

/-- The configuration holds no password, and `p` is the preset one. -/
structure Preset (v : Installation) (p : Text) (c : Config) : Prop where
  empty : c.password = []
  matchesPlain :
    v.presetPermanentPasswordStorageMatchesPlain v.presetStorage v.presetSalt p = true

theorem Hashed.current (h : Hashed v p salt c) : permanentPasswordEncVersion <+: c.password :=
  Machine.current_of_decode (h.decode none)

theorem Hashed.congr {c' : Config} (h : Hashed v p salt c) (hp : c'.password = c.password)
    (hs : c'.salt = c.salt) : Hashed v p salt c' where
  decode := fun pk => by rw [hp, h.decode pk]
  salt_eq := hs.trans h.salt_eq
  salt_ne := h.salt_ne

theorem Hashed.settled (h : Hashed v p salt c) : Settled v c := by
  intro pk
  exact ⟨validate_of_decode (h.decode pk) (h.salt_eq ▸ h.salt_ne), .inr (by simp [h.decode pk])⟩

theorem Preset.settled (h : Preset v p c) : Settled v c := by
  intro pk
  constructor
  · rw [validateOrDecryptPermanentPasswordStorage, if_pos h.empty]
  · exact .inl h.empty

/-! ### One operation -/

theorem getAutoPassword_ne_nil (rng : ℕ → ℕ) : getAutoPassword rng defaultSaltLen ≠ [] := by
  intro h
  have hl := congrArg List.length h
  cases hl

theorem ensurePermanentPasswordSalt_keeps (env : Env) (c : Config) :
    (ensurePermanentPasswordSalt env c).password = c.password ∧
      (c.salt ≠ [] → (ensurePermanentPasswordSalt env c).salt = c.salt) ∧
      (ensurePermanentPasswordSalt env c).salt ≠ [] := by
  unfold ensurePermanentPasswordSalt
  split_ifs with hs
  · exact ⟨rfl, fun h => absurd hs h, getAutoPassword_ne_nil env.rng⟩
  · exact ⟨rfl, fun _ => rfl, hs⟩

/-- What `set_permanent_password` can do: refuse, leave it to the preset
password, clear the password or store its hash. -/
theorem setPermanentPassword_cases (v : Installation) (env : Env) (p : Text) (w : State) :
    v.setPermanentPassword env p w = (w, false) ∨
      (v.setPermanentPassword env p w = (w, true) ∧ Preset v p w.config) ∨
      (p = [] ∧ (v.setPermanentPassword env p w).2 = true ∧
        (v.setPermanentPassword env p w).1.config = { w.config with password := [] }) ∨
      ∃ stored, v.encodePermanentPasswordEncryptedStorageFromH1 env.nonce
          (v.computePermanentPasswordH1 p (ensurePermanentPasswordSalt env w.config).salt) =
            some stored ∧
        (v.setPermanentPassword env p w).2 = true ∧
        (v.setPermanentPassword env p w).1.config =
          { ensurePermanentPasswordSalt env w.config with password := stored } := by
  unfold setPermanentPassword
  by_cases hd : v.disableChangePermanentPassword = true
  · rw [if_pos hd]
    exact .inl rfl
  rw [if_neg hd]
  by_cases hm : v.presetPermanentPasswordStorageMatchesPlain v.presetStorage v.presetSalt p = true ∧
      w.config.password = []
  · rw [if_pos hm]
    exact .inr (.inl ⟨rfl, hm.2, hm.1⟩)
  rw [if_neg hm]
  refine .inr (.inr ?_)
  by_cases hp : p = []
  · left
    rw [if_pos hp]
    dsimp only
    split_ifs with he
    · exact ⟨hp, rfl, by rw [he]⟩
    · exact ⟨hp, rfl, store_config _ _ _⟩
  · right
    rw [if_neg hp]
    unfold computePermanentPasswordStorageForUpdate
    dsimp only
    rw [Machine.encryptedStorage_eq]
    refine ⟨_, rfl, ?_⟩
    dsimp only
    split_ifs with he
    · exact ⟨rfl, by rw [he]⟩
    · exact ⟨rfl, store_config _ _ _⟩

/-- The password stays as it is, and so does the salt it is bound to. -/
structure Keeps (w w' : State) : Prop where
  password : w'.config.password = w.config.password
  salt : permanentPasswordEncVersion <+: w.config.password → w.config.salt ≠ [] →
    w'.config.salt = w.config.salt

theorem Keeps.refl (w : State) : Keeps w w := ⟨rfl, fun _ _ => rfl⟩

theorem setPermanentPassword_keeps (hc : ¬ v.Changes w (.setPermanentPassword env p)) :
    Keeps w (v.setPermanentPassword env p w).1 := by
  have hsame : (v.setPermanentPassword env p w).2 = true →
      (v.setPermanentPassword env p w).1.config.password = w.config.password := by
    intro ht
    by_contra hne
    exact hc ⟨ht, hne⟩
  rcases v.setPermanentPassword_cases env p w with h | ⟨h, -⟩ | ⟨-, ht, h⟩ | ⟨stored, -, ht, h⟩
  · rw [h]
    exact Keeps.refl w
  · rw [h]
    exact Keeps.refl w
  · exact ⟨hsame ht, fun _ _ => by rw [h]⟩
  · refine ⟨hsame ht, fun _ hs => ?_⟩
    rw [h]
    exact (ensurePermanentPasswordSalt_keeps env w.config).2.1 hs

theorem apply_sync_config (v : Installation) (pk : Option Bytes) (storage salt : Text) (c : Config)
    (h : (v.applyPermanentPasswordStorageForSync pk storage salt c).2 ≠ .ok true) :
    (v.applyPermanentPasswordStorageForSync pk storage salt c).1 = c := by
  unfold applyPermanentPasswordStorageForSync at h ⊢
  split_ifs at h ⊢ <;> first | rfl | exact absurd rfl h

theorem sync_eq {storage : Text}
    (h : (v.setPermanentPasswordStorageForSync env storage salt w).2 ≠ .ok true) :
    (v.setPermanentPasswordStorageForSync env storage salt w).1 = w := by
  have hc := v.apply_sync_config env.pk storage salt w.config
  unfold setPermanentPasswordStorageForSync at h ⊢
  rcases ha : v.applyPermanentPasswordStorageForSync env.pk storage salt w.config with
    ⟨c, e | _ | _⟩ <;> rw [ha] at hc h
  · rw [show c = w.config from hc nofun]
  · rw [show c = w.config from hc nofun]
  · exact absurd rfl h

theorem sync_keeps {storage : Text}
    (hc : ¬ v.Changes w (.setPermanentPasswordStorageForSync env storage salt)) :
    Keeps w (v.setPermanentPasswordStorageForSync env storage salt w).1 := by
  by_cases ht : (v.setPermanentPasswordStorageForSync env storage salt w).2 = .ok true
  · obtain ⟨hp, rfl⟩ : w.config.password = [] ∧ storage = [] := by simpa [Changes, ht] using hc
    refine ⟨?_, fun hcur _ => absurd hp (Machine.ne_nil_of_current hcur)⟩
    unfold setPermanentPasswordStorageForSync applyPermanentPasswordStorageForSync
    rw [if_pos rfl]
    split_ifs <;> simp [hp]
  · rw [sync_eq ht]
    exact Keeps.refl w

theorem setSalt_of_hashed (hh : v.passwordIsEmptyOrNotHashed env.pk w.config.password = false)
    (hs : w.config.salt ≠ []) (salt : Text) : v.setSalt env salt w = w := by
  unfold setSalt
  split
  · rfl
  · rw [if_pos ⟨hh, hs⟩]

theorem setSalt_keeps (v : Installation) (env : Env) (salt : Text) (w : State) :
    Keeps w (v.setSalt env salt w) := by
  refine ⟨?_, fun hp hs => ?_⟩
  · unfold setSalt
    split_ifs
    · rfl
    · rfl
    · rw [store_config]
  · rw [setSalt_of_hashed (Machine.hashed_of_current hp _ _) hs]

theorem getSalt_of_ne (hs : w.config.salt ≠ []) : v.getSalt env w = (w, w.config.salt) := by
  rw [getSalt, if_neg hs]

theorem getSalt_keeps (v : Installation) (env : Env) (w : State) : Keeps w (v.getSalt env w).1 := by
  by_cases hs : w.config.salt = []
  · rw [getSalt, if_pos hs]
    exact v.setSalt_keeps env _ w
  · rw [getSalt_of_ne hs]
    exact Keeps.refl w

theorem connect_keeps (v : Installation) (env : Env) (w : State) :
    Keeps w (v.getEffectivePermanentPasswordSalt env w).1 := by
  unfold getEffectivePermanentPasswordSalt
  split_ifs <;> first | exact v.getSalt_keeps env w | exact Keeps.refl w

theorem Keeps.hashed {w' : State} (hk : Keeps w w') (h : Hashed v p salt w.config) :
    Hashed v p salt w'.config :=
  h.congr hk.password (hk.salt h.current (h.salt_eq ▸ h.salt_ne))

theorem Keeps.preset {w' : State} (hk : Keeps w w') (h : Preset v p w.config) :
    Preset v p w'.config :=
  ⟨hk.password.trans h.empty, h.matchesPlain⟩

theorem step_keeps {op : Op} (hc : ¬ v.Changes w op)
    (hr : ∀ c, c.password = w.config.password → c.salt = w.config.salt → Settled v c) :
    Keeps w (v.step w op) := by
  cases op with
  | setPermanentPassword => exact setPermanentPassword_keeps hc
  | setPermanentPasswordStorageForSync => exact sync_keeps hc
  | setSalt env salt => exact v.setSalt_keeps env salt w
  | getSalt env => exact v.getSalt_keeps env w
  | connect env => exact v.connect_keeps env w
  | restart env env' =>
    obtain ⟨hp, hs⟩ := restart_settled hr env env'
    exact ⟨hp, fun _ _ => hs⟩

/-! ### A run of operations -/

theorem hashed_run {ops : List Op} (h : Hashed v p salt w.config)
    (hm : Run.Meets v.step (fun w op => ¬ v.Changes w op) w ops) :
    Hashed v p salt (Run.run v.step w ops).config := by
  refine Run.inv_run_of_meets (I := fun w => Hashed v p salt w.config) ?_ h hm
  intro w op _ h hc
  exact (step_keeps hc fun c hp hs => (h.congr hp hs).settled).hashed h

theorem preset_run {ops : List Op} (h : Preset v p w.config)
    (hm : Run.Meets v.step (fun w op => ¬ v.Changes w op) w ops) :
    Preset v p (Run.run v.step w ops).config := by
  refine Run.inv_run_of_meets (I := fun w => Preset v p w.config) ?_ h hm
  intro w op _ h hc
  exact (step_keeps hc fun c hp _ =>
    Preset.settled ⟨hp.trans h.empty, h.matchesPlain⟩).preset h

/-! ### Logging in -/

theorem Hashed.accepts (h : Hashed v p salt w.config) (pk : Option Bytes) (challenge : Text) :
    v.acceptsPermanent pk ⟨salt, challenge⟩ w (v.answer ⟨salt, challenge⟩ p) = true := by
  have hne := Machine.ne_nil_of_current h.current
  unfold acceptsPermanent validatePasswordStorage
  rw [if_pos hne, if_neg hne, Machine.usable_of_decode (h.decode pk) (h.salt_eq ▸ h.salt_ne),
    h.decode pk]
  simp [verifyH1, answer, Machine.computePermanentPasswordH1]

theorem Hashed.connect (h : Hashed v p salt w.config) (env : Env) :
    v.getEffectivePermanentPasswordSalt env w = (w, salt) := by
  have hs : w.config.salt ≠ [] := h.salt_eq ▸ h.salt_ne
  unfold getEffectivePermanentPasswordSalt
  rw [if_pos (Machine.ne_nil_of_current h.current),
    if_pos (Machine.usable_of_decode (h.decode env.pk) hs), getSalt_of_ne hs, h.salt_eq]

theorem Preset.cases (h : Preset v p c) : v.presetStorage ≠ [] ∧ p ≠ [] ∧
      (v.presetSalt = [] ∧ v.presetStorage = p ∨
        v.presetSalt ≠ [] ∧ v.decodePresetPasswordH1FromStorage v.presetStorage =
          some (v.computePermanentPasswordH1 p v.presetSalt)) := by
  have hm := h.matchesPlain
  unfold Machine.presetPermanentPasswordStorageMatchesPlain at hm
  by_cases he : v.presetStorage = [] ∨ p = []
  · simp [if_pos he] at hm
  rw [if_neg he] at hm
  rw [not_or] at he
  refine ⟨he.1, he.2, ?_⟩
  by_cases hs : v.presetSalt = []
  · rw [if_pos hs] at hm
    exact .inl ⟨hs, by simpa using hm⟩
  · rw [if_neg hs] at hm
    cases hd : v.decodePresetPasswordH1FromStorage v.presetStorage with
    | none => rw [hd] at hm; cases hm
    | some =>
      rw [hd] at hm
      exact .inr ⟨hs, by rw [of_decide_eq_true hm]⟩

theorem Preset.accepts (h : Preset v p w.config) (pk : Option Bytes) {salt challenge : Text}
    (hs : v.presetSalt ≠ [] → salt = v.presetSalt) :
    v.acceptsPermanent pk ⟨salt, challenge⟩ w (v.answer ⟨salt, challenge⟩ p) = true := by
  obtain ⟨hne, hp, hcase⟩ := h.cases
  unfold acceptsPermanent Machine.presetPermanentPasswordStorageIsUsableForAuth
    validatePresetPasswordStorage
  rw [if_neg (not_not.2 h.empty), if_neg hne]
  rcases hcase with ⟨he, hst⟩ | ⟨he, hd⟩
  · rw [if_pos he, if_pos he, hst]
    simp [validatePasswordPlain, hp, verifyH1, answer]
  · rw [if_neg he, if_neg he, hd, hs he]
    simp [verifyH1, answer, Machine.computePermanentPasswordH1]

theorem Preset.connect (h : Preset v p w.config) (env : Env) (hs : v.presetSalt ≠ []) :
    (v.getEffectivePermanentPasswordSalt env w).2 = v.presetSalt := by
  obtain ⟨hne, -, hcase⟩ := h.cases
  have hu : v.presetPermanentPasswordStorageIsUsableForAuth v.presetStorage v.presetSalt = true := by
    rw [Machine.presetPermanentPasswordStorageIsUsableForAuth, if_neg hne, if_neg hs]
    rcases hcase with ⟨he, -⟩ | ⟨-, hd⟩
    · exact absurd he hs
    · rw [hd]
      rfl
  rw [getEffectivePermanentPasswordSalt, if_neg (not_not.2 h.empty), if_pos hs, if_pos hu]

theorem set_cases (hp : p ≠ []) (ht : (v.setPermanentPassword env p w).2 = true) :
    (∃ salt, Hashed v p salt (v.setPermanentPassword env p w).1.config) ∨
      Preset v p (v.setPermanentPassword env p w).1.config := by
  rcases v.setPermanentPassword_cases env p w with h | ⟨h, hpre⟩ | ⟨he, -⟩ | ⟨stored, hst, -, h⟩
  · simp [h] at ht
  · right
    rwa [h]
  · exact absurd he hp
  · left
    rw [h]
    exact ⟨_, fun pk => Machine.decode_of_encrypted hst, rfl,
      (ensurePermanentPasswordSalt_keeps env w.config).2.2⟩

theorem validatePassword_of_accepts {h : Conn.Host} {login : Conn.Env} {c : Conn.Connection}
    (he : login.permanentEnabled = true) (ha : login.acceptsPermanent c.gate.lr.password = true) :
    (c.validatePassword h login).2 = true := by
  rw [Conn.Connection.validatePassword, he, ha]
  split <;> rfl

/-- After `set_permanent_password` has taken `p`, the peer that knows `p` is
let in until the password is changed, also when operations run between the
salt it is sent and its answer. A hashed password keeps its salt, and a sync
that fails changes nothing. -/
theorem password_lasts (v : Installation) :
    (∀ (w : State) (env : Env) (p : Text), p ≠ [] → (v.setPermanentPassword env p w).2 = true →
      ∀ before : List Op,
        Run.Meets v.step (fun w op => ¬ v.Changes w op) (v.setPermanentPassword env p w).1 before →
      ∀ (connecting : Env) (sent : State × Text),
        sent = v.getEffectivePermanentPasswordSalt connecting
          (Run.run v.step (v.setPermanentPassword env p w).1 before) →
      ∀ after : List Op, Run.Meets v.step (fun w op => ¬ v.Changes w op) sent.1 after →
      ∀ (pk : Option Bytes) (challenge : Text) (h : Conn.Host) (login : Conn.Env)
        (c : Conn.Connection),
        login.permanentEnabled = true →
        login.acceptsPermanent =
          v.acceptsPermanent pk ⟨sent.2, challenge⟩ (Run.run v.step sent.1 after) →
        c.gate.lr.password = v.answer ⟨sent.2, challenge⟩ p →
        (c.validatePassword h login).2 = true) ∧
    (∀ (w : State) (env : Env), v.passwordIsEmptyOrNotHashed env.pk w.config.password = false →
      w.config.salt ≠ [] →
      (∀ salt, (v.setSalt env salt w).config.salt = w.config.salt) ∧
        (v.getSalt env w).1.config.salt = w.config.salt) ∧
    ∀ (w : State) (env : Env) (storage salt : Text) (e : String),
      (v.setPermanentPasswordStorageForSync env storage salt w).2 = .error e →
      (v.setPermanentPasswordStorageForSync env storage salt w).1 = w := by
  refine ⟨?_, ?_, ?_⟩
  · intro w env p hp ht before hb connecting sent hsent after ha pk challenge h login c he hacc hlr
    apply validatePassword_of_accepts he
    rw [hacc, hlr]
    rcases set_cases hp ht with ⟨salt, hset⟩ | hset
    · -- the hash stays in the configuration with its salt, which is the one sent
      have hrun := hashed_run hset hb
      rw [hrun.connect connecting] at hsent
      subst hsent
      exact (hashed_run hrun ha).accepts pk challenge
    · have hrun := preset_run hset hb
      have hsalt := hrun.connect connecting
      rw [← hsent] at hsalt
      have hconn : Preset v p sent.1.config := by
        rw [hsent]
        exact (v.connect_keeps connecting _).preset hrun
      exact (preset_run hconn ha).accepts pk hsalt
  · intro w env hh hs
    refine ⟨fun salt => by rw [setSalt_of_hashed hh hs], ?_⟩
    rw [getSalt_of_ne hs]
  · intro w env storage salt e he
    exact sync_eq (by rw [he]; nofun)

def bench : Installation := { Machine.bench (text "machine") with }

def benchEnv (n : UInt8) : Env where
  nonce := ⟨List.replicate 24 n, List.length_replicate⟩
  idNonce := ⟨List.replicate 24 n, List.length_replicate⟩
  rng := fun i => i

/-- The salt is asked for, refused a change and survives a restart. -/
def benchOps : List Op :=
  [.getSalt (benchEnv 1), .setSalt (benchEnv 2) (text "other"), .restart (benchEnv 3) (benchEnv 4),
    .setPermanentPasswordStorageForSync (benchEnv 5) (text "01") (text "other")]

def benchSet : State := (bench.setPermanentPassword (benchEnv 0) (text "secret") {}).1

def benchSent : State × Text :=
  bench.getEffectivePermanentPasswordSalt (benchEnv 6) (Run.run bench.step benchSet benchOps)

theorem password_lasts_bench :
    (bench.setPermanentPassword (benchEnv 0) (text "secret") {}).2 = true ∧
      ∀ (h : Conn.Host) (login : Conn.Env) (c : Conn.Connection), login.permanentEnabled = true →
        login.acceptsPermanent = bench.acceptsPermanent none ⟨benchSent.2, text "abcdef"⟩
          (Run.run bench.step benchSent.1 benchOps) →
        c.gate.lr.password = bench.answer ⟨benchSent.2, text "abcdef"⟩ (text "secret") →
        (c.validatePassword h login).2 = true :=
  ⟨by decide +kernel, bench.password_lasts.1 {} (benchEnv 0) (text "secret") (by decide)
    (by decide +kernel) benchOps (by decide +kernel) (benchEnv 6) benchSent rfl benchOps
    (by decide +kernel) none (text "abcdef")⟩

end CodeDesk.Auth.Installation
