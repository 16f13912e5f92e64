/-
# The configuration is read back as it was stored

`store` moves the id into `enc_id`, and writes a password from before there was
hashing encrypted, or as the file has it already; `load` undoes both
(`Config::store` and `Config::load` of `libs/hbb_common/src/config.rs`). `Holds`
and `AtRest` say what of a configuration is in a file: `store_atRest` brings it
there, `load_of_atRest` takes it back, and `store_of_atRest` then finds nothing
to change.

A plain password of more than `ENCRYPT_MAX_LEN` characters is the exception:
`encrypt_str_or_original` makes the empty text of it (`long_password_lost`).
-/
import CodeDesk.Auth.Lifecycle

namespace CodeDesk.Auth

/-- The key pair that was found later is the one found before, if there was one. -/
def Extends (pk pk' : Option Bytes) : Prop := pk = none ∨ pk' = pk

namespace Machine

variable {m : Machine} {pk pk' : Option Bytes} {s p : Text}

/-! ### What opens and what does not -/

theorem symmetricDecrypt_extends {data d : Bytes} (he : Extends pk pk')
    (h : m.symmetricDecrypt pk data = some d) : m.symmetricDecrypt pk' data = some d := by
  rcases he with rfl | rfl
  · unfold symmetricDecrypt at h ⊢
    cases ho : m.openSecretboxPayload data (m.key (keybuf m.uuid)) <;> rw [ho] at h
    · cases h
    · exact h
  · exact h

/-- The stored text opens to the plain one, and need not be stored again. -/
def Opens (m : Machine) (pk : Option Bytes) (stored plain : Text) : Prop :=
  m.decryptStrOrOriginal pk stored passwordEncVersion = (plain, true, false)

theorem spec_of_decrypted {again : Bool}
    (h : m.decryptStrOrOriginal pk s passwordEncVersion = (p, true, again)) :
    2 < s.length ∧ passwordEncVersion <+: s ∧
      ∃ d, m.decrypt pk (s.drop 2) = some d ∧ fromUtf8Lossy d = p := by
  unfold decryptStrOrOriginal at h
  split_ifs at h with hs
  · refine ⟨hs.1, hs.2, ?_⟩
    cases hd : m.decrypt pk (s.drop 2) <;> rw [hd] at h
    · simp at h
    · exact ⟨_, rfl, (Prod.mk.inj h).1⟩
  · simp at h

theorem opens_of_decrypt {d : Bytes} (hl : 2 < s.length) (hv : passwordEncVersion <+: s)
    (hd : m.decrypt pk (s.drop 2) = some d) (hp : fromUtf8Lossy d = p) : m.Opens pk s p := by
  have hv' : text "00" <+: s := hv
  rw [Opens, decryptStrOrOriginal, if_pos ⟨hl, hv'⟩, hd]
  simp [hp, passwordEncVersion]

theorem opens_of_decrypted {again : Bool}
    (h : m.decryptStrOrOriginal pk s passwordEncVersion = (p, true, again)) : m.Opens pk s p := by
  obtain ⟨hl, hv, d, hd, hp⟩ := spec_of_decrypted h
  exact opens_of_decrypt hl hv hd hp

theorem Opens.extends (h : m.Opens pk s p) (he : Extends pk pk') : m.Opens pk' s p := by
  obtain ⟨hl, hv, d, hd, hp⟩ := spec_of_decrypted h
  refine opens_of_decrypt hl hv ?_ hp
  unfold decrypt at hd ⊢
  split_ifs at hd with hne
  rw [if_pos hne]
  obtain ⟨data, hb, hs⟩ := Option.bind_eq_some_iff.1 hd
  rw [hb, Option.bind_some]
  exact symmetricDecrypt_extends he hs

theorem opens_encrypt {str : String} {maxLen : ℕ} (hne : text str ≠ [])
    (hlen : charCount (text str) ≤ maxLen) (henc : m.isEncrypted (text str) = false)
    (pk : Option Bytes) (nonce : Nonce) :
    m.Opens pk (m.encryptStrOrOriginal nonce (text str) passwordEncVersion maxLen) (text str) := by
  have hver : passwordEncVersion.length = 2 := by decide
  have hcode := m.encode_symmetricEncrypt_ne_nil nonce (text str)
  have he : m.encryptStrOrOriginal nonce (text str) passwordEncVersion maxLen =
      passwordEncVersion ++ m.base64.encode (m.symmetricEncrypt nonce (text str)) := by
    have hversion : passwordEncVersion = text "00" := rfl
    unfold encryptStrOrOriginal encrypt
    rw [if_neg (by simp [henc]), if_neg (Nat.not_lt.2 hlen), if_pos hversion, if_pos hne]
  rw [he]
  refine opens_of_decrypt ?_ (List.prefix_append _ _) ?_ (fromUtf8Lossy_text str)
  · have := List.length_pos_iff.2 hcode
    rw [List.length_append, hver]
    omega
  · rw [List.drop_left' hver, decrypt, if_pos hcode, m.base64.decode_encode, Option.bind_some,
      symmetricDecrypt_encrypt]

/-- A string that may be stored encrypted. -/
structure Sealable (m : Machine) (s : Text) : Prop where
  isString : ∃ str, s = text str
  ne_nil : s ≠ []
  short : charCount s ≤ encryptMaxLen
  notEncrypted : m.isEncrypted s = false

theorem Sealable.opens (h : m.Sealable s) (pk : Option Bytes) (nonce : Nonce) :
    m.Opens pk (m.encryptStrOrOriginal nonce s passwordEncVersion encryptMaxLen) s := by
  obtain ⟨str, rfl⟩ := h.isString
  exact opens_encrypt h.ne_nil h.short h.notEncrypted pk nonce

theorem openSecretboxPayload_short {data : Bytes} (hb : m.box.RefusesShort)
    (hl : data.length < 16) (k : m.box.Key) : m.openSecretboxPayload data k = none := by
  rw [openSecretboxPayload, if_neg (by omega)]
  exact hb k _ data hl

theorem decryptStrOrOriginal_plain (hb : m.box.RefusesShort) (hne : s ≠ [])
    (he : m.isEncrypted s = false) (pk : Option Bytes) :
    m.decryptStrOrOriginal pk s passwordEncVersion = (s, false, true) := by
  have horiginal : (s, false, decide (s ≠ []) && !m.isEncrypted s) = (s, false, true) := by
    simp [hne, he]
  rw [decryptStrOrOriginal, horiginal]
  split_ifs with hs
  · have hd : m.decrypt pk (s.drop 2) = none := by
      rw [isEncrypted, if_neg (by rintro (h | h); exacts [absurd hs.1 (by omega), h hs.2])] at he
      unfold decrypt
      split
      · cases hdec : m.base64.decode (s.drop 2) with
        | none => rfl
        | some data =>
          rw [hdec] at he
          have hshort : data.length < 16 := by simpa using he
          rw [Option.bind_some]
          unfold symmetricDecrypt
          rw [openSecretboxPayload_short hb hshort]
          dsimp only
          split
          · split
            · exact openSecretboxPayload_short hb hshort _
            · rfl
          · rfl
      · rfl
    rw [hd]
  · rfl

theorem decode_extends {h1 : Digest} (he : Extends pk pk')
    (h : m.decodePermanentPasswordH1FromStorage pk s = some h1) :
    m.decodePermanentPasswordH1FromStorage pk' s = some h1 := by
  have hc := current_of_decode h
  obtain ⟨hashed, again, hd, hh⟩ := decrypted_of_decode h
  have hd' : m.decryptPermanentPasswordStrOrOriginal pk' s = (hashed, true, again) := by
    unfold decryptPermanentPasswordStrOrOriginal at hd ⊢
    split_ifs at hd with hs
    · rw [if_pos hs]
      rcases hb : m.base64.decode (s.drop 2) with _ | data <;> rw [hb] at hd
      · simp at hd
      · dsimp only at hd ⊢
        cases ho : m.symmetricDecrypt pk data <;> rw [ho] at hd
        · simp at hd
        · rwa [symmetricDecrypt_extends he ho]
    · simp at hd
  rw [decodePermanentPasswordH1FromStorage, if_pos hc, hd']
  exact hh

/-- A password from before there was hashing, and not taken for a hash. -/
structure Plain (m : Machine) (p : Text) : Prop extends m.Sealable p where
  notCurrent : ∀ pk, (m.decryptPermanentPasswordStrOrOriginal pk p).2.1 = false

theorem Plain.decode (h : m.Plain p) (pk : Option Bytes) :
    m.decodePermanentPasswordH1FromStorage pk p = none := by
  have hn := h.notCurrent pk
  unfold decodePermanentPasswordH1FromStorage
  split
  · rcases hd : m.decryptPermanentPasswordStrOrOriginal pk p with ⟨hashed, decrypted, again⟩
    rw [hd] at hn
    obtain rfl : decrypted = false := hn
    rfl
  · rfl

end Machine

namespace Installation

open Machine (Opens Sealable Plain)

variable {v : Installation} {pk pk' : Option Bytes} {env env' : Env} {w : State} {c f : Config}

/-! ### Passwords that last -/

/-- A password with its salt: none, a hash that can be decoded, or a plain one. -/
inductive Storable (v : Installation) (pk : Option Bytes) (c : Config) : Prop
  | empty (h : c.password = [])
  | hashed {h1 : Digest} (h : v.decodePermanentPasswordH1FromStorage pk c.password = some h1)
      (salt : c.salt ≠ [])
  | plain (h : v.Plain c.password)

theorem Storable.extends (h : Storable v pk c) (he : Extends pk pk') : Storable v pk' c := by
  cases h with
  | empty h => exact .empty h
  | hashed h salt => exact .hashed (Machine.decode_extends he h) salt
  | plain h => exact .plain h

theorem Storable.congr {c' : Config} (h : Storable v pk c) (hp : c'.password = c.password)
    (hs : c'.salt = c.salt) : Storable v pk c' := by
  cases h with
  | empty h => exact .empty (hp.trans h)
  | hashed h salt => exact .hashed (hp ▸ h) (hs ▸ salt)
  | plain h => exact .plain (hp ▸ h)

/-- The text `stored` in the file stands for the password of `c`. -/
inductive Holds (v : Installation) (pk : Option Bytes) (c : Config) (stored : Text) : Prop
  | same (h : stored = c.password)
      (settled : c.password = [] ∨ v.decodePermanentPasswordH1FromStorage pk c.password ≠ none)
  | sealed (h : v.Opens pk stored c.password) (plain : v.Plain c.password)

/-- The file `f` has what is to last of the configuration `c`. -/
structure AtRest (v : Installation) (pk : Option Bytes) (f c : Config) : Prop where
  storable : Storable v pk c
  id : v.Opens pk f.encId c.id
  password : Holds v pk c f.password
  rest : f = { c with id := [], encId := f.encId, password := f.password }

theorem keepEncrypted_opens (h : v.Plain c.password) (stored : Text) :
    v.Opens env.pk (v.keepEncryptedStorageIfPlaintextUnchanged env c.password stored)
      c.password := by
  unfold keepEncryptedStorageIfPlaintextUnchanged
  rcases hd : v.decryptStrOrOriginal env.pk stored passwordEncVersion with ⟨p, encrypted, again⟩
  dsimp only
  split_ifs with hk
  · obtain ⟨rfl, rfl⟩ := hk
    exact Machine.opens_of_decrypted hd
  · exact h.toSealable.opens env.pk env.nonce

theorem keepEncrypted_of_opens (env : Env) {stored p : Text} (h : v.Opens env.pk stored p) :
    v.keepEncryptedStorageIfPlaintextUnchanged env p stored = stored := by
  unfold keepEncryptedStorageIfPlaintextUnchanged
  rw [show v.decryptStrOrOriginal env.pk stored passwordEncVersion = (p, true, false) from h]
  exact if_pos ⟨rfl, rfl⟩

theorem storedPassword_of_plain (h : v.Plain c.password) : v.storedPassword env f c =
      { c with
        password := v.keepEncryptedStorageIfPlaintextUnchanged env c.password f.password } := by
  rw [storedPassword, if_pos ⟨h.ne_nil, h.decode env.pk⟩]

theorem storedPassword_holds (h : Storable v env.pk c) (f : Config) :
    ∃ stored, v.storedPassword env f c = { c with password := stored } ∧
      Holds v env.pk c stored := by
  cases h with
  | empty h =>
    exact ⟨_, storedPassword_of_settled (.inl h), .same rfl (.inl h)⟩
  | hashed h =>
    have hd : v.decodePermanentPasswordH1FromStorage env.pk c.password ≠ none := by simp [h]
    exact ⟨_, storedPassword_of_settled (.inr hd), .same rfl (.inr hd)⟩
  | plain h => exact ⟨_, storedPassword_of_plain h, .sealed (keepEncrypted_opens h _) h⟩

theorem storedId_opens (env : Env) (h : v.Sealable c.id) :
    ∃ encId, v.storedId env c = { c with id := [], encId := encId } ∧
      v.Opens env.pk encId c.id := by
  unfold storedId
  rcases hd : v.decryptStrOrOriginal env.pk c.encId passwordEncVersion with ⟨id, encrypted, again⟩
  dsimp only
  split_ifs with hk
  · exact ⟨_, rfl, h.opens env.pk env.idNonce⟩
  · simp only [Bool.not_eq_true', not_or, Bool.not_eq_false, ne_eq, not_not] at hk
    obtain ⟨rfl, rfl⟩ := hk
    exact ⟨_, rfl, Machine.opens_of_decrypted hd⟩

theorem AtRest.extends (h : AtRest v pk f c) (he : Extends pk pk') : AtRest v pk' f c where
  storable := h.storable.extends he
  id := h.id.extends he
  rest := h.rest
  password := by
    cases h.password with
    | same hp settled =>
      refine .same hp (settled.imp_right fun hd => ?_)
      obtain ⟨h1, hd⟩ := Option.ne_none_iff_exists'.1 hd
      rw [Machine.decode_extends he hd]
      exact Option.some_ne_none _
    | sealed hp plain => exact .sealed (hp.extends he) plain

section

variable (hb : v.box.RefusesShort)

include hb

theorem validate_of_plain (h : v.Plain c.password) :
    v.validateOrDecryptPermanentPasswordStorage pk c = (c, .ok ()) := by
  have hd := Machine.decryptStrOrOriginal_plain hb h.ne_nil h.notEncrypted pk
  have hn := h.notCurrent pk
  rw [validateOrDecryptPermanentPasswordStorage, if_neg h.ne_nil, hd]
  rcases hp : v.decryptPermanentPasswordStrOrOriginal pk c.password with ⟨storage, decrypted, again⟩
  rw [hp] at hn
  obtain rfl : decrypted = false := hn
  split <;> rfl

theorem Storable.validate (h : Storable v pk c) :
    v.validateOrDecryptPermanentPasswordStorage pk c = (c, .ok ()) := by
  cases h with
  | empty h =>
    rw [validateOrDecryptPermanentPasswordStorage, if_pos h]
  | hashed h salt => exact validate_of_decode h salt
  | plain h => exact validate_of_plain hb h

theorem Storable.prepare (h : Storable v pk c) : v.prepareConfigForStore pk c = c := by
  rw [prepareConfigForStore, h.validate hb]

/-! ### What is in the file -/

theorem store_atRest (env : Env) (h : Storable v env.pk w.config) (hid : v.Sealable w.config.id)
    (hw : env.written = true) : AtRest v env.pk (v.store env w).file w.config := by
  obtain ⟨stored, hs, hholds⟩ := storedPassword_holds h w.file
  obtain ⟨encId, hi, hopens⟩ := storedId_opens (c := { w.config with password := stored }) env hid
  have hfile : (v.store env w).file =
      { w.config with id := [], encId := encId, password := stored } := by
    rw [store, if_pos hw, h.prepare hb, hs, hi]
  rw [hfile]
  exact ⟨h, hopens, hholds, rfl⟩

theorem AtRest.validate (h : AtRest v pk f c) : v.validateOrDecryptPermanentPasswordStorage pk f =
      ({ f with password := c.password }, .ok ()) := by
  cases h.password with
  | same hp =>
    have hs : f.salt = c.salt := by rw [h.rest]
    have hf := (h.storable.congr hp hs).validate hb
    rw [hf, ← hp]
  | sealed hp =>
    obtain ⟨hl, hv, -⟩ := Machine.spec_of_decrypted hp
    have hne : f.password ≠ [] := by
      intro hn
      rw [hn] at hl
      simp at hl
    unfold validateOrDecryptPermanentPasswordStorage
    rw [if_neg hne, if_pos hv,
      show v.decryptStrOrOriginal pk f.password passwordEncVersion = (c.password, true, false)
        from hp]

theorem load_of_atRest (h : AtRest v env.pk w.file c) :
    v.load env w = { w with config := { c with encId := w.file.encId } } := by
  have hconfig : ({ w.file with password := c.password, id := c.id } : Config) =
      { c with encId := w.file.encId } := by
    conv_lhs => rw [h.rest]
  have hid : v.loadId env { w.file with password := c.password } =
      ({ c with encId := w.file.encId }, false) := by
    unfold loadId
    rw [show v.decryptStrOrOriginal env.pk
      ({ w.file with password := c.password } : Config).encId passwordEncVersion =
        (c.id, true, false) from h.id]
    dsimp only
    rw [hconfig]
  rw [load, h.validate hb, hid]
  rfl

theorem store_of_atRest (env : Env) (h : AtRest v env.pk w.file c)
    (hc : w.config = { c with encId := w.file.encId }) : v.store env w = w := by
  have hs : Storable v env.pk w.config := h.storable.congr (by rw [hc]) (by rw [hc])
  have hpassword : v.storedPassword env w.file w.config =
      { w.config with password := w.file.password } := by
    cases h.password with
    | same hp settled =>
      rw [storedPassword_of_settled (by rw [hc]; exact settled), hp, hc]
    | sealed hp plain =>
      rw [storedPassword_of_plain (by rw [hc]; exact plain)]
      have hk := keepEncrypted_of_opens env hp
      rw [show w.config.password = c.password by rw [hc], hk]
  have hid : v.storedId env { w.config with password := w.file.password } = w.file := by
    unfold storedId
    rw [show v.decryptStrOrOriginal env.pk
      ({ w.config with password := w.file.password } : Config).encId passwordEncVersion =
        (c.id, true, false) by rw [hc]; exact h.id]
    dsimp only
    rw [if_neg (by simp [hc])]
    conv_rhs => rw [h.rest]
    rw [hc]
  unfold store
  split
  · rw [hs.prepare hb, hpassword, hid]
  · rfl

/-! ### The round trip -/

theorem Storable.accepts (h : Storable v pk w.config) (he : Extends pk pk') (hash : Hash)
    (lr : Bytes) : v.acceptsPermanent pk' hash w lr = v.acceptsPermanent pk hash w lr := by
  unfold acceptsPermanent
  cases h with
  | empty h => rw [if_neg (not_not.2 h), if_neg (not_not.2 h)]
  | hashed h salt =>
    have h' := Machine.decode_extends he h
    have hne := Machine.ne_nil_of_current (Machine.current_of_decode h)
    rw [if_pos hne, if_pos hne, Machine.usable_of_decode h salt, Machine.usable_of_decode h' salt]
    unfold validatePasswordStorage
    rw [h, h']
  | plain h =>
    have husable : ∀ pk, v.localPermanentPasswordStorageIsUsableForAuth pk w.config.password
        w.config.salt = true := by
      intro pk
      unfold Machine.localPermanentPasswordStorageIsUsableForAuth
      rw [if_neg h.ne_nil, h.decode pk, if_neg nofun, if_neg (by rw [h.notCurrent pk]; simp),
        Machine.decryptStrOrOriginal_plain hb h.ne_nil h.notEncrypted pk]
      simp
    rw [if_pos h.ne_nil, if_pos h.ne_nil, husable, husable]
    unfold validatePasswordStorage
    rw [h.decode, h.decode]

theorem restart_atRest (h : Storable v env.pk w.config) (hid : v.Sealable w.config.id)
    (he : Extends env.pk env'.pk) :
    AtRest v env'.pk (v.restart env env' w).file w.config ∧ (v.restart env env' w).config =
        { w.config with encId := (v.restart env env' w).file.encId } := by
  have hrest : AtRest v env'.pk (v.store { env with written := true } w).file w.config :=
    (store_atRest hb { env with written := true } h hid rfl).extends he
  have hload : v.restart env env' w = _ := load_of_atRest hb hrest
  rw [hload]
  exact ⟨hrest, rfl⟩

theorem restart_of_atRest (h : AtRest v pk w.file c)
    (hc : w.config = { c with encId := w.file.encId }) (hpk : env.pk = pk) (hpk' : env'.pk = pk) :
    v.restart env env' w = w := by
  subst hpk
  unfold restart
  rw [store_of_atRest hb { env with written := true } h hc, load_of_atRest hb (hpk' ▸ h), ← hc]

end

/-- What is stored is loaded again: the id, the keys, the salt and the password,
which accepts whom it accepted; and the second trip and all further ones leave
both the configuration and the file as they are. -/
theorem load_store (v : Installation) (hb : v.box.RefusesShort) (w : State) (env env' : Env)
    (hid : v.Sealable w.config.id) (hp : Storable v env.pk w.config)
    (he : Extends env.pk env'.pk) :
    let w' := v.restart env env' w
    w'.config = { w.config with encId := w'.config.encId } ∧
      (∀ hash lr, v.acceptsPermanent env'.pk hash w' lr = v.acceptsPermanent env.pk hash w lr) ∧
      ∀ trips : List (Env × Env), (∀ t ∈ trips, t.1.pk = env'.pk ∧ t.2.pk = env'.pk) →
        Run.run (fun w t => v.restart t.1 t.2 w) w' trips = w' := by
  obtain ⟨hrest, hconfig⟩ := restart_atRest hb hp hid he
  refine ⟨by rw [hconfig], fun hash lr => ?_, fun trips ht => ?_⟩
  · rw [← hp.accepts hb he]
    unfold acceptsPermanent
    rw [hconfig]
  · -- The state after the first trip is a fixed point of the trip.
    refine Run.inv_run_of_mem (I := fun s => s = v.restart env env' w) (fun s t hm hs => ?_) rfl
    rw [hs]
    exact restart_of_atRest hb hrest hconfig (ht t hm).1 (ht t hm).2

def benchOld (password : Text) : State :=
  { config :=
      { id := text "123456789", password := password, salt := text "salt"
        keyPair := ([1], [2]), keysConfirmed := [(text "hbbs", true)] } }

def benchLater : Env := { benchEnv 2 with pk := some [2] }

theorem load_store_bench :
    (bench.restart (benchEnv 1) benchLater (benchOld (text "secret"))).config =
      { (benchOld (text "secret")).config with
        encId :=
          (bench.restart (benchEnv 1) benchLater (benchOld (text "secret"))).config.encId } := by
  have hplain : bench.Plain (text "secret") := by
    refine ⟨⟨⟨"secret", rfl⟩, by decide, by decide, by decide⟩, fun pk => ?_⟩
    rw [Machine.decryptPermanentPasswordStrOrOriginal.eq_def, if_neg (by decide)]
  have hid : bench.Sealable (text "123456789") :=
    ⟨⟨"123456789", rfl⟩, by decide, by decide, by decide⟩
  exact (load_store bench Sealing.Box.keyed_refusesShort (benchOld (text "secret")) (benchEnv 1)
    benchLater hid (.plain hplain) (.inl rfl)).1

/-- A plain password of 129 characters is not in the file any more. -/
theorem long_password_lost : let password : Text := List.replicate 129 97
    let w := benchOld password
    let hash : Hash := ⟨text "salt", text "challenge"⟩
    bench.isEncrypted password = false ∧
      bench.acceptsPermanent none hash w (bench.answer hash password) = true ∧
      (bench.restart (benchEnv 1) (benchEnv 2) w).config.password = [] ∧
      bench.acceptsPermanent none hash (bench.restart (benchEnv 1) (benchEnv 2) w)
        (bench.answer hash password) = false := by
  decide +kernel

end Installation
end CodeDesk.Auth
