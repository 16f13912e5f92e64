/-
# Secrets at rest, read back

What the four functions that keep secrets promise each other (`KeepsSecrets`),
for strings and for bytes alike: a value is read back as it was, encrypting
twice is encrypting once, and what cannot be decrypted is taken as it is.

A value in the format from before there were nonces is tried in the new format
first, and no prefix tells the two apart. It is read as it was where the cipher
opens, of what stands in the value, only what was sealed (`Unforged`).
-/
import CodeDesk.Auth.RoundTrip
import CodeDesk.Auth.Unreadable

namespace CodeDesk.Auth.Machine

/-- The payload of a value from before there were nonces. -/
def legacyEncrypt (m : Machine) (data : Bytes) : Bytes :=
  m.box.sealBox (m.key (keybuf m.uuid)) (List.replicate 24 0) data

/-- Of the nonces and boxes in `payload` the machine's key opens exactly what
was sealed with it, the messages of `history` under their nonces, and `payload`
is none of the values that were encrypted so. -/
structure Unforged (m : Machine) (history : List (Nonce × Bytes)) (payload : Bytes) : Prop where
  opens : ∀ (nonce : Nonce) (c t : Bytes), nonce.bytes ++ c <:+ payload →
    m.box.openBox (m.key (keybuf m.uuid)) nonce.bytes c = some t →
    (nonce, t) ∈ history ∧ c = m.box.sealBox (m.key (keybuf m.uuid)) nonce.bytes t
  apart : ∀ v ∈ history, m.symmetricEncrypt v.1 v.2 ≠ payload

/-- What holds between a function that encrypts values and one that decrypts
them. -/
structure KeepsSecrets (m : Machine) (pk : Option Bytes) (isValue : Bytes → Prop)
    (size : Bytes → ℕ) (enc : Nonce → Bytes → Text → ℕ → Bytes)
    (dec : Bytes → Text → Bytes × Bool × Bool) : Prop where
  roundTrip : ∀ nonce s maxLen, isValue s → s ≠ [] → size s ≤ maxLen → m.isEncrypted s = false →
    dec (enc nonce s (text "00") maxLen) (text "00") = (s, true, false)
  twice : ∀ nonce nonce' s version maxLen,
    enc nonce' (enc nonce s version maxLen) version maxLen = enc nonce s version maxLen
  original : ∀ s version, (text "00" <+: s → m.decrypt pk (s.drop 2) = none) →
    dec s version = (s, false, s ≠ [] && !m.isEncrypted s)
  legacy : ∀ history s, isValue s → m.Unforged history (m.legacyEncrypt s) →
    dec (text "00" ++ m.base64.encode (m.legacyEncrypt s)) (text "00") = (s, true, false)

variable {m : Machine} {pk : Option Bytes}

theorem symmetricDecrypt_legacy {history : List (Nonce × Bytes)} {s : Bytes}
    (h : m.Unforged history (m.legacyEncrypt s)) :
    m.symmetricDecrypt pk (m.legacyEncrypt s) = some s := by
  have hopen : m.openSecretboxPayload (m.legacyEncrypt s) (m.key (keybuf m.uuid)) = some s := by
    have hlegacy : m.box.openBox (m.key (keybuf m.uuid)) (List.replicate 24 0) (m.legacyEncrypt s) =
        some s := m.box.open_seal _ _ _
    unfold openSecretboxPayload
    split_ifs with hv1
    · obtain ⟨rest, hrest⟩ := List.head?_eq_some_iff.1 hv1.1
      have hlen : 24 ≤ rest.length := by
        have := hv1.2
        rw [hrest, List.length_cons] at this
        omega
      split
      · rename_i t ht
        -- the rest was sealed under the nonce it is opened with, so the value was a new one
        rw [hrest, Nat.add_comm, List.drop_succ_cons, List.drop_succ_cons, List.drop_zero] at ht
        have hin : rest.take 24 ++ rest.drop 24 <:+ m.legacyEncrypt s := by
          rw [List.take_append_drop, hrest]
          exact List.suffix_cons _ _
        obtain ⟨hmem, hc⟩ := h.opens ⟨rest.take 24, by simp [hlen]⟩ _ t hin ht
        refine absurd ?_ (h.apart _ hmem)
        rw [hrest, symmetricEncrypt, ← hc, List.take_append_drop]
      · exact hlegacy
    · exact hlegacy
  unfold symmetricDecrypt
  rw [hopen]

theorem legacyEncrypt_length (s : Bytes) : 16 ≤ (m.legacyEncrypt s).length := by
  rw [legacyEncrypt, m.box.length_seal]
  omega

theorem isEncrypted_encrypt {nonce : Nonce} {s e : Bytes} (h : m.encrypt nonce s = some e) :
    m.isEncrypted (text "00" ++ e) = true := by
  unfold encrypt at h
  split_ifs at h
  cases h
  refine Installation.isEncrypted_encode m ?_
  simp only [symmetricEncrypt, List.length_cons, List.length_append, nonce.length_bytes,
    m.box.length_seal]
  omega

/-- The two functions that encrypt differ in how they measure a value. -/
def encryptOrOriginal (m : Machine) (size : Bytes → ℕ) (nonce : Nonce) (s : Bytes) (version : Text)
    (maxLen : ℕ) : Bytes :=
  if m.isEncrypted s then s
  else if maxLen < size s then []
  else if version = text "00" then
    match m.encrypt nonce s with
    | some e => version ++ e
    | none => s
  else s

theorem encryptOrOriginal_twice {size : Bytes → ℕ} (hsize : size [] = 0) (nonce nonce' : Nonce)
    (s : Bytes) (version : Text) (maxLen : ℕ) :
    m.encryptOrOriginal size nonce' (m.encryptOrOriginal size nonce s version maxLen) version maxLen =
      m.encryptOrOriginal size nonce s version maxLen := by
  have hnil : m.encryptOrOriginal size nonce' [] version maxLen = [] := by
    simp [encryptOrOriginal, hsize, isEncrypted, encrypt]
  by_cases henc : m.isEncrypted s = true
  · simp [encryptOrOriginal, henc]
  by_cases hlong : maxLen < size s
  · simpa [encryptOrOriginal, henc, hlong] using hnil
  by_cases hver : version = text "00"
  · subst hver
    by_cases hs : s = []
    · subst hs
      simp [encryptOrOriginal, hsize, isEncrypted, encrypt]
    · have hsome : m.encrypt nonce s = some (m.base64.encode (m.symmetricEncrypt nonce s)) :=
        if_pos hs
      have hshape := isEncrypted_encrypt hsome
      simp [encryptOrOriginal, henc, hlong, hsome, hshape]
  · simp [encryptOrOriginal, henc, hlong, hver]

theorem encryptOrOriginal_new {size : Bytes → ℕ} {s : Bytes} {maxLen : ℕ} (nonce : Nonce)
    (hs : s ≠ []) (hsize : size s ≤ maxLen) (henc : m.isEncrypted s = false) :
    m.encryptOrOriginal size nonce s (text "00") maxLen =
      text "00" ++ m.base64.encode (m.symmetricEncrypt nonce s) := by
  unfold encryptOrOriginal encrypt
  rw [if_neg (by simp [henc]), if_neg (Nat.not_lt.2 hsize), if_pos rfl, if_pos hs]

theorem decryptStrOrOriginal_encode {payload : Bytes} {str : String} (hp : payload ≠ [])
    (h : m.symmetricDecrypt pk payload = some (text str)) :
    m.decryptStrOrOriginal pk (text "00" ++ m.base64.encode payload) (text "00") =
      (text str, true, false) := by
  have hver : (text "00").length = 2 := by decide
  have hlen := m.base64.length_encode payload
  have hpos := List.length_pos_iff.2 hp
  refine opens_of_decrypt ?_ (List.prefix_append _ _) ?_ (fromUtf8Lossy_text str)
  · rw [List.length_append, hver, hlen]
    omega
  · rw [List.drop_left' hver, decrypt, if_pos, m.base64.decode_encode, Option.bind_some, h]
    refine List.ne_nil_of_length_pos ?_
    omega

theorem keepsSecrets_str (m : Machine) (pk : Option Bytes) :
    KeepsSecrets m pk (fun s => ∃ str, s = text str) charCount m.encryptStrOrOriginal
      (m.decryptStrOrOriginal pk) where
  roundTrip nonce s maxLen hs hne hsize henc := by
    obtain ⟨str, rfl⟩ := hs
    exact opens_encrypt hne hsize henc pk nonce
  twice := encryptOrOriginal_twice rfl
  original s version h := by
    unfold decryptStrOrOriginal
    split_ifs with hs
    · rw [h hs.2]
    · rfl
  legacy history s hs h := by
    obtain ⟨str, rfl⟩ := hs
    refine decryptStrOrOriginal_encode ?_ (symmetricDecrypt_legacy h)
    exact List.ne_nil_of_length_pos (Nat.lt_of_lt_of_le (by decide) (legacyEncrypt_length _))

theorem starts_of_version {s : Bytes} (h : fromUtf8Lossy (s.take 2) = text "00") : text "00" <+: s := by
  have hv : text "00" = [48, 48] := by decide
  rcases s with _ | ⟨a, _ | ⟨b, s⟩⟩
  · cases h
  all_goals
    simp only [List.take_succ_cons, List.take_nil, List.take_zero, fromUtf8Lossy] at h
    repeat' split at h
    all_goals simp_all [replacement]

theorem keepsSecrets_vec (m : Machine) (pk : Option Bytes) :
    KeepsSecrets m pk (fun _ => True) List.length m.encryptVecOrOriginal
      (m.decryptVecOrOriginal pk) where
  roundTrip nonce s maxLen _ hne hsize henc := by
    have henc' := encryptOrOriginal_new nonce hne hsize henc
    have hdec := m.decryptVecOrOriginal_encode pk (m.symmetricEncrypt_ne_nil nonce s)
    exact (congrArg (m.decryptVecOrOriginal pk · _) henc').trans
      (hdec.1 s (m.symmetricDecrypt_encrypt pk nonce s))
  twice := encryptOrOriginal_twice rfl
  original s version h := by
    unfold decryptVecOrOriginal
    split_ifs with hs
    · rw [h (starts_of_version hs.2)]
    · rfl
  legacy history s _ h := by
    refine (m.decryptVecOrOriginal_encode pk ?_).1 s (symmetricDecrypt_legacy h)
    exact List.ne_nil_of_length_pos (Nat.lt_of_lt_of_le (by decide) (legacyEncrypt_length _))

/-- **Secrets are read back**, strings and bytes. -/
theorem secrets_kept (m : Machine) (pk : Option Bytes) :
    KeepsSecrets m pk (fun s => ∃ str, s = text str) charCount m.encryptStrOrOriginal
        (m.decryptStrOrOriginal pk) ∧
      KeepsSecrets m pk (fun _ => True) List.length m.encryptVecOrOriginal
        (m.decryptVecOrOriginal pk) :=
  ⟨keepsSecrets_str m pk, keepsSecrets_vec m pk⟩

/-- A legacy value that starts like a new one. -/
theorem secrets_kept_bench : let m := bench [1]
    m.Unforged [] (m.legacyEncrypt [7]) ∧ (m.legacyEncrypt [7]).head? = some formatV1 ∧
      m.decryptVecOrOriginal none (text "00" ++ m.base64.encode (m.legacyEncrypt [7])) (text "00") =
        ([7], true, false) := by
  intro m
  have h : m.Unforged [] (m.legacyEncrypt [7]) := by
    refine ⟨fun nonce c t hsuf _ => ?_, by simp⟩
    -- it is shorter than a nonce
    have hlen := hsuf.length_le
    have hshort : (m.legacyEncrypt [7]).length = 17 := by decide +kernel
    rw [hshort, List.length_append, nonce.length_bytes] at hlen
    omega
  exact ⟨h, by decide +kernel, (secrets_kept m none).2.legacy [] _ trivial h⟩

end CodeDesk.Auth.Machine
