/-
# Certificates go unchecked only with the user's consent

What is recorded of a run of connections says of every connector that accepts
invalid certificates: the user allowed it, a try with the check to the same
address failed before, and none has succeeded since the cache was last reset
(`Allowed`). The invariant ties the cache to the record (`Inv`): the cache says
`true` only for an address where a try failed, and `false` for every address
where one succeeded.

An address is what the URL spells between the scheme and the path; for a URL
without `@` it is the key of the cache. The same host and port in two spellings
are two addresses (`spelled_twice`): the URL of an HTTPS proxy always has the
port. Where the HTTP client cannot be built as asked, the default client takes its
place and checks, and its success is recorded as one without the check; so the
runs are those in which every client can be built (`Input.Ordinary`).
-/
import CodeDesk.Tls.Connect

namespace CodeDesk.Tls

/-! ### The record -/

/-- What stands between the scheme and the path or the query. -/
def address (u : Url) : Url := (afterScheme u).takeWhile fun c => c ≠ '/' ∧ c ≠ '?'

/-- The try is one with the check. -/
structure Checks (k : Url) (o : Outcome) (t : Try) : Prop where
  address : address t.url = k
  tls : t.tlsType ≠ .plain
  accepts : t.accepts = false
  outcome : t.outcome = some o

def Failed (k : Url) (log : List Entry) : Prop :=
  ∃ t, .tried t ∈ log ∧ ∃ o, o ≠ .ok ∧ Checks k o t

/-- A try with the check succeeded, and the cache was not reset since. -/
def Validated (k : Url) (log : List Entry) : Prop :=
  ∃ before t after, log = before ++ .tried t :: after ∧ .reset ∉ after ∧ Checks k .ok t

structure Allowed (log : List Entry) (t : Try) : Prop where
  consent : t.consent = true
  failed : Failed (address t.url) log
  notValidated : ¬ Validated (address t.url) log

/-- Every try of the record that accepts invalid certificates was allowed. -/
def Fine (log : List Entry) : Prop :=
  ∀ before t after, log = before ++ .tried t :: after → t.accepts = true → Allowed before t

/-- A call to a URL without `@`, with clients that can be built as asked. -/
def Input.Ordinary : Input → Prop
  | .websocket _ u _ => '@' ∉ u
  | .proxy _ host _ => '@' ∉ host
  | .http _ u reply | .httpAsync _ u reply => '@' ∉ u ∧ ∀ n, (reply n).builds = true
  | .reset => True

theorem address_eq_key {u : Url} (hu : '@' ∉ u) : address u = getDomainAndPortFromUrl u := by
  have hsuf : afterScheme u <:+ u := by
    unfold afterScheme
    split
    · rename_i t ht
      exact (List.drop_suffix 3 t).trans ((List.mem_tails _ _).1 (List.mem_of_find?_eq_some ht))
    · exact List.suffix_refl u
  rw [address, getDomainAndPortFromUrl, afterAt_eq_self fun h => hu (hsuf.subset h)]

variable {k : Url} {log : List Entry} {t : Try} {e : Entry} {o : Outcome}

theorem Failed.append (h : Failed k log) (more : List Entry) : Failed k (log ++ more) := by
  obtain ⟨t, ht, hf⟩ := h
  exact ⟨t, List.mem_append_left _ ht, hf⟩

theorem failed_concat (ho : o ≠ .ok) (h : Checks k o t) : Failed k (log ++ [.tried t]) :=
  ⟨t, by simp, o, ho, h⟩

/-- An entry of a longer record is the last one, or the last one comes after it. -/
theorem concat_cases {before after : List Entry} {x : Entry}
    (h : log ++ [e] = before ++ x :: after) :
    (log = before ∧ e = x) ∨ ∃ after', after = after' ++ [e] ∧ log = before ++ x :: after' := by
  rcases List.eq_nil_or_concat after with rfl | ⟨after, e', rfl⟩
  · obtain ⟨hlog, he⟩ := List.append_inj' h rfl
    exact .inl ⟨hlog, (List.cons.inj he).1⟩
  · rw [List.concat_eq_append, ← List.cons_append, ← List.append_assoc] at h
    obtain ⟨hlog, he⟩ := List.append_inj' h rfl
    exact .inr ⟨after, by rw [List.concat_eq_append, he], hlog⟩

theorem validated_concat : Validated k (log ++ [e]) ↔
      (e ≠ .reset ∧ Validated k log) ∨ ∃ t, e = .tried t ∧ Checks k .ok t := by
  constructor
  · rintro ⟨before, t, after, he, hr, ht⟩
    rcases concat_cases he with ⟨-, rfl⟩ | ⟨after, rfl, hlog⟩
    · exact .inr ⟨t, rfl, ht⟩
    · simp only [List.mem_append, List.mem_singleton, not_or] at hr
      exact .inl ⟨fun h => hr.2 h.symm, before, t, after, hlog, hr.1, ht⟩
  · rintro (⟨hne, before, t, after, rfl, hr, ht⟩ | ⟨t, rfl, ht⟩)
    · refine ⟨before, t, after ++ [e], by simp, ?_, ht⟩
      simpa [hr] using hne.symm
    · exact ⟨log, t, [], rfl, by simp, ht⟩

theorem fine_concat (h : Fine log) (he : ∀ t, e = .tried t → t.accepts = true → Allowed log t) :
    Fine (log ++ [e]) := by
  intro before t after heq ht
  rcases concat_cases heq with ⟨rfl, hlast⟩ | ⟨after, -, hlog⟩
  · exact he t hlast ht
  · exact h before t after hlog ht

/-! ### The tries of a call -/

section

variable {consent : Bool} {u : Url} {reply : ℕ → Reply} {p : Policy} {c : Cache}

/-- What has to hold for a try with this setting to be made. -/
def Permits (consent : Bool) (u : Url) (log : List Entry) : Option Bool → Prop
  | some false => True
  | none => consent = true ∧ ¬ Validated (address u) log
  | some true => consent = true ∧ ¬ Validated (address u) log ∧ Failed (address u) log

/-- What a policy may do after a try over TLS: it goes back to what was cached, or
drops the check if nothing was said about it. -/
def Policy.Careful (p : Policy) (original : Option Bool) : Prop :=
  ∀ {t d t' d'}, p.next t d = some (t', d') →
    t ≠ .plain ∧ (d' = original ∨ (d = none ∧ d' = some true))

variable {original d d' : Option Bool} {n : ℕ} {ty : TlsType} {policy : Bool → Option Bool → Policy}

theorem fallback_careful {cached : Bool} {t t' : TlsType}
    (h : fallback cached original t d = some (t', d')) :
    t ≠ .plain ∧ (d' = original ∨ (d = none ∧ d' = some true)) := by
  unfold fallback at h
  split at h
  · cases h
    exact ⟨by decide, .inr ⟨rfl, rfl⟩⟩
  · split at h
    · cases h
    · cases h
      exact ⟨by decide, .inl rfl⟩
  · cases h
    exact ⟨by decide, .inr ⟨rfl, rfl⟩⟩
  · cases h

theorem attempt_allowed (h : Permits consent u log d)
    (ha : (attempt consent u reply n ty d).accepts = true) :
    Allowed log (attempt consent u reply n ty d) := by
  obtain rfl : d = some true := by
    simp only [attempt, Bool.and_eq_true] at ha
    rcases d with _ | ⟨_ | _⟩
    · simp at ha
    · simp at ha
    · rfl
  exact ⟨h.1, h.2.2, h.2.1⟩

theorem not_validated_concat (h : ¬ Validated k log) (ho : (reply n).outcome ≠ .ok) :
    ¬ Validated k (log ++ [.tried (attempt consent u reply n ty d)]) := by
  rw [validated_concat]
  rintro (⟨-, hv⟩ | ⟨t, ht, hc⟩)
  · exact h hv
  · obtain rfl := Entry.tried.inj ht
    exact ho (Option.some.inj hc.outcome)

theorem Permits.concat (h : Permits consent u log d') (ho : (reply n).outcome ≠ .ok) :
    Permits consent u (log ++ [.tried (attempt consent u reply n ty d)]) d' := by
  rcases d' with _ | ⟨_ | _⟩
  · exact ⟨h.1, not_validated_concat h.2 ho⟩
  · trivial
  · exact ⟨h.1, not_validated_concat h.2.1 ho, h.2.2.append _⟩

/-- After a try with the check that failed the check may be dropped. -/
theorem Permits.drop (h : Permits consent u log none) (hty : ty ≠ .plain)
    (ho : (reply n).outcome ≠ .ok) :
    Permits consent u (log ++ [.tried (attempt consent u reply n ty none)]) (some true) :=
  ⟨h.1, not_validated_concat h.2 ho, failed_concat ho ⟨rfl, hty, rfl, rfl⟩⟩

structure Agrees (c : Cache) (log : List Entry) : Prop where
  failed : ∀ k, c.urlTlsDangerAcceptInvalidCerts k = some true → Failed k log
  validated : ∀ k, Validated k log → c.urlTlsDangerAcceptInvalidCerts k = some false

theorem Agrees.concat (h : Agrees c log) (hv : ¬ Checks (address t.url) .ok t) :
    Agrees c (log ++ [.tried t]) where
  failed := fun j hj => (h.failed j hj).append _
  validated := fun j hj => by
    rcases validated_concat.1 hj with ⟨-, hj⟩ | ⟨t', ht, hc⟩
    · exact h.validated j hj
    · obtain rfl := Entry.tried.inj ht
      exact absurd (hc.address ▸ hc) hv

theorem Agrees.upsert (h : Agrees c log) (hu : '@' ∉ u) (hb : (reply n).builds = true)
    (hd : Permits consent u log d) (hty : isPlain u = true → ty = .plain) :
    Agrees (c.upsert u ty (d.getD false)) (log ++ [.tried (attempt consent u reply n ty d)]) := by
  unfold Cache.upsert
  split
  · -- Nothing is written for a plain address, and nothing was checked.
    rename_i hplain
    exact h.concat fun hc => hc.tls (hty hplain)
  · rw [← address_eq_key hu]
    refine ⟨fun j hj => ?_, fun j hj => ?_⟩
    · dsimp only at hj
      by_cases hju : j = address u
      · subst hju
        rw [Function.update_self, Option.some.injEq] at hj
        rcases d with _ | ⟨_ | _⟩
        · cases hj
        · cases hj
        · exact hd.2.2.append _
      · rw [Function.update_of_ne hju] at hj
        exact (h.failed j hj).append _
    · dsimp only
      by_cases hju : j = address u
      · subst hju
        rw [Function.update_self]
        rcases validated_concat.1 hj with ⟨-, hv⟩ | ⟨t, ht, hc⟩
        · rcases d with _ | ⟨_ | _⟩
          · rfl
          · rfl
          · exact absurd hv hd.2.1
        · obtain rfl := Entry.tried.inj ht
          have hdanger := hc.accepts
          rw [attempt, hb, Bool.and_true] at hdanger
          exact congrArg some hdanger
      · rw [Function.update_of_ne hju]
        rcases validated_concat.1 hj with ⟨-, hv⟩ | ⟨t, ht, hc⟩
        · exact h.validated j hv
        · obtain rfl := Entry.tried.inj ht
          exact absurd hc.address.symm hju

/-- The cache agrees with the record, and the record is fine. -/
structure Inv (c : Cache) (log : List Entry) : Prop where
  agrees : Agrees c log
  fine : Fine log

theorem Inv.succeeded (h : Inv c log) (hu : '@' ∉ u) (hb : (reply n).builds = true)
    (hd : Permits consent u log d) (hty : isPlain u = true → ty = .plain) :
    Inv (c.upsert u ty (d.getD false)) (log ++ [.tried (attempt consent u reply n ty d)]) where
  agrees := h.agrees.upsert hu hb hd hty
  fine := fine_concat h.fine fun t ht ha => by
    obtain rfl := Entry.tried.inj ht
    exact attempt_allowed hd ha

theorem Inv.failed (h : Inv c log) (hd : Permits consent u log d) (ho : (reply n).outcome ≠ .ok) :
    Inv c (log ++ [.tried (attempt consent u reply n ty d)]) where
  agrees := h.agrees.concat fun hc => ho (Option.some.inj hc.outcome)
  fine := fine_concat h.fine fun t ht ha => by
    obtain rfl := Entry.tried.inj ht
    exact attempt_allowed hd ha

/-- By induction on the tries: those before permit the next one. -/
theorem tryFrom_inv (hu : '@' ∉ u) (hb : ∀ n, (reply n).builds = true) (hp : p.Careful original)
    (n : ℕ) (ty : TlsType) (d : Option Bool) (log : List Entry) (h : Inv c log)
    (hd : Permits consent u log d) (ho : Permits consent u log original) (hty : isPlain u = true → ty = .plain) :
    Inv (tryFrom p consent u reply n ty d c).1
      (log ++ (tryFrom p consent u reply n ty d c).2.map .tried) := by
  fun_induction tryFrom p consent u reply n ty d c generalizing log with
  | case1 n ty d hok => exact h.succeeded hu (hb n) hd hty
  | case2 n ty d hok hgo t' d' hnext ih =>
    obtain ⟨htls, hd'⟩ := hp hnext
    rw [List.map_cons, List.append_cons]
    refine ih (log ++ [.tried (attempt consent u reply n ty d)]) (h.failed hd hok) ?_
      (ho.concat hok) fun hplain => absurd (hty hplain) htls
    rcases hd' with rfl | ⟨rfl, rfl⟩
    · exact ho.concat hok
    · exact hd.drop htls hok
  | case3 n ty d hok hgo hnext => exact h.failed hd hok
  | case4 n ty d hok hgo => exact h.failed hd hok

theorem length_tryFrom (n : ℕ) (ty : TlsType) (d : Option Bool) :
    (tryFrom p consent u reply n ty d c).2.length ≤ rank ty d + 1 := by
  fun_induction tryFrom p consent u reply n ty d c with
  | case1 n ty d hok => simp
  | case2 n ty d hok hgo t' d' hnext ih =>
    have := p.next_lt hnext
    rw [List.length_cons]
    omega
  | case3 n ty d hok hgo hnext => simp
  | case4 n ty d hok hgo => simp

theorem rank_le (ty : TlsType) (d : Option Bool) : rank ty d ≤ 3 := by
  rcases ty with _ | _ | _ <;> rcases d with _ | _ <;> simp [rank]

/-! ### The calls -/

theorem Agrees.permits (h : Agrees c log) (hu : '@' ∉ u) (consent : Bool) :
    Permits consent u log (c.acceptInvalidCert consent u) := by
  rw [Cache.acceptInvalidCert, ← address_eq_key hu]
  cases consent with
  | false => trivial
  | true =>
    cases hplain : isPlain u with
    | true => trivial
    | false =>
      have hnot : c.urlTlsDangerAcceptInvalidCerts (address u) ≠ some false →
          ¬ Validated (address u) log := fun hc hv => hc (h.validated _ hv)
      rcases hc : c.urlTlsDangerAcceptInvalidCerts (address u) with _ | ⟨_ | _⟩
      · exact ⟨rfl, hnot (by simp [hc])⟩
      · trivial
      · exact ⟨rfl, hnot (by simp [hc]), h.failed _ hc⟩

theorem tlsType_plain (c : Cache) (hplain : isPlain u = true) :
    (c.tlsType u).getD .rustls = .plain := by
  rw [Cache.tlsType, if_pos hplain]
  rfl

theorem http_inv (hu : '@' ∉ u) (hb : ∀ n, (reply n).builds = true)
    (hp : ∀ b o, (policy b o).Careful o) (h : Inv c log) :
    Inv (createHttpClientWithUrl_ consent reply c policy u).1
      (log ++ (createHttpClientWithUrl_ consent reply c policy u).2.map .tried) := by
  have hd := h.agrees.permits hu consent
  unfold createHttpClientWithUrl_
  dsimp only
  split
  · refine ⟨h.agrees.concat (fun hc => nomatch hc.outcome), fine_concat h.fine fun t ht ha => ?_⟩
    obtain rfl := Entry.tried.inj ht
    have hallowed : Allowed log (attempt consent u reply 0 ((c.tlsType u).getD .rustls)
        (c.acceptInvalidCert consent u)) := attempt_allowed hd ha
    exact { hallowed with }
  · exact tryFrom_inv hu hb (hp _ _) 0 _ _ log h hd hd (tlsType_plain c)

theorem call_inv (i : Input) (hi : i ≠ .reset) (ho : i.Ordinary) (h : Inv c log) :
    Inv (call c i).1 (log ++ (call c i).2.map .tried) := by
  cases i with
  | websocket consent u =>
    have hd := h.agrees.permits ho consent
    exact tryFrom_inv ho (fun _ => rfl) fallback_careful 0 _ _ log h hd hd (tlsType_plain c)
  | proxy consent host =>
    unfold call proxyConnect
    dsimp only
    split
    · simpa using h
    · have hu : '@' ∉ url "https://" ++ appendDefaultPort host 443 := by
        have hport : '@' ∉ url (toString 443) := by decide
        rw [appendDefaultPort]
        split_ifs <;> simp_all [url, Input.Ordinary]
      have hd := h.agrees.permits hu consent
      exact tryFrom_inv hu (fun _ => rfl) (fun h => fallback_careful (proxyFallback_le h)) 0 _ _ log
        h hd hd (tlsType_plain c)
  | http consent u | httpAsync consent u =>
    have hu : '@' ∉ getUrlForTls u none := by
      rw [getUrlForTls]
      split_ifs <;> exact ho.1
    exact http_inv hu ho.2 (fun _ _ => fallback_careful) h
  | reset => exact absurd rfl hi

theorem length_tryFrom_le (ty : TlsType) (d : Option Bool) :
    (tryFrom p consent u reply 0 ty d c).2.length ≤ 4 :=
  Nat.le_trans (length_tryFrom 0 ty d) (Nat.succ_le_succ (rank_le ty d))

theorem length_http_le : (createHttpClientWithUrl_ consent reply c policy u).2.length ≤ 4 := by
  unfold createHttpClientWithUrl_
  dsimp only
  split
  · simp
  · exact length_tryFrom_le _ _

theorem length_call_le (c : Cache) (i : Input) : (call c i).2.length ≤ 4 := by
  cases i with
  | websocket => exact length_tryFrom_le _ _
  | proxy =>
    unfold call proxyConnect
    dsimp only
    split
    · simp
    · exact length_tryFrom_le _ _
  | http | httpAsync => exact length_http_le
  | reset => simp [call]

theorem Inv.reset (h : Inv c log) : Inv {} (log ++ [.reset]) where
  agrees := by
    refine ⟨nofun, fun k hk => ?_⟩
    rcases validated_concat.1 hk with ⟨hne, -⟩ | ⟨t, ht, -⟩
    · exact absurd rfl hne
    · cases ht
  fine := fine_concat h.fine nofun

theorem Inv.start : Inv {} [] where
  agrees := ⟨nofun, fun k hk => by
    obtain ⟨before, t, after, he, -⟩ := hk
    simp at he⟩
  fine := fun before t after he => by simp at he

theorem Sys.inv_step (s : Sys) (i : Input) (hi : i.Ordinary) (h : Inv s.cache s.log) :
    Inv (s.step i).cache (s.step i).log := by
  cases i with
  | reset => exact h.reset
  | websocket | proxy | http | httpAsync => exact call_inv _ (by simp) hi h

end

/-- In every run of ordinary calls and resets: a connector or client that accepts
invalid certificates was built with the consent of the user, after a try with the
check to the same address failed, and not after one that succeeded since the last
reset. Every call makes at most four tries. -/
theorem insecure_only_by_consent (is : List Input) (h : ∀ i ∈ is, i.Ordinary) :
    Fine (Run.run Sys.step {} is).log ∧
      ∀ i, (call (Run.run Sys.step {} is).cache i).2.length ≤ 4 := by
  have hinv : Inv (Run.run Sys.step {} is).cache (Run.run Sys.step {} is).log :=
    Run.inv_run_of_mem (I := fun s : Sys => Inv s.cache s.log) (fun s i hi => s.inv_step i (h i hi))
      Inv.start
  exact ⟨hinv.fine, length_call_le _⟩

def hostAndPort (u : Url) : Url := appendDefaultPort (getDomainAndPortFromUrl u) 443

/-- A server that is also the HTTPS proxy: a client has checked its certificate,
and then a failure is enough for the proxy to accept any. -/
def spelledTwice : List Input :=
  [.http true (url "https://a.com/api") fun _ => ⟨.ok, true⟩,
   .proxy true (url "a.com") fun n => ⟨if n = 0 then .err else .ok, true⟩]

theorem insecure_only_by_consent_spelled : (∀ i ∈ spelledTwice, i.Ordinary) ∧
    Fine (Run.run Sys.step {} spelledTwice).log := by
  have h : ∀ i ∈ spelledTwice, i.Ordinary := by simp [spelledTwice, Input.Ordinary, url]
  exact ⟨h, (insecure_only_by_consent spelledTwice h).1⟩

theorem spelled_twice : let u := url "https://a.com/api"
    let v := url "https://a.com:443"
    (Run.run Sys.step {} spelledTwice).log = [.tried ⟨u, true, .rustls, false, some .ok⟩,
         .tried ⟨v, true, .rustls, false, some .err⟩,
         .tried ⟨v, true, .rustls, true, some .ok⟩] ∧
      hostAndPort u = hostAndPort v := by
  decide +kernel

end CodeDesk.Tls
