/-
# TLS connections and their fallbacks

The cache of `libs/hbb_common/src/tls.rs` and the connectors that use it: the
WebSocket connector (`websocket.rs`), the HTTPS proxy (`proxy.rs`) and the HTTP
client, blocking and not (`src/hbbs_http/http_client.rs`). Each tries to connect
with rustls and then with native TLS, and where nothing is cached for the address
and the user allows it, each of the two also without checking the certificate.

`Policy` is what they share: what is tried after what. A try is recorded with the
setting it was made under (`Try`); `Sys` is the cache with this record.
-/
import CodeDesk.Run
import Mathlib.Data.List.Infix
import Mathlib.Data.List.TakeWhile
import Mathlib.Logic.Function.Basic

namespace CodeDesk.Tls

inductive TlsType where
  | plain
  | nativeTls
  | rustls
  deriving DecidableEq, Repr

/-! ### Addresses -/

/-- A URL, or a part of one, by its characters. -/
abbrev Url := List Char

def url (s : String) : Url := s.toList

def isPlain (u : Url) : Bool := url "ws://" <+: u || url "http://" <+: u

/-- What follows the first `://`, or the whole. -/
def afterScheme (u : Url) : Url :=
  match u.tails.find? fun t => url "://" <+: t with
  | some t => t.drop 3
  | none => u

/-- What follows the last `@`, or the whole. -/
def afterAt (u : Url) : Url := (u.reverse.takeWhile (· ≠ '@')).reverse

def getDomainAndPortFromUrl (u : Url) : Url :=
  (afterAt (afterScheme u)).takeWhile fun c => c ≠ '/' ∧ c ≠ '?'

def appendDefaultPort (host : Url) (defaultPort : ℕ) : Url :=
  if ':' ∈ host then host else host ++ url ":" ++ url (toString defaultPort)

/-! ### The cache -/

structure Cache where
  urlTlsType : Url → Option TlsType := fun _ => none
  urlTlsDangerAcceptInvalidCerts : Url → Option Bool := fun _ => none

namespace Cache

def upsert (u : Url) (tlsType : TlsType) (danger : Bool) (c : Cache) : Cache :=
  if isPlain u then c
  else
    { urlTlsType := Function.update c.urlTlsType (getDomainAndPortFromUrl u) (some tlsType)
      urlTlsDangerAcceptInvalidCerts :=
        Function.update c.urlTlsDangerAcceptInvalidCerts (getDomainAndPortFromUrl u) (some danger) }

def tlsType (u : Url) (c : Cache) : Option TlsType :=
  if isPlain u then some .plain else c.urlTlsType (getDomainAndPortFromUrl u)

/-- `get_cached_tls_accept_invalid_cert`; `consent` is `allow_insecure_tls_fallback`. -/
def acceptInvalidCert (consent : Bool) (u : Url) (c : Cache) : Option Bool :=
  if !consent then some false
  else if isPlain u then some false
  else c.urlTlsDangerAcceptInvalidCerts (getDomainAndPortFromUrl u)

end Cache

/-! ### Tries -/

/-- How a try ends. After a timeout, or an error that is not about the
connection, nothing else is tried. -/
inductive Outcome where
  | ok
  | err
  | abort
  deriving DecidableEq, Repr

structure Reply where
  outcome : Outcome
  /-- The HTTP client could be built with its settings; if not, a default one,
  which checks certificates, is used. -/
  builds : Bool := true
  deriving DecidableEq, Repr

/-- A connector or client that was built, and what became of it. -/
structure Try where
  url : Url
  /-- `allow_insecure_tls_fallback` when the call began. -/
  consent : Bool
  tlsType : TlsType
  /-- It accepts invalid certificates. -/
  accepts : Bool
  /-- None if the client was handed out without a try. -/
  outcome : Option Outcome
  deriving DecidableEq, Repr

def rank : TlsType → Option Bool → ℕ
  | .rustls, none => 3
  | .rustls, some _ => 2
  | .nativeTls, none => 1
  | _, _ => 0

/-- What is tried after a try that failed. -/
structure Policy where
  next : TlsType → Option Bool → Option (TlsType × Option Bool)
  /-- The failures after which something else is tried. -/
  goesOn : Outcome → Bool
  next_lt : ∀ {t d t' d'}, next t d = some (t', d') → rank t' d' < rank t d

section

variable (p : Policy) (consent : Bool) (u : Url) (reply : ℕ → Reply)

def attempt (n : ℕ) (t : TlsType) (d : Option Bool) : Try where
  url := u
  consent := consent
  tlsType := t
  accepts := d.getD false && (reply n).builds
  outcome := some (reply n).outcome

/-- The tries from the `n`th on, each one recorded, and the cache after them. -/
def tryFrom (n : ℕ) (t : TlsType) (d : Option Bool) (c : Cache) : Cache × List Try :=
  if (reply n).outcome = .ok then (c.upsert u t (d.getD false), [attempt consent u reply n t d])
  else if p.goesOn (reply n).outcome then
    match h : p.next t d with
    | some (t', d') =>
      ((tryFrom (n + 1) t' d' c).1, attempt consent u reply n t d :: (tryFrom (n + 1) t' d' c).2)
    | none => (c, [attempt consent u reply n t d])
  else (c, [attempt consent u reply n t d])
  termination_by rank t d
  decreasing_by
    all_goals exact p.next_lt h

end

/-! ### The connectors -/

/-- The fallbacks of the WebSocket connector and of the HTTP clients. -/
def fallback (isTlsTypeCached : Bool) (original : Option Bool) :
    TlsType → Option Bool → Option (TlsType × Option Bool)
  | .rustls, none => some (.rustls, some true)
  | .rustls, some _ => if isTlsTypeCached then none else some (.nativeTls, original)
  | .nativeTls, none => some (.nativeTls, some true)
  | _, _ => none

/-- The fallbacks of the HTTPS proxy: native TLS is the last one. -/
def proxyFallback (isTlsTypeCached : Bool) (original : Option Bool) :
    TlsType → Option Bool → Option (TlsType × Option Bool)
  | .rustls, none => some (.rustls, some true)
  | .rustls, some _ => if isTlsTypeCached then none else some (.nativeTls, original)
  | _, _ => none

theorem fallback_lt {cached : Bool} {original d d' : Option Bool} {t t' : TlsType}
    (h : fallback cached original t d = some (t', d')) : rank t' d' < rank t d := by
  unfold fallback at h
  split at h
  · cases h
    decide
  · split at h
    · cases h
    · cases h
      cases original <;> simp [rank]
  · cases h
    decide
  · cases h

theorem proxyFallback_le {cached : Bool} {original d : Option Bool} {t : TlsType}
    {x : TlsType × Option Bool} (h : proxyFallback cached original t d = some x) :
    fallback cached original t d = some x := by
  unfold proxyFallback at h
  split at h
  · exact h
  · exact h
  · cases h

variable (goesOn : Outcome → Bool) (isTlsTypeCached : Bool) (original : Option Bool)

def fallbackPolicy : Policy where
  next := fallback isTlsTypeCached original
  goesOn := goesOn
  next_lt := fallback_lt

/-- A timeout ends the call. -/
def websocketPolicy := fallbackPolicy (· = .err)

/-- An error that is not one of the request ends the call. -/
def syncPolicy := fallbackPolicy (· = .err)

/-- After any error something else is tried. -/
def asyncPolicy := fallbackPolicy fun _ => true

def proxyPolicy : Policy where
  next := proxyFallback isTlsTypeCached original
  goesOn := (· = .err)
  next_lt := fun h => fallback_lt (proxyFallback_le h)

section

variable (consent : Bool) (u : Url) (reply : ℕ → Reply) (c : Cache)

/-- `connect` and `try_connect` of `WsFramedStream`. -/
def websocketConnect : Cache × List Try :=
  let danger := c.acceptInvalidCert consent u
  tryFrom (websocketPolicy (c.tlsType u).isSome danger) consent u
    (fun n => { reply n with builds := true }) 0 ((c.tlsType u).getD .rustls) danger c

/-- `connect` to an HTTPS proxy, with `https_connect_rustls_wrap_danger` and
`https_connect_nativetls_wrap_danger`. -/
def proxyConnect (host : Url) : Cache × List Try :=
  let u := url "https://" ++ appendDefaultPort host 443
  let danger := c.acceptInvalidCert consent u
  match (c.tlsType u).getD .rustls with
  | .plain => (c, [])
  | t =>
    tryFrom (proxyPolicy (c.tlsType u).isSome danger) consent u
      (fun n => { reply n with builds := true }) 0 t danger c

def getUrlForTls (u : Url) (proxyConf : Option Url) : Url :=
  if isPlain u then
    match proxyConf with
    | some proxy => if url "https://" <+: proxy then proxy else u
    | none => u
  else u

/-- `create_http_client_with_url_` and its sibling: what is cached does not change
from one try to the next, so that the client is handed out at once or after the
tries. -/
def createHttpClientWithUrl_ (policy : Bool → Option Bool → Policy) (tlsUrl : Url) :
    Cache × List Try :=
  let danger := c.acceptInvalidCert consent tlsUrl
  let cached := (c.tlsType tlsUrl).isSome
  let t := (c.tlsType tlsUrl).getD .rustls
  if cached && danger.isSome then
    (c, [{ attempt consent tlsUrl reply 0 t danger with outcome := none }])
  else tryFrom (policy cached danger) consent tlsUrl reply 0 t danger c

def createHttpClientWithUrl (proxyConf : Option Url) : Cache × List Try :=
  createHttpClientWithUrl_ consent reply c syncPolicy (getUrlForTls u proxyConf)

def createHttpClientAsyncWithUrl (proxyConf : Option Url) : Cache × List Try :=
  createHttpClientWithUrl_ consent reply c asyncPolicy (getUrlForTls u proxyConf)

end

/-! ### Runs -/

inductive Input where
  | websocket (consent : Bool) (u : Url) (reply : ℕ → Reply)
  | proxy (consent : Bool) (host : Url) (reply : ℕ → Reply)
  | http (consent : Bool) (u : Url) (reply : ℕ → Reply)
  | httpAsync (consent : Bool) (u : Url) (reply : ℕ → Reply)
  /-- `reset_tls_cache`. -/
  | reset

inductive Entry where
  | tried (t : Try)
  | reset
  deriving DecidableEq, Repr

structure Sys where
  cache : Cache := {}
  log : List Entry := []

/-- The cache after a call and the tries of the call. The HTTP client has no
proxy. -/
def call (c : Cache) : Input → Cache × List Try
  | .websocket consent u reply => websocketConnect consent u reply c
  | .proxy consent host reply => proxyConnect consent reply c host
  | .http consent u reply => createHttpClientWithUrl consent u reply c none
  | .httpAsync consent u reply => createHttpClientAsyncWithUrl consent u reply c none
  | .reset => ({}, [])

def Sys.step (s : Sys) (i : Input) : Sys where
  cache := (call s.cache i).1
  log := s.log ++ match i with
    | .reset => [.reset]
    | _ => (call s.cache i).2.map .tried

/-! ### The key of an address -/

/-- `[scheme://][userinfo@]host[:port][/path][?query]`. -/
structure Parts where
  scheme : Option Url := none
  userinfo : Option Url := none
  /-- `host[:port]`. -/
  authority : Url
  /-- The path and the query. -/
  rest : Url := []
  scheme_ok : ∀ s ∈ scheme, ':' ∉ s := by decide
  userinfo_ok : ∀ i ∈ userinfo, ∀ c ∈ i, c ≠ '/' ∧ c ≠ '?' := by simp [url]
  authority_ok : ∀ c ∈ authority, c ≠ '@' ∧ c ≠ '/' ∧ c ≠ '?' := by simp [url]
  authority_end : authority.getLast? ≠ some ':' := by decide
  rest_ok : ∀ c ∈ rest.head?, c = '/' ∨ c = '?' := by simp [url]

namespace Parts

/-- What stands before the path. -/
def front (p : Parts) : Url := p.userinfo.elim [] (· ++ ['@']) ++ p.authority

def text (p : Parts) : Url := p.scheme.elim [] (· ++ url "://") ++ (p.front ++ p.rest)

/-- No `@` in the path or the query and, without a scheme, no `://`. -/
def Clear (p : Parts) : Prop := '@' ∉ p.rest ∧ (p.scheme = none → ¬url "://" <:+: p.rest)

instance (p : Parts) : Decidable p.Clear := inferInstanceAs (Decidable (_ ∧ (_ → ¬_)))

/-- What the path and the query hold behind the last `@` and, without a scheme,
behind `://`, up to the next `/` or `?`. -/
def misread (p : Parts) : Url :=
  (afterAt (if p.scheme = none then afterScheme p.rest else p.rest)).takeWhile
    fun c => c ≠ '/' ∧ c ≠ '?'

end Parts

theorem afterScheme_append {s : Url} (hs : ':' ∉ s) (r : Url) :
    afterScheme (s ++ url "://" ++ r) = r := by
  have hfind : (s ++ url "://" ++ r).tails.find? (fun t => url "://" <+: t) =
      some (url "://" ++ r) := by
    induction s with
    | nil => rfl
    | cons c s ih =>
      have hc : ¬url "://" <+: c :: (s ++ url "://" ++ r) := by
        intro h
        exact hs (List.mem_cons.2 (.inl (List.cons_prefix_cons.1 h).1))
      rw [List.cons_append, List.cons_append, List.tails_cons,
        List.find?_cons_of_neg (by simpa using hc)]
      exact ih fun h => hs (List.mem_cons_of_mem c h)
  rw [afterScheme, hfind]
  rfl

theorem find_scheme_eq_none {u : Url} :
    u.tails.find? (fun t => url "://" <+: t) = none ↔ ¬url "://" <:+: u := by
  simp only [List.find?_eq_none, List.mem_tails, decide_eq_true_eq, List.infix_iff_prefix_suffix,
    not_exists, not_and']

/-- No `://` begins in what holds no `/` and does not end with a colon. -/
theorem find_scheme_append {x : Url} (hx : '/' ∉ x) (hend : x.getLast? ≠ some ':') (r : Url) :
    (x ++ r).tails.find? (fun t => url "://" <+: t) = r.tails.find? fun t => url "://" <+: t := by
  induction x with
  | nil => rfl
  | cons c x ih =>
    have hc : ¬url "://" <+: c :: (x ++ r) := by
      intro h
      obtain ⟨hc, h⟩ := List.cons_prefix_cons.1 h
      rcases x with _ | ⟨d, x⟩
      · exact hend (congrArg some hc.symm)
      · obtain rfl : '/' = d := (List.cons_prefix_cons.1 h).1
        exact hx (by simp)
    rw [List.cons_append, List.tails_cons, List.find?_cons_of_neg (by simpa using hc)]
    refine ih (fun h => hx (List.mem_cons_of_mem c h)) fun h => hend ?_
    rcases x with _ | ⟨d, x⟩
    · cases h
    · rw [List.getLast?_cons_cons, h]

theorem ne_at_of_mem {y : Url} (hy : '@' ∉ y) : ∀ c ∈ y.reverse, decide (c ≠ '@') = true := by
  intro c hc
  exact decide_eq_true fun h => hy (h ▸ List.mem_reverse.1 hc)

theorem afterAt_append (x : Url) {y : Url} (hy : '@' ∉ y) : afterAt (x ++ '@' :: y) = y := by
  rw [afterAt, List.reverse_append, List.reverse_cons, List.append_assoc,
    List.takeWhile_append_of_pos (ne_at_of_mem hy)]
  simp

theorem afterAt_eq_self {y : Url} (hy : '@' ∉ y) : afterAt y = y := by
  rw [afterAt, List.takeWhile_eq_self_iff.2 (ne_at_of_mem hy), List.reverse_reverse]

theorem afterAt_append_of_mem (x : Url) {y : Url} (hy : '@' ∈ y) : afterAt (x ++ y) = afterAt y := by
  have hlt : (y.reverse.takeWhile (· ≠ '@')).length ≠ y.reverse.length := by
    intro h
    have hall := List.takeWhile_eq_self_iff.1 ((List.takeWhile_prefix _).eq_of_length h)
    simpa using hall '@' (List.mem_reverse.2 hy)
  rw [afterAt, List.reverse_append, List.takeWhile_append, if_neg hlt, afterAt]

namespace Parts

variable (p : Parts)

theorem front_ok : '/' ∉ p.front ∧ (p.front).getLast? ≠ some ':' := by
  constructor
  · intro h
    rcases List.mem_append.1 h with h | h
    · cases hu : p.userinfo with
      | none => simp [hu] at h
      | some i =>
        have := p.userinfo_ok i hu '/'
        simp_all
    · exact (p.authority_ok _ h).2.1 rfl
  · have hend := p.authority_end
    rw [front, List.getLast?_append]
    cases ha : p.authority.getLast? with
    | some c => simpa [ha] using hend
    | none => cases p.userinfo <;> simp

/-- Without a scheme the first `://` of the path is taken for the end of one. -/
theorem afterScheme_text : afterScheme p.text =
    if p.scheme = none ∧ url "://" <:+: p.rest then afterScheme p.rest else p.front ++ p.rest := by
  have hok := p.scheme_ok
  rw [text]
  cases hs : p.scheme with
  | some s => simpa using afterScheme_append (hok s hs) _
  | none =>
    have hfind := find_scheme_append p.front_ok.1 p.front_ok.2 p.rest
    simp only [Option.elim_none, List.nil_append, true_and, afterScheme, hfind]
    split_ifs with hin
    · obtain ⟨t, ht⟩ := Option.ne_none_iff_exists'.1 fun h => find_scheme_eq_none.1 h hin
      rw [ht]
    · rw [find_scheme_eq_none.2 hin]

theorem takeWhile_authority : (p.authority ++ p.rest).takeWhile (fun c => c ≠ '/' ∧ c ≠ '?') =
    p.authority := by
  have hend : p.rest.takeWhile (fun c => c ≠ '/' ∧ c ≠ '?') = [] := by
    have hok := p.rest_ok
    cases hr : p.rest with
    | nil => rfl
    | cons c r =>
      rw [hr] at hok
      refine List.takeWhile_cons_of_neg ?_
      simpa using fun h => (hok c rfl).resolve_left h
  rw [List.takeWhile_append_of_pos, hend, List.append_nil]
  intro c hc
  exact decide_eq_true (p.authority_ok c hc).2

theorem key_eq : getDomainAndPortFromUrl p.text = if p.Clear then p.authority else p.misread := by
  rw [getDomainAndPortFromUrl, afterScheme_text, misread]
  by_cases hscheme : p.scheme = none ∧ url "://" <:+: p.rest
  · rw [if_pos hscheme, if_pos hscheme.1, if_neg fun h => h.2 hscheme.1 hscheme.2]
  · have hrest : (if p.scheme = none then afterScheme p.rest else p.rest) = p.rest := by
      split_ifs with hs
      · rw [afterScheme, find_scheme_eq_none.2 fun h => hscheme ⟨hs, h⟩]
      · rfl
    rw [if_neg hscheme, hrest]
    by_cases hat : '@' ∈ p.rest
    · rw [if_neg fun h => h.1 hat, afterAt_append_of_mem _ hat]
    · have hno : '@' ∉ p.authority ++ p.rest := by
        rw [List.mem_append]
        exact fun h => h.elim (fun h => (p.authority_ok _ h).1 rfl) hat
      rw [if_pos ⟨hat, fun hs h => hscheme ⟨hs, h⟩⟩, front, List.append_assoc]
      cases p.userinfo with
      | none => rw [Option.elim_none, List.nil_append, afterAt_eq_self hno, takeWhile_authority]
      | some i =>
        rw [Option.elim_some, List.append_assoc, List.singleton_append, afterAt_append i hno,
          takeWhile_authority]

/-- **The key is the authority** exactly if nothing in the path and the query is
taken for an end of the scheme or of the user's name, or what follows is the same
authority again. What is cached for another authority is then not used. -/
theorem key_authority (p q : Parts) :
    (getDomainAndPortFromUrl p.text = p.authority ↔ p.Clear ∨ p.misread = p.authority) ∧
    (getDomainAndPortFromUrl p.text = p.authority → getDomainAndPortFromUrl q.text = q.authority →
      p.authority ≠ q.authority → ∀ (c : Cache) (t : TlsType) (danger consent : Bool),
      (c.upsert p.text t danger).tlsType q.text = c.tlsType q.text ∧
      (c.upsert p.text t danger).acceptInvalidCert consent q.text =
        c.acceptInvalidCert consent q.text) := by
  constructor
  · rw [p.key_eq]
    split_ifs with h <;> simp [h]
  · intro hp hq hne c t danger consent
    rw [Cache.upsert]
    split
    · exact ⟨rfl, rfl⟩
    · simp only [Cache.tlsType, Cache.acceptInvalidCert, hp, hq, Function.update_of_ne hne.symm,
        and_self]

theorem key_authority_port : getDomainAndPortFromUrl (url "wss://me@a.b:80/c?d") = url "a.b:80" :=
  (key_authority { scheme := url "wss", userinfo := url "me", authority := url "a.b:80",
                   rest := url "/c?d" }
    { scheme := url "wss", authority := url "a.b" }).1.2 (by decide)

/-- An `@` in the path is taken for the end of the user's name, and what was found
out about one host is used for the other. -/
theorem path_taken_for_host :
    let p : Parts := { scheme := url "https", authority := url "a.b", rest := url "/@c.d" }
    getDomainAndPortFromUrl p.text = url "c.d" ∧
      (({} : Cache).upsert p.text .nativeTls true).acceptInvalidCert true (url "https://c.d") =
        some true := by
  decide

end Parts

end CodeDesk.Tls
