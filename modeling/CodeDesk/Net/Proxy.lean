/-
# The proxy a user configures

`ProxyScheme` and `Proxy` of `libs/hbb_common/src/proxy.rs`, and the HTTP
clients that `src/hbbs_http/http_client.rs` builds with it. What the URL
parser, the resolver and reqwest do is the parameter `Libs`.

A host, with or without a port, is the same one for `socket_addrs`, `get_domain`
and `get_host_and_port`, and a target can be read from the request to the proxy,
exactly if it is no IPv6 address (`same_host`). An IPv6 address is cut at its
first colon, and is written without brackets (`ipv6_cut`).

When the configuration cannot be used, each of the three errors on the way to
a client gives `Client::new()`, which knows nothing of it; the requests go
through the proxy exactly if none occurs (`proxied_iff`, `bad_scheme_direct`).
-/
import CodeDesk.Decimal
import CodeDesk.Tls.Connect

namespace CodeDesk.Net.Proxy

abbrev Text := List Char

structure Auth where
  userName : String
  password : String
  deriving DecidableEq

inductive ProxyScheme where
  | http (auth : Option Auth) (host : Text)
  | https (auth : Option Auth) (host : Text)
  | socks5 (addr : Text) (auth : Option Auth)

inductive ProxyError where
  | urlBadScheme
  | urlParseScheme
  | io
  deriving DecidableEq

/-- `hostPort`: from before the host to after the port. -/
structure Url where
  scheme : String
  hasHost : Bool := true
  hostPort : Text
  username : String := ""
  password : Option String := none

/-! ### Addresses -/

namespace ProxyScheme

def maybeAuth : ProxyScheme → Option Auth
  | http auth _ | https auth _ | socks5 _ auth => auth

def setBasicAuth (auth : Auth) : ProxyScheme → ProxyScheme
  | http _ host => http auth host
  | https _ host => https auth host
  | socks5 addr _ => socks5 addr auth

end ProxyScheme

/-- `split_once(':')`. -/
def splitOnce (t : Text) : Option (Text × Text) :=
  if ':' ∈ t then some (t.takeWhile (· ≠ ':'), (t.dropWhile (· ≠ ':')).tail) else none

/-- The host and the port that `resolve_host` has resolved. -/
def resolveHost (host : Text) (defaultPort : ℕ) : Text × ℕ :=
  match splitOnce host with
  | some (h, p) => (h, (Decimal.parse (2 ^ 16) p).getD defaultPort)
  | none => (host, defaultPort)

def getDomain (host : Text) : Text := (host.splitOn ':').headD []

def authority (host : Text) (port : ℕ) : Text := host ++ ':' :: Decimal.text port

/-- `authorization` is the header with the user's name and password, or nothing. -/
def makeRequest (host : Text) (port : ℕ) (authorization : Text) : Text :=
  Tls.url "CONNECT " ++ (authority host port ++ ' ' :: Tls.url "HTTP/1.1\r") ++ '\n' ::
    (Tls.url "Host: " ++ (authority host port ++ '\r' :: '\n' :: (authorization ++ ['\r', '\n'])))

/-- What the request line names. -/
def connectTarget (request : Text) : Text := (request.drop 8).takeWhile (· ≠ ' ')

/-- What the first header of the request names. -/
def hostHeader (request : Text) : Text :=
  ((request.dropWhile (· ≠ '\n')).drop 7).takeWhile (· ≠ '\r')

/-- The host and the port of an authority, where only brackets may hold colons. -/
def parseAuthority (t : Text) : Option (Text × ℕ) :=
  match t with
  | '[' :: t =>
    match t.dropWhile (· ≠ ']') with
    | ']' :: ':' :: p => (Decimal.parse (2 ^ 16) p).map (t.takeWhile (· ≠ ']'), ·)
    | _ => none
  | t => (splitOnce t).bind fun (h, p) => (Decimal.parse (2 ^ 16) p).map (h, ·)

/-- No control character and no forbidden one of a domain. -/
def nameChar (c : Char) : Bool :=
  ' ' < c && c ∉ ['#', '%', '/', ':', '<', '>', '?', '@', '[', '\\', ']', '^', '|', '\x7f']

/-- A domain, an IPv4 or an IPv6 address. Those with a colon are the last. -/
structure Host where
  text : Text
  chars : ∀ c ∈ text, nameChar c = true ∨ c = ':' := by simp [nameChar]

/-- A host as it stands in the URL. -/
def hostText (host : Host) (port : Option ℕ) : Text :=
  let t := if ':' ∈ host.text then '[' :: (host.text ++ [']']) else host.text
  port.elim t (authority t)

section

variable {a : Text} {c : Char} (h : c ∉ a) (b : Text)

include h

theorem takeWhile_ne : (a ++ c :: b).takeWhile (· ≠ c) = a := by
  rw [List.takeWhile_append_of_pos fun x hx => decide_eq_true (ne_of_mem_of_not_mem hx h)]
  simp

theorem dropWhile_ne : (a ++ c :: b).dropWhile (· ≠ c) = c :: b := by
  rw [List.dropWhile_append_of_pos fun x hx => decide_eq_true (ne_of_mem_of_not_mem hx h)]
  simp

end

section

variable (h : Host)

theorem Host.not_mem {c : Char} (hc : nameChar c = false := by decide)
    (hcolon : c ≠ ':' := by decide) : c ∉ h.text :=
  fun hm => by simpa [hc, hcolon] using h.chars c hm

theorem not_mem_authority {c : Char} (port : ℕ) (hc : nameChar c = false := by decide)
    (hcolon : c ≠ ':' := by decide) (hdigit : c.isDigit = false := by decide) :
    c ∉ authority h.text port := by
  simp [authority, h.not_mem hc hcolon, hcolon, Decimal.not_mem_text hdigit]

theorem names_authority (port : ℕ) (authorization : Text) :
    connectTarget (makeRequest h.text port authorization) = authority h.text port ∧
      hostHeader (makeRequest h.text port authorization) = authority h.text port := by
  have hspace : ' ' ∉ authority h.text port := not_mem_authority h port
  have hcr : '\r' ∉ authority h.text port := not_mem_authority h port
  have hlf : '\n' ∉ Tls.url "CONNECT " ++ (authority h.text port ++ ' ' :: Tls.url "HTTP/1.1\r") := by
    have hlf : '\n' ∉ authority h.text port := not_mem_authority h port
    simp [Tls.url, hlf]
  unfold connectTarget hostHeader makeRequest
  constructor
  · rw [List.append_assoc, List.drop_left' (by decide), List.append_assoc, List.cons_append,
      takeWhile_ne hspace]
  · rw [dropWhile_ne hlf, List.drop_succ_cons, List.drop_left' (by decide), takeWhile_ne hcr]

theorem splitOnce_authority {t : Text} (hcolon : ':' ∉ t) (port : ℕ) :
    splitOnce (authority t port) = some (t, Decimal.text port) := by
  rw [splitOnce, authority, if_pos (by simp), takeWhile_ne hcolon, dropWhile_ne hcolon, List.tail_cons]

/-- What is read from an authority without brackets ends at the first colon. -/
theorem parseAuthority_authority {port : ℕ} (hp : port < 2 ^ 16) :
    parseAuthority (authority h.text port) = some (h.text, port) ↔ ':' ∉ h.text := by
  have hbracket : '[' ∉ authority h.text port := not_mem_authority h port
  unfold parseAuthority
  split
  · simp_all
  · constructor
    · rw [splitOnce, if_pos (by simp [authority])]
      intro heq hcolon
      obtain ⟨p, -, heq⟩ := Option.map_eq_some_iff.1 heq
      have hno : ':' ∉ h.text := by
        rw [← (Prod.mk.inj heq).1]
        exact fun hm => by simpa using List.mem_takeWhile_imp hm
      exact hno hcolon
    · intro hcolon
      simp only [splitOnce_authority hcolon, Option.bind_some, Decimal.parse_text, if_pos hp,
        Option.map_some]

end

/-- The host and port of the proxy. -/
theorem same_proxy {h : Host} (hcolon : ':' ∉ h.text) {port : Option ℕ}
    (hport : ∀ p ∈ port, p < 2 ^ 16) {d : ℕ} (hd : d = 80 ∨ d = 443) :
    resolveHost (hostText h port) d = (h.text, port.getD d) ∧ getDomain (hostText h port) = h.text ∧
      parseAuthority (Tls.appendDefaultPort (hostText h port) d) = some (h.text, port.getD d) := by
  rw [hostText, if_neg hcolon]
  cases port with
  | none =>
    have hdefault : Tls.appendDefaultPort h.text d = authority h.text d := by
      rw [Tls.appendDefaultPort, if_neg hcolon, List.append_assoc, authority]
      rcases hd with rfl | rfl <;> congr 1
    rw [Option.elim_none, hdefault, (parseAuthority_authority h (by omega)).2 hcolon, resolveHost,
      splitOnce, if_neg hcolon, getDomain, List.splitOn_eq_singleton hcolon]
    exact ⟨rfl, rfl, rfl⟩
  | some p =>
    have hp : p < 2 ^ 16 := hport p rfl
    have hkeep : Tls.appendDefaultPort (authority h.text p) d = authority h.text p :=
      if_pos (by simp [authority])
    rw [Option.elim_some, hkeep, (parseAuthority_authority h hp).2 hcolon, resolveHost,
      splitOnce_authority hcolon, getDomain, authority, List.splitOn_append_cons_self_of_not_mem hcolon]
    simp only [Decimal.parse_text, if_pos hp, Option.getD_some, List.headD_cons, and_self]

/-- What is resolved of a host in brackets starts with the bracket. -/
theorem resolveHost_bracket (h : Host) (port : Option ℕ) (d : ℕ) (hcolon : ':' ∈ h.text) :
    (resolveHost (hostText h port) d).1 ≠ h.text := by
  obtain ⟨rest, hrest⟩ : ∃ rest, hostText h port = '[' :: rest ∧ ':' ∈ rest := by
    cases port <;> simp [hostText, hcolon, authority]
  rw [resolveHost, splitOnce, hrest.1, if_pos (List.mem_cons_of_mem _ hrest.2)]
  intro heq
  have hbracket : '[' ∈ h.text := by
    rw [← heq]
    simp
  exact absurd hbracket h.not_mem

/-- **The proxy is one host and port** for all three, and the request names the
target, exactly for domains and IPv4 addresses. -/
theorem same_host (host target : Host) (port : Option ℕ) (hport : ∀ p ∈ port, p < 2 ^ 16)
    {d targetPort : ℕ} (hd : d = 80 ∨ d = 443) (htargetPort : targetPort < 2 ^ 16)
    (authorization : Text) :
    (resolveHost (hostText host port) d = (host.text, port.getD d) ∧
        getDomain (hostText host port) = host.text ∧
        parseAuthority (Tls.appendDefaultPort (hostText host port) d) =
          some (host.text, port.getD d) ↔ ':' ∉ host.text) ∧
      (parseAuthority (connectTarget (makeRequest target.text targetPort authorization)) =
          some (target.text, targetPort) ∧
        parseAuthority (hostHeader (makeRequest target.text targetPort authorization)) =
          some (target.text, targetPort) ↔ ':' ∉ target.text) := by
  obtain ⟨hconnect, hhost⟩ := names_authority target targetPort authorization
  rw [hconnect, hhost, and_self]
  refine ⟨⟨fun h hcolon => ?_, fun hcolon => same_proxy hcolon hport hd⟩,
    parseAuthority_authority target htargetPort⟩
  exact resolveHost_bracket host port d hcolon (congrArg Prod.fst h.1)

theorem same_host_domain : getDomain (hostText { text := ['a'] } (some 8080)) = ['a'] :=
  ((same_host { text := ['a'] } { text := ['b'] } (some 8080) (by decide) (.inl rfl)
    (by decide : 443 < 2 ^ 16) []).1.2 (by decide)).2.1

theorem ipv6_cut : hostText { text := "::1".toList } (some 8080) = "[::1]:8080".toList ∧
    resolveHost "[::1]:8080".toList 80 = (['['], 80) ∧
    getDomain "[::1]:8080".toList = ['['] ∧
    parseAuthority (connectTarget (makeRequest "::1".toList 443 [])) = none := by decide

/-! ### HTTP clients -/

structure Socks5Server where
  proxy : String
  username : String
  password : String

/-- A proxy of reqwest. -/
structure ReqwestProxy where
  url : String
  basicAuth : Option Auth
  deriving DecidableEq

inductive Client where
  /-- `Client::new()`: with the proxies of the system, if it has any. -/
  | new
  | built (proxy : Option ReqwestProxy)
  deriving DecidableEq

/-- `socketAddrs` is the first address of a URL; `all` is whether reqwest takes a proxy, and
`build` whether a client can be built. -/
structure Libs where
  parse : String → Option Url
  socketAddrs : Url → Option Text
  all : String → Bool
  build : Tls.TlsType → Bool → Option ReqwestProxy → Bool

variable (libs : Libs)

def intoUrl (s : String) : Except ProxyError Url :=
  match libs.parse s with
  | none => .error .urlParseScheme
  | some url => if url.hasHost then .ok url else .error .urlBadScheme

def ProxyScheme.parse (url : Url) : Except ProxyError ProxyScheme :=
  let scheme : Except ProxyError ProxyScheme :=
    if url.scheme = "http" then .ok (.http none url.hostPort)
    else if url.scheme = "https" then .ok (.https none url.hostPort)
    else if url.scheme = "socks5" then
      (libs.socketAddrs url).elim (.error .io) fun addr => .ok (.socks5 addr none)
    else .error .urlBadScheme
  scheme.map fun scheme => url.password.elim scheme fun p => scheme.setBasicAuth ⟨url.username, p⟩

def intoProxyScheme (s : String) : Except ProxyError ProxyScheme :=
  match intoUrl libs s with
  | .error .urlParseScheme => intoUrl libs ("socks5://" ++ s) >>= ProxyScheme.parse libs
  | url => url >>= ProxyScheme.parse libs

def fromConf (conf : Socks5Server) : Except ProxyError ProxyScheme :=
  (intoProxyScheme libs conf.proxy).map fun proxy =>
    if conf.password ≠ "" ∧ conf.username ≠ "" then
      proxy.setBasicAuth ⟨conf.username, conf.password⟩
    else proxy

def reqwestProxy (proxy : ProxyScheme) : ReqwestProxy where
  url := match proxy with
    | .http _ host => "http://" ++ String.ofList host
    | .https _ host => "https://" ++ String.ofList host
    | .socks5 addr _ => "socks5://" ++ String.ofList addr
  basicAuth := proxy.maybeAuth.filter fun auth => auth.userName ≠ "" ∧ auth.password ≠ ""

/-- `create_http_client` and `create_http_client_async`. -/
def configureHttpClient (socks : Option Socks5Server) (tlsType : Tls.TlsType) (danger : Bool) :
    Client :=
  match socks with
  | some conf =>
    match fromConf libs conf with
    | .ok proxy =>
      let p := reqwestProxy proxy
      if libs.all p.url then if libs.build tlsType danger p then .built p else .new
      else .new
    | .error _ => .new
  | none => if libs.build tlsType danger none then .built none else .new

theorem proxied_iff (conf : Socks5Server) (tlsType : Tls.TlsType) (danger : Bool) (p : ReqwestProxy) :
    configureHttpClient libs (some conf) tlsType danger = .built p ↔
      (∃ proxy, fromConf libs conf = .ok proxy ∧ p = reqwestProxy proxy) ∧
        libs.all p.url = true ∧ libs.build tlsType danger p = true := by
  rw [configureHttpClient]
  cases fromConf libs conf with
  | error => simp
  | ok proxy =>
    simp only [Except.ok.injEq, exists_eq_left']
    split_ifs with hall hbuild <;> grind

/-- Libraries that accept everything. -/
def lenient : Libs where
  parse s := some { scheme := if s = "ftp://p" then "ftp" else "http", hostPort := ['p'] }
  socketAddrs url := some url.hostPort
  all _ := true
  build _ _ _ := true

theorem bad_scheme_direct :
    configureHttpClient lenient (some ⟨"ftp://p", "", ""⟩) .rustls false = .new := by decide

end CodeDesk.Net.Proxy
