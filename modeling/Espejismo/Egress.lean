import Espejismo.Text

/-!
# Egress

The upstream proxy of a remote (`egress.rs`): how the texts `remote.egress.proxy`
and `remote.egress.socks5_proxy` are read.
-/

namespace Espejismo

open Net

/-! ## Authorities -/

def splitAuthority (authority : List Char) : Except Error (List Char × Nat) :=
  match parseSocketAddr authority with
  | some addr => .ok (addr.ip.display, addr.port)
  | none =>
    match rsplitOnce ':' authority with
    | none => .error (.msg "target authority must include a port")
    | some (host, port) =>
      let host := trimMatches (fun c => c == '[' || c == ']') host
      match parseU16 port with
      | none => .error (.msg "target authority port must be an integer from 0 to 65535")
      | some port =>
        if host.isEmpty then .error (.msg "target host is empty") else .ok (host, port)

/-! ## The upstream proxy -/

inductive EgressProxyKind where
  | socks4
  | socks4a
  | socks5
  | http
  | https
  deriving DecidableEq

structure EgressProxy where
  kind : EgressProxyKind
  endpoint : List Char
  username : Option (List Char)
  password : Option (List Char)
  deriving DecidableEq

structure EgressConfig where
  proxy : Option String := none
  socks5Proxy : Option String := none
  deriving DecidableEq

namespace EgressProxy

def parseParts (kind : EgressProxyKind) (rest : List Char) : Except Error EgressProxy := do
  let rest := trim rest
  ensure (!rest.isEmpty) "egress proxy endpoint is empty"
  ensure (!rest.contains '/' && !rest.contains '?' && !rest.contains '#')
    "egress proxy URL must not contain path, query, or fragment"
  let (auth, endpoint) := match rsplitOnce '@' rest with
    | some (auth, endpoint) => (some auth, endpoint)
    | none => (none, rest)
  let (username, password) ←
    match auth with
    | some auth => do
      let (username, password) := (splitOnce ':' auth).getD (auth, [])
      ensure (!username.isEmpty) "egress proxy username is empty"
      pure (some username, some password)
    | none => pure (none, none)
  let endpoint := trim endpoint
  match splitAuthority endpoint with
  | .error _ => .error (.msg "egress proxy endpoint must be host:port")
  | .ok _ => .ok { kind, endpoint, username, password }

def schemes : List (String × EgressProxyKind) :=
  [("socks://", .socks5), ("socks5://", .socks5), ("socks4://", .socks4), ("socks4a://", .socks4a),
    ("http://", .http), ("https://", .https)]

def parse (input : List Char) : Except Error EgressProxy := do
  let input := trim input
  ensure (!input.isEmpty) "remote.egress.proxy must not be empty"
  match schemes.findSome? fun (scheme, kind) => (stripStart scheme.toList input).map (kind, ·) with
  | some (kind, rest) => parseParts kind rest
  | none => .error (.msg
      "remote.egress.proxy must start with socks://, socks4://, socks4a://, socks5://, http://, or https://")

def parseLegacySocks5 (input : List Char) : Except Error EgressProxy := do
  let input := trim input
  ensure (!input.isEmpty) "remote.egress.socks5_proxy must not be empty"
  if containsText "://".toList input then parse input else parseParts .socks5 input

end EgressProxy

def EgressConfig.upstreamProxy (egress : EgressConfig) : Except Error (Option EgressProxy) :=
  match egress.proxy, egress.socks5Proxy with
  | some proxy, _ => some <$> EgressProxy.parse proxy.toList
  | none, some proxy => some <$> EgressProxy.parseLegacySocks5 proxy.toList
  | none, none => .ok none

end Espejismo
