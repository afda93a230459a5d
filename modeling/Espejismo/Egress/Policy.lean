import Espejismo.Egress

/-!
# Egress.Policy

The destination policy of a remote (`EgressPolicy` of `egress.rs`): which
authorities may be asked for, by host, port and literal address, and which
resolved addresses may be contacted.
-/

namespace Espejismo

open Net

/-- `EgressPolicy`: the rules, with the upstream proxy that `EgressConfig` holds. -/
structure EgressPolicy extends EgressConfig where
  denyPrivateIps : Bool := false
  allowHosts : List String := []
  blockHosts : List String := []
  allowPorts : List Nat := []
  blockPorts : List Nat := []
  deriving DecidableEq

/-- A name matches itself, a pattern `*.name` the name and what ends in `.name`. -/
def hostMatches (host : List Char) (pattern : String) : Bool :=
  let pattern := toAsciiLowercase pattern.toList
  match stripStart "*.".toList pattern with
  | some suffix => host == suffix || ('.' :: suffix).isSuffixOf host
  | none => host == pattern

def isPrivateOrSpecial : IpAddr → Bool
  | .v4 a b c d => special a b c d
  | .v6 segments =>
    match toIpv4Mapped segments with
    | some (.v4 a b c d) => special a b c d
    | _ =>
      IpAddr.isLoopback (.v6 segments) || isUnspecifiedV6 segments ||
        isUniqueLocalV6 segments || isUnicastLinkLocalV6 segments || isMulticastV6 segments ||
        isDocumentationV6 segments
where
  special (a b c d : UInt8) : Bool :=
    isPrivateV4 a b || a == 127 || (a == 169 && b == 254) ||
      (a == 255 && b == 255 && c == 255 && d == 255) || isDocumentationV4 a b c || a == 0 ||
      (a == 100 && 64 ≤ b && b ≤ 127) || (a == 192 && (b == 0 || (b == 88 && c == 99))) ||
      (a == 198 && (b == 18 || b == 19 || (b == 51 && c == 100))) ||
      (a == 203 && b == 0 && c == 113) || 224 ≤ a

namespace EgressPolicy

/-! ## The texts of a rejection -/

def blockedHost (host : List Char) : String :=
  let host := String.ofList host
  s!"egress target host '{host}' is blocked by remote.egress.block_hosts"

def unlistedHost (host : List Char) : String :=
  let host := String.ofList host
  s!"egress target host '{host}' is not in remote.egress.allow_hosts"

def privateTarget (ip : IpAddr) : String :=
  let ip := String.ofList ip.display
  s!"egress target IP '{ip}' is private or special and remote.egress.deny_private_ips is enabled"

/-! ## The checks -/

/-- The checks on the host and the port that an authority is split into. -/
def validateTarget (policy : EgressPolicy) (host : List Char) (port : Nat) : Except Error Unit := do
  let normalizedHost := toAsciiLowercase host
  ensure (!policy.blockHosts.any (hostMatches normalizedHost)) (blockedHost host)
  ensure (policy.allowHosts.isEmpty || policy.allowHosts.any (hostMatches normalizedHost))
    (unlistedHost host)
  ensure (!policy.blockPorts.contains port)
    s!"egress target port {port} is blocked by remote.egress.block_ports"
  ensure (policy.allowPorts.isEmpty || policy.allowPorts.contains port)
    s!"egress target port {port} is not in remote.egress.allow_ports"
  if policy.denyPrivateIps then
    match parseIpAddr normalizedHost with
    | some ip => ensure (!isPrivateOrSpecial ip) (privateTarget ip)
    | none => return ()

def validateAuthority (policy : EgressPolicy) (authority : List Char) : Except Error Unit := do
  let (host, port) ← splitAuthority authority
  policy.validateTarget host port

def validateResolvedAddr (policy : EgressPolicy) (addr : SocketAddr) : Except Error Unit := do
  let shown := String.ofList addr.display
  let port := addr.port
  ensure (!(policy.denyPrivateIps && isPrivateOrSpecial addr.ip))
    s!"resolved egress address {shown} has a private or special IP and remote.egress.deny_private_ips is enabled"
  ensure (!policy.blockPorts.contains port)
    s!"resolved egress address {shown} uses port {port} blocked by remote.egress.block_ports"
  ensure (policy.allowPorts.isEmpty || policy.allowPorts.contains port)
    s!"resolved egress address {shown} uses port {port} not in remote.egress.allow_ports"

end EgressPolicy

end Espejismo
