import Mathlib.Algebra.Group.Nat.Defs

/-!
# Net.Address

IP and socket addresses as a standard library reads and prints them: the text
of an IPv4 address, of an IPv6 address with its `::` and its embedded IPv4 tail,
and of a socket address.  A reader takes what it needs from the front of a text
and returns the rest; a whole text is an address when nothing is left.
-/

namespace Net

inductive IpAddr where
  | v4 (a b c d : UInt8)
  | v6 (segments : Vector UInt16 8)
  deriving DecidableEq

structure SocketAddr where
  ip : IpAddr
  port : Nat
  deriving DecidableEq

def localhostV6 : Vector UInt16 8 := #v[0, 0, 0, 0, 0, 0, 0, 1]

def unspecifiedV6 : Vector UInt16 8 := #v[0, 0, 0, 0, 0, 0, 0, 0]

/-- `127.0.0.0/8`, or `::1`. -/
def IpAddr.isLoopback : IpAddr → Bool
  | .v4 a _ _ _ => a == 127
  | .v6 segments => segments == localhostV6

/-! ## Reading -/

def digitValue (radix : Nat) (c : Char) : Option Nat :=
  let value :=
    if '0' ≤ c ∧ c ≤ '9' then c.toNat - '0'.toNat
    else if 'a' ≤ c ∧ c ≤ 'z' then c.toNat - 'a'.toNat + 10
    else if 'A' ≤ c ∧ c ≤ 'Z' then c.toNat - 'A'.toNat + 10
    else radix
  if value < radix then some value else none

def digitsValue (radix : Nat) (digits : List Char) : Nat :=
  digits.foldl (fun value c => value * radix + (digitValue radix c).getD 0) 0

/-- A number below `bound`; it takes every digit there is and fails if they are
too many, or if a leading zero is not allowed. -/
def readNumber (radix : Nat) (maxDigits : Option Nat) (allowZeroPrefix : Bool) (bound : Nat)
    (text : List Char) : Option (Nat × List Char) :=
  let digits := text.takeWhile fun c => (digitValue radix c).isSome
  if digits.isEmpty then none
  else if maxDigits.any (· < digits.length) then none
  else if !allowZeroPrefix && digits.head? == some '0' && 1 < digits.length then none
  else if digitsValue radix digits < bound then
    some (digitsValue radix digits, text.drop digits.length)
  else none

def readGivenChar (c : Char) : List Char → Option (List Char)
  | [] => none
  | d :: text => if d = c then some text else none

def readOctet (text : List Char) : Option (UInt8 × List Char) :=
  (readNumber 10 (some 3) false 256 text).map fun (n, rest) => (UInt8.ofNat n, rest)

def readIpv4Addr (text : List Char) :
    Option ((UInt8 × UInt8 × UInt8 × UInt8) × List Char) := do
  let (a, text) ← readOctet text
  let (b, text) ← readOctet (← readGivenChar '.' text)
  let (c, text) ← readOctet (← readGivenChar '.' text)
  let (d, text) ← readOctet (← readGivenChar '.' text)
  return ((a, b, c, d), text)

def segmentOf (high low : UInt8) : UInt16 := UInt16.ofNat (high.toNat * 256 + low.toNat)

/-- The groups of one half of an IPv6 address, whether an IPv4 address ended
them, and the rest.  `left` groups may follow, the next one is number `index`;
an IPv4 address needs room for two. -/
def readGroups : (left index : Nat) → List Char → List UInt16 × Bool × List Char
  | 0, _, text => ([], false, text)
  | left + 1, index, text =>
    let body := if 0 < index then readGivenChar ':' text else some text
    match (if left = 0 then none else body.bind readIpv4Addr) with
    | some ((a, b, c, d), rest) => ([segmentOf a b, segmentOf c d], true, rest)
    | none =>
      match body.bind (readNumber 16 (some 4) true (2 ^ 16)) with
      | some (group, rest) =>
        let (groups, ipv4, rest) := readGroups left (index + 1) rest
        (UInt16.ofNat group :: groups, ipv4, rest)
      | none => ([], false, text)

def readIpv6Addr (text : List Char) : Option (Vector UInt16 8 × List Char) :=
  let (head, ipv4, rest) := readGroups 8 0 text
  if head.length = 8 then some (.ofFn fun i => head.getD i 0, rest)
  else if ipv4 then none
  else do
    let rest ← readGivenChar ':' rest
    let rest ← readGivenChar ':' rest
    let (tail, _, rest) := readGroups (8 - (head.length + 1)) 0 rest
    let segments := head ++ List.replicate (8 - head.length - tail.length) 0 ++ tail
    return (.ofFn fun i => segments.getD i 0, rest)

def readPort (text : List Char) : Option (Nat × List Char) :=
  (readGivenChar ':' text).bind (readNumber 10 none true (2 ^ 16))

def readSocketAddrV4 (text : List Char) : Option (SocketAddr × List Char) := do
  let ((a, b, c, d), text) ← readIpv4Addr text
  let (port, text) ← readPort text
  return ({ ip := .v4 a b c d, port }, text)

/-- `%` and the number of an interface, which may be missing. -/
def skipScopeId (text : List Char) : List Char :=
  match (readGivenChar '%' text).bind (readNumber 10 none true (2 ^ 32)) with
  | some (_, rest) => rest
  | none => text

def readSocketAddrV6 (text : List Char) : Option (SocketAddr × List Char) := do
  let text ← readGivenChar '[' text
  let (segments, text) ← readIpv6Addr text
  let text ← readGivenChar ']' (skipScopeId text)
  let (port, text) ← readPort text
  return ({ ip := .v6 segments, port }, text)

def parseSocketAddr (text : List Char) : Option SocketAddr :=
  match (readSocketAddrV4 text).orElse fun _ => readSocketAddrV6 text with
  | some (addr, []) => some addr
  | _ => none

def parseIpAddr (text : List Char) : Option IpAddr :=
  match (readIpv4Addr text).map fun ((a, b, c, d), rest) => (IpAddr.v4 a b c d, rest) with
  | some (ip, rest) => if rest.isEmpty then some ip else none
  | none =>
    match readIpv6Addr text with
    | some (segments, []) => some (.v6 segments)
    | _ => none

/-! ## Printing -/

def displaySegments (segments : List UInt16) : List Char :=
  [':'].intercalate (segments.map fun s => Nat.toDigits 16 s.toNat)

def longestZeroRun (segments : List UInt16) : Nat × Nat :=
  let step := fun (state : (Nat × Nat) × (Nat × Nat)) (entry : UInt16 × Nat) =>
    let (longest, current) := state
    if entry.1 = 0 then
      let current := (if current.2 = 0 then entry.2 else current.1, current.2 + 1)
      (if longest.2 < current.2 then current else longest, current)
    else (longest, (0, 0))
  (segments.zipIdx.foldl step ((0, 0), (0, 0))).1

def displayIpv4 (a b c d : UInt8) : List Char :=
  ['.'].intercalate ([a, b, c, d].map fun octet => Nat.toDigits 10 octet.toNat)

def IpAddr.display : IpAddr → List Char
  | .v4 a b c d => displayIpv4 a b c d
  | .v6 segments =>
    match segments.toList with
    | [0, 0, 0, 0, 0, 0xffff, high, low] =>
      "::ffff:".toList ++ displayIpv4 (UInt8.ofNat (high.toNat / 256)) (UInt8.ofNat high.toNat)
        (UInt8.ofNat (low.toNat / 256)) (UInt8.ofNat low.toNat)
    | all =>
      let (start, len) := longestZeroRun all
      if 1 < len then
        displaySegments (all.take start) ++ "::".toList ++ displaySegments (all.drop (start + len))
      else displaySegments all

def SocketAddr.display (addr : SocketAddr) : List Char :=
  match addr.ip with
  | .v4 .. => addr.ip.display ++ ':' :: Nat.toDigits 10 addr.port
  | .v6 _ => '[' :: addr.ip.display ++ "]:".toList ++ Nat.toDigits 10 addr.port

/-! ## Special addresses -/

/-- `Ipv6Addr::to_ipv4_mapped`: an IPv4 address behind `::ffff:0:0/96`. -/
def toIpv4Mapped (segments : Vector UInt16 8) : Option IpAddr :=
  match segments.toList with
  | [0, 0, 0, 0, 0, 0xffff, high, low] =>
    some (.v4 (UInt8.ofNat (high.toNat / 256)) (UInt8.ofNat high.toNat)
      (UInt8.ofNat (low.toNat / 256)) (UInt8.ofNat low.toNat))
  | _ => none

/-- `Ipv4Addr::is_private`: `10/8`, `172.16/12` and `192.168/16`. -/
def isPrivateV4 (a b : UInt8) : Bool :=
  a == 10 || (a == 172 && 16 ≤ b && b ≤ 31) || (a == 192 && b == 168)

/-- `Ipv4Addr::is_documentation`: `192.0.2/24`, `198.51.100/24` and `203.0.113/24`. -/
def isDocumentationV4 (a b c : UInt8) : Bool :=
  (a == 192 && b == 0 && c == 2) || (a == 198 && b == 51 && c == 100) ||
    (a == 203 && b == 0 && c == 113)

def isUnspecifiedV6 (segments : Vector UInt16 8) : Bool := segments == unspecifiedV6

/-- `segments()[0]`, with the leading bits of the address. -/
def leadingSegment (segments : Vector UInt16 8) : UInt16 := segments[0]

/-- `Ipv6Addr::is_unique_local`: `fc00::/7`. -/
def isUniqueLocalV6 (segments : Vector UInt16 8) : Bool :=
  leadingSegment segments &&& 0xfe00 == 0xfc00

/-- `Ipv6Addr::is_unicast_link_local`: `fe80::/10`. -/
def isUnicastLinkLocalV6 (segments : Vector UInt16 8) : Bool :=
  leadingSegment segments &&& 0xffc0 == 0xfe80

/-- `Ipv6Addr::is_multicast`: `ff00::/8`. -/
def isMulticastV6 (segments : Vector UInt16 8) : Bool :=
  leadingSegment segments &&& 0xff00 == 0xff00

/-- The documentation range `2001:db8::/32`. -/
def isDocumentationV6 (segments : Vector UInt16 8) : Bool :=
  leadingSegment segments == 0x2001 && segments[1] == 0x0db8

end Net
