import Espejismo.Data.Utf8
import Espejismo.Ingress

/-!
# Ingress.Socks5

A SOCKS5 request of an application (`ingress/socks5.rs`): the greeting, the
user name and password if they are asked for, and the target.
-/

namespace Espejismo

open Net ClientStream

structure SocksTarget where
  host : List Char
  port : Nat
  deriving DecidableEq

inductive SocksRequest where
  | connect (target : SocksTarget)
  | udpAssociate
  deriving DecidableEq

namespace Socks5

def reply (code : UInt8) : EStateM Error ClientStream Unit :=
  send [0x05, code, 0x00, 0x01, 0, 0, 0, 0, 0, 0]

def refuse (answer : EStateM Error ClientStream Unit) (text : String) :
    EStateM Error ClientStream α := do
  answer
  throw (.msg text)

def verifyPasswordAuth (auth : ProxyAuth) : EStateM Error ClientStream Unit := do
  let ver ← readU8
  if ver ≠ 1 then
    refuse (send [0x01, 0x01]) s!"unsupported SOCKS username/password auth version {ver}"
  else
  let usernameLen ← readU8
  if usernameLen = 0 then refuse (send [0x01, 0x01]) "SOCKS username must not be empty"
  else
  let username ← receive usernameLen.toNat
  let passwordLen ← readU8
  if passwordLen = 0 then refuse (send [0x01, 0x01]) "SOCKS password must not be empty"
  else
  let password ← receive passwordLen.toNat
  if !auth.matches username password then
    refuse (send [0x01, 0x01]) "SOCKS username/password auth failed"
  else send [0x01, 0x00]

def negotiateAuth (methods : List UInt8) (auth : Option ProxyAuth) :
    EStateM Error ClientStream Unit :=
  match auth with
  | some auth =>
    if !methods.contains 0x02 then
      refuse (send [0x05, 0xff]) "SOCKS client did not offer username/password auth"
    else do
      send [0x05, 0x02]
      verifyPasswordAuth auth
  | none =>
    if !methods.contains 0x00 then
      refuse (send [0x05, 0xff]) "SOCKS client did not offer no-auth method"
    else send [0x05, 0x00]

def readHost (atyp : UInt8) : EStateM Error ClientStream (List Char) :=
  match atyp with
  | 1 => do
    let ip ← receive 4
    return IpAddr.display (.v4 (ip.getD 0 0) (ip.getD 1 0) (ip.getD 2 0) (ip.getD 3 0))
  | 3 => do
    let len ← readU8
    let name ← receive len.toNat
    match Utf8.decode name with
    | some text =>
      if !text.isEmpty && !name.contains 0 then return text
      else refuse (reply 0x08) "invalid SOCKS5 domain name"
    | none => refuse (reply 0x08) "invalid SOCKS5 domain name"
  | 4 => do
    let ip ← receive 16
    return IpAddr.display
      (.v6 (Vector.ofFn fun i => segmentOf (ip.getD (2 * i) 0) (ip.getD (2 * i + 1) 0)))
  | atyp => refuse (reply 0x08) s!"unsupported address type {atyp}"

def acceptRequestWithAuth (auth : Option ProxyAuth) : EStateM Error ClientStream SocksRequest := do
  let ver ← readU8
  if ver ≠ 5 then throw (.msg s!"unsupported SOCKS version {ver}")
  else
  let methodsLen ← readU8
  let methods ← receive methodsLen.toNat
  negotiateAuth methods auth
  let ver ← readU8
  let cmd ← readU8
  let rsv ← readU8
  let atyp ← readU8
  if ver ≠ 5 then refuse (reply 0x07) s!"unsupported SOCKS request version {ver}"
  else if rsv ≠ 0 then refuse (reply 0x01) "SOCKS request reserved byte must be zero"
  else
  let host ← readHost atyp
  let port ← readU16
  match cmd with
  | 1 => do
    reply 0x00
    return .connect { host, port }
  | 3 => return .udpAssociate
  -- BIND needs a second inbound peer
  | cmd => refuse (reply 0x07) s!"unsupported SOCKS5 command {cmd}"

/-! ## What an accepted client sent -/

variable {s s' : ClientStream}

theorem refuse_ne_ok : (refuse answer text).run s ≠ .ok a s' := by
  intro h
  obtain ⟨_, _, _, hth⟩ := run_bind_eq_ok.mp h
  cases hth

/-- The sub-negotiation of RFC 1929: version 1, then user name and password with
their lengths. -/
def passwordMessage (auth : ProxyAuth) : List UInt8 :=
  let username := utf8Bytes auth.username.toList
  let password := utf8Bytes auth.password.toList
  1 :: UInt8.ofNat username.length :: username ++ UInt8.ofNat password.length :: password

theorem verifyPasswordAuth_eq_ok (h : (verifyPasswordAuth auth).run s = .ok u s') :
    s.incoming.bytes = passwordMessage auth ++ s'.incoming.bytes := by
  obtain ⟨ver, s₁, hvr, h⟩ := run_bind_eq_ok.mp h
  split at h
  · exact absurd h refuse_ne_ok
  · next hon =>
  obtain ⟨usernameLen, s₂, hul, h⟩ := run_bind_eq_ok.mp h
  split at h
  · exact absurd h refuse_ne_ok
  obtain ⟨username, s₃, hus, h⟩ := run_bind_eq_ok.mp h
  obtain ⟨passwordLen, s₄, hpl, h⟩ := run_bind_eq_ok.mp h
  split at h
  · exact absurd h refuse_ne_ok
  obtain ⟨password, s₅, hpa, hse⟩ := run_bind_eq_ok.mp h
  split at hse
  · exact absurd hse refuse_ne_ok
  · next hma =>
    obtain ⟨hus', hur⟩ := receive_eq_ok hus
    obtain ⟨hpa', hps⟩ := receive_eq_ok hpa
    simp only [Bool.not_eq_true', Bool.not_eq_false, ProxyAuth.matches_eq_true] at hma
    obtain ⟨rfl, rfl⟩ := hma
    have hon : ver = 1 := Decidable.not_not.mp hon
    rw [readU8_eq_ok hvr, readU8_eq_ok hul, hus', readU8_eq_ok hpl, hpa',
      send_eq_ok hse, hon, passwordMessage, hur, hps]
    simp

theorem acceptRequestWithAuth_eq_ok
    (h : (acceptRequestWithAuth (some auth)).run s = .ok request s') :
    ∃ methods rest, methods.length < 256 ∧ 0x02 ∈ methods ∧
      s.incoming.bytes =
        5 :: UInt8.ofNat methods.length :: methods ++ passwordMessage auth ++ rest := by
  obtain ⟨ver, s₁, hvr, h⟩ := run_bind_eq_ok.mp h
  split at h
  · cases h
  · next hfi =>
  obtain ⟨methodsLen, s₂, hml, h⟩ := run_bind_eq_ok.mp h
  obtain ⟨methods, s₃, hme, h⟩ := run_bind_eq_ok.mp h
  obtain ⟨_, s₄, hau, -⟩ := run_bind_eq_ok.mp h
  simp only [negotiateAuth] at hau
  split at hau
  · exact absurd hau refuse_ne_ok
  · next hof =>
    obtain ⟨_, s₅, hwr, hve⟩ := run_bind_eq_ok.mp hau
    obtain ⟨hme', hle⟩ := receive_eq_ok hme
    refine ⟨methods, s₄.incoming.bytes, ?_, by simpa using hof, ?_⟩
    · rw [hle]
      exact methodsLen.toNat_lt
    · have hfi : ver = 5 := Decidable.not_not.mp hfi
      rw [readU8_eq_ok hvr, readU8_eq_ok hml, hme', ← send_eq_ok hwr,
        verifyPasswordAuth_eq_ok hve, hfi, hle]
      simp

end Socks5

end Espejismo
