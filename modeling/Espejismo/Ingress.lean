import Espejismo.Config
import Espejismo.Crypto.Psk
import Espejismo.Data.Incoming

/-!
# Ingress

The connection of an application to a proxy of the local client, and the
credentials it may have to show (`ingress/auth.rs`).
-/

namespace Espejismo

open EStateM

/-- The connection of an application: what is still to come from it and what was
written to it.  A write may fail, which ends the request. -/
structure ClientStream where
  incoming : Incoming UInt8
  written : List UInt8 := []
  writable : Nat → Bool := fun _ => true

namespace ClientStream

def readError : Ending → Error
  | .closed => .eof
  | .silent => .hang
  | .broken => .io

def receive (n : Nat) : EStateM Error ClientStream (List UInt8) := do
  let stream ← get
  match Incoming.takeExact n stream.incoming.pieces with
  | some (bytes, pieces) =>
    set { stream with incoming := { stream.incoming with pieces } }
    return bytes
  | none => throw (readError stream.incoming.ending)

def readU8 : EStateM Error ClientStream UInt8 := do
  return (← receive 1).headD 0

def readU16 : EStateM Error ClientStream Nat := do
  let bytes ← receive 2
  return (bytes.getD 0 0).toNat * 256 + (bytes.getD 1 0).toNat

def send (bytes : List UInt8) : EStateM Error ClientStream Unit := do
  let stream ← get
  if stream.writable stream.written.length then
    set { stream with written := stream.written ++ bytes }
  else throw .io

section

variable {stream : ClientStream} {bytes : List UInt8} {n : Nat}

theorem receive_eq_ok (h : (receive n).run stream = .ok bytes stream') :
    stream.incoming.bytes = bytes ++ stream'.incoming.bytes ∧ bytes.length = n := by
  simp only [receive, run_bind, run_get] at h
  split at h
  · next taken pieces hta =>
    cases h
    exact Incoming.takeExact_eq_some hta
  · cases h

theorem readU8_eq_ok (h : readU8.run stream = .ok b stream') :
    stream.incoming.bytes = b :: stream'.incoming.bytes := by
  obtain ⟨bytes, s₁, hre, hb⟩ := run_bind_eq_ok.mp h
  cases hb
  obtain ⟨hby, hle⟩ := receive_eq_ok hre
  obtain ⟨b, rfl⟩ := List.length_eq_one_iff.mp hle
  exact hby

theorem send_eq_ok (h : (send bytes).run stream = .ok u stream') :
    stream'.incoming = stream.incoming := by
  simp only [send, run_bind, run_get] at h
  split at h <;> cases h
  rfl

end

end ClientStream

def ProxyAuth.matches (auth : ProxyAuth) (username password : List UInt8) : Bool :=
  username == utf8Bytes auth.username.toList && password == utf8Bytes auth.password.toList

theorem ProxyAuth.matches_eq_true {auth : ProxyAuth} {username password : List UInt8} :
    auth.matches username password = true ↔
      username = utf8Bytes auth.username.toList ∧ password = utf8Bytes auth.password.toList := by
  simp [ProxyAuth.matches]

end Espejismo
