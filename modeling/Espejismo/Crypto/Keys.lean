import Mathlib.Logic.Function.Iterate
import Espejismo.Error
import Espejismo.Platform

/-!
# Crypto.Keys

Session keys and the traffic-key primitives (`crypto/mod.rs`): the key schedule
both peers run after the handshake, the one-way ratchet of a direction
(`update_tx` / `update_rx`), and the nonce and length mask of a frame.
-/

namespace Espejismo

open Binary

inductive Role where
  | client
  | server
  deriving DecidableEq, Repr

/-- Keys of a session.  The ciphers `tx` and `rx` of the program are
`XChaCha20Poly1305::new` of `txKey` and `rxKey` and are replaced together with
them, so the keys stand for both. -/
structure SessionKeys where
  txKey : Bytes 32
  rxKey : Bytes 32
  txLenMask : Bytes 32
  rxLenMask : Bytes 32
  nonceTag : Bytes 8
  txGeneration : Nat
  rxGeneration : Nat
  txUpdateLabel : List UInt8
  rxUpdateLabel : List UInt8
  deriving DecidableEq

/-! ## Primitives of a frame -/

/-- The 24-byte nonce of a frame: the session tag, eight zero bytes, the
sequence number. -/
def sessionNonce (seq : Nat) (tag : Bytes 8) : Bytes 24 :=
  ⟨tag.val ++ List.replicate 8 0 ++ encodeBE 8 seq, by simp⟩

def encrypt (P : Platform) (key : Bytes 32) (seq : Nat) (nonceTag : Bytes 8)
    (plain : List UInt8) : Except Error (List UInt8) :=
  match P.aead.encrypt key (sessionNonce seq nonceTag) plain with
  | some cipher => .ok cipher
  | none => .error (.msg "encryption failed")

def decrypt (P : Platform) (key : Bytes 32) (seq : Nat) (nonceTag : Bytes 8)
    (encrypted : List UInt8) : Except Error (List UInt8) :=
  match P.aead.decrypt key (sessionNonce seq nonceTag) encrypted with
  | some plain => .ok plain
  | none => .error (.msg "frame authentication failed")

/-- The mask of a frame's length field: the first four bytes of an HMAC over
the sequence number. -/
def lengthMask (P : Platform) (key : Bytes 32) (seq : Nat) : Nat :=
  decodeBE ((P.hmacSha256 key.val (ascii "len:" ++ encodeBE 8 seq)).val.take 4)

theorem lengthMask_lt (P : Platform) (key : Bytes 32) (seq : Nat) :
    lengthMask P key seq < 2 ^ 32 := by
  have h := decodeBE_lt ((P.hmacSha256 key.val (ascii "len:" ++ encodeBE 8 seq)).val.take 4)
  simpa [lengthMask] using h

theorem sessionNonce_inj (h : seq < 2 ^ 64) (h' : seq' < 2 ^ 64)
    (heq : sessionNonce seq tag = sessionNonce seq' tag) : seq = seq' := by
  have hby : encodeBE 8 seq = encodeBE 8 seq' := List.append_cancel_left (congrArg Subtype.val heq)
  have hva := congrArg decodeBE hby
  rw [decodeBE_encodeBE (by omega), decodeBE_encodeBE (by omega)] at hva
  exact hva

/-! ## The ratchet -/

def nextKeyGeneration (current : Nat) : Except Error Nat :=
  if current + 1 < 2 ^ 64 then .ok (current + 1)
  else .error (.msg "traffic key generation exhausted")

def updateSecret (P : Platform) (current : Bytes 32) (direction : List UInt8)
    (generation : Nat) : Bytes 32 × Bytes 32 :=
  let info := ascii "espejismo v1 key-update " ++ direction ++ encodeBE 8 generation
  (P.hkdfSha256 none current.val info 32,
    P.hkdfSha256 none current.val (info ++ ascii " length-mask") 32)

namespace SessionKeys

def updateTx (P : Platform) (k : SessionKeys) : Except Error SessionKeys :=
  match nextKeyGeneration k.txGeneration with
  | .error e => .error e
  | .ok generation =>
    let next := updateSecret P k.txKey k.txUpdateLabel generation
    .ok { k with txGeneration := generation, txKey := next.1, txLenMask := next.2 }

def updateRx (P : Platform) (k : SessionKeys) : Except Error SessionKeys :=
  match nextKeyGeneration k.rxGeneration with
  | .error e => .error e
  | .ok generation =>
    let next := updateSecret P k.rxKey k.rxUpdateLabel generation
    .ok { k with rxGeneration := generation, rxKey := next.1, rxLenMask := next.2 }

/-- `u64::from_be_bytes` of the nonce tag: both peers pick the stealth frame
size of the session with it. -/
def stealthSelector (k : SessionKeys) : Nat := decodeBE k.nonceTag.val

/-! ## Mirrored keys -/

/-- The transmit direction of `w` is the receive direction of `r`. -/
structure Mirrors (w r : SessionKeys) : Prop where
  key : w.txKey = r.rxKey
  lenMask : w.txLenMask = r.rxLenMask
  label : w.txUpdateLabel = r.rxUpdateLabel
  generation : w.txGeneration = r.rxGeneration
  nonceTag : w.nonceTag = r.nonceTag

def Mirrored (a b : SessionKeys) : Prop := Mirrors a b ∧ Mirrors b a

/-- **The ratchet stays in step**: an update of one end succeeds exactly when
the matching update of the other end does, and the results mirror again. -/
theorem mirrors_updateTx (P : Platform) (h : Mirrors w r) :
    (∃ e, w.updateTx P = .error e ∧ r.updateRx P = .error e) ∨
    ∃ w' r', w.updateTx P = .ok w' ∧ r.updateRx P = .ok r' ∧ Mirrors w' r' ∧
      (Mirrors r w → Mirrors r' w') := by
  unfold updateTx updateRx
  rw [← h.generation]
  cases hgen : nextKeyGeneration w.txGeneration with
  | error e => exact .inl ⟨e, rfl, rfl⟩
  | ok =>
    refine .inr ⟨_, _, rfl, rfl, ?_, ?_⟩
    · exact
        { key := by simp only [h.key, h.label]
          lenMask := by simp [h.key, h.label]
          label := h.label
          generation := rfl
          nonceTag := h.nonceTag }
    · intro hbc
      exact
        { key := hbc.key
          lenMask := hbc.lenMask
          label := hbc.label
          generation := hbc.generation
          nonceTag := hbc.nonceTag }

def afterUpdateTx (P : Platform) (k : SessionKeys) : SessionKeys :=
  match k.updateTx P with
  | .ok k' => k'
  | .error _ => k

def afterUpdateRx (P : Platform) (k : SessionKeys) : SessionKeys :=
  match k.updateRx P with
  | .ok k' => k'
  | .error _ => k

theorem mirrored_ratchet (P : Platform) (h : Mirrored a b) (n : Nat) :
    Mirrored ((afterUpdateTx P)^[n] a) ((afterUpdateRx P)^[n] b) := by
  induction n generalizing a b with
  | zero => exact h
  | succ n ih =>
    apply ih
    unfold afterUpdateTx afterUpdateRx
    rcases mirrors_updateTx P h.1 with ⟨e, ha, hb⟩ | ⟨a', b', ha, hb, hab, hba⟩
    · rw [ha, hb]; exact h
    · rw [ha, hb]; exact ⟨hab, hba h.2⟩

end SessionKeys

/-! ## The key schedule -/

/-- Traffic keys of a session, from the PSK, the X25519 secret and the
client's handshake nonce. -/
def deriveKeys (P : Platform) (psk : List UInt8) (shared : Bytes 32) (nonce : List UInt8)
    (role : Role) : SessionKeys :=
  let salt := (P.sha256 (psk ++ nonce)).val
  let expand := fun (info : String) (len : Nat) =>
    P.hkdfSha256 (some salt) shared.val (ascii info) len
  let clientToServer := expand "espejismo v1 client-to-server" 32
  let serverToClient := expand "espejismo v1 server-to-client" 32
  let clientLenMask := expand "espejismo v1 client-length-mask" 32
  let serverLenMask := expand "espejismo v1 server-length-mask" 32
  let nonceTag := expand "espejismo v1 nonce-tag" 8
  match role with
  | .client =>
    { txKey := clientToServer, rxKey := serverToClient
      txLenMask := clientLenMask, rxLenMask := serverLenMask, nonceTag
      txGeneration := 0, rxGeneration := 0
      txUpdateLabel := ascii "client-to-server", rxUpdateLabel := ascii "server-to-client" }
  | .server =>
    { txKey := serverToClient, rxKey := clientToServer
      txLenMask := serverLenMask, rxLenMask := clientLenMask, nonceTag
      txGeneration := 0, rxGeneration := 0
      txUpdateLabel := ascii "server-to-client", rxUpdateLabel := ascii "client-to-server" }

theorem mirrored_deriveKeys (P : Platform) (psk : List UInt8) (shared : Bytes 32)
    (nonce : List UInt8) :
    SessionKeys.Mirrored (deriveKeys P psk shared nonce .client)
      (deriveKeys P psk shared nonce .server) :=
  ⟨⟨rfl, rfl, rfl, rfl, rfl⟩, ⟨rfl, rfl, rfl, rfl, rfl⟩⟩

end Espejismo
