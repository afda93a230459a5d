import Mathlib.Data.Finset.Basic
import Mathlib.Data.Finset.Dedup
import Espejismo.Binary.Word
import Espejismo.Data.ExpiryQueue
import Espejismo.Error

/-!
# Protocol.Replay

The replay cache of a remote (`protocol/replay.rs`): a set of handshake
identifiers beside the queue that remembers when each was stored.  A call
first prunes the queue from its front, then refuses an identifier that is
still there, then stores the new ones at its end.
-/

namespace Espejismo

open Binary

/-! ## The cache -/

inductive ReplayKey where
  | ephemeralPublicKey (key : Bytes 32)
  | firstPacketDigest (digest : Bytes 32)
  deriving DecidableEq

/-- The cache: the hash set `seen` and the queue `order`, oldest entry first. -/
structure ReplayCache where
  ttlSecs : Int64
  seen : Finset ReplayKey
  order : List (Int64 × ReplayKey)
  deriving DecidableEq

namespace ReplayCache

/-- An empty cache.  A non-positive time to live still retains entries at
their insertion time. -/
def new (ttlSecs : Int64) : ReplayCache :=
  { ttlSecs := max ttlSecs 0, seen := ∅, order := [] }

/-- The time an entry inserted at `now` is stored with: never before the last
one, so a clock that moved back does not unsort the queue. -/
def insertionTime (c : ReplayCache) (now : Int64) : Int64 :=
  match c.order.getLast? with
  | none => now
  | some (lastInsertedAt, _) => max now lastInsertedAt

/-- The test `prune` makes at the front of the queue: an age that overflows
counts as expired, a rolled-back clock expires nothing. -/
def expired (ttlSecs now insertedAt : Int64) : Bool :=
  decide (insertedAt ≤ now) &&
    match checkedSubI64 now insertedAt with
    | none => true
    | some age => decide (ttlSecs < age)

/-- The loop of `prune`: pop the front entry while it has expired. -/
def pruneLoop (ttlSecs now : Int64) :
    List (Int64 × ReplayKey) → Finset ReplayKey → List (Int64 × ReplayKey) × Finset ReplayKey
  | [], seen => ([], seen)
  | (insertedAt, key) :: order, seen =>
    if expired ttlSecs now insertedAt then pruneLoop ttlSecs now order (seen.erase key)
    else ((insertedAt, key) :: order, seen)

def prune (c : ReplayCache) (now : Int64) : ReplayCache :=
  let r := pruneLoop c.ttlSecs now c.order c.seen
  { c with order := r.1, seen := r.2 }

def store (c : ReplayCache) (insertedAt : Int64) (keys : List ReplayKey) : ReplayCache :=
  keys.foldl (fun c key =>
    { c with seen := insert key c.seen, order := c.order ++ [(insertedAt, key)] }) c

def checkAndInsertKey (now : Int64) (key : ReplayKey) : EStateM Error ReplayCache Unit := do
  modify (prune · now)
  let c ← get
  if key ∈ c.seen then throw (.msg "replayed key")
  set (c.store (c.insertionTime now) [key])

def checkAndInsertEphemeralPublicKey (now : Int64) (publicKey : Bytes 32) :
    EStateM Error ReplayCache Unit :=
  EStateM.adaptExcept (fun _ => .msg "replayed ephemeral public key")
    (checkAndInsertKey now (.ephemeralPublicKey publicKey))

def checkAndInsert (now : Int64) (publicKey : Bytes 32) : EStateM Error ReplayCache Unit :=
  checkAndInsertEphemeralPublicKey now publicKey

def checkAndInsertFirstPacketDigest (now : Int64) (digest : Bytes 32) :
    EStateM Error ReplayCache Unit :=
  EStateM.adaptExcept (fun _ => .msg "replayed first packet digest")
    (checkAndInsertKey now (.firstPacketDigest digest))

/-- Records both authenticated identifiers together, so a failed check cannot
leave only one half of a handshake in the cache. -/
def checkAndInsertHandshake (now : Int64) (digest publicKey : Bytes 32) :
    EStateM Error ReplayCache Unit := do
  modify (prune · now)
  let c ← get
  let insertedAt := c.insertionTime now
  if .firstPacketDigest digest ∈ c.seen then throw (.msg "replayed first packet digest")
  if .ephemeralPublicKey publicKey ∈ c.seen then throw (.msg "replayed ephemeral public key")
  set (c.store insertedAt [.firstPacketDigest digest, .ephemeralPublicKey publicKey])

end ReplayCache

end Espejismo
