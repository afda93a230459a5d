import Espejismo.Error
import Espejismo.Net.Address

/-!
# Dns

Name resolution (`dns.rs`): the cache of successful answers, the bounded number
of lookups, and the addresses of an answer.  The clock counts nanoseconds.
-/

namespace Espejismo

open Net

/-! ## The cache -/

def dnsCacheTtl : Nat := 60 * 10 ^ 9

def dnsCacheCapacity : Nat := 256

structure DnsEntry where
  authority : List Char
  addrs : List SocketAddr
  expires : Nat
  deriving DecidableEq

structure DnsCache where
  entries : List DnsEntry := []
  deriving DecidableEq

namespace DnsCache

def remove (authority : List Char) (entries : List DnsEntry) : List DnsEntry :=
  entries.filter (·.authority != authority)

/-- The addresses of an authority; an expired entry is dropped. -/
def get (cache : DnsCache) (authority : List Char) (now : Nat) :
    Option (List SocketAddr) × DnsCache :=
  match cache.entries.find? (·.authority == authority) with
  | some entry =>
    if now < entry.expires then (some entry.addrs, cache)
    else (none, ⟨remove authority cache.entries⟩)
  | none => (none, cache)

def oldest : List DnsEntry → Option DnsEntry
  | [] => none
  | entry :: entries =>
    match oldest entries with
    | some other => if other.expires < entry.expires then some other else some entry
    | none => some entry

def insertWithTtl (cache : DnsCache) (authority : List Char) (addrs : List SocketAddr)
    (now ttl : Nat) : DnsCache :=
  -- an expired entry does not decide which live one has to go
  let live := cache.entries.filter (now < ·.expires)
  let kept :=
    if dnsCacheCapacity ≤ live.length ∧ !live.any (·.authority == authority) then
      match oldest live with
      | some entry => remove entry.authority live
      | none => live
    else live
  ⟨{ authority, addrs, expires := now + min ttl dnsCacheTtl } :: remove authority kept⟩

def insert (cache : DnsCache) (authority : List Char) (addrs : List SocketAddr) (now : Nat) :
    DnsCache :=
  cache.insertWithTtl authority addrs now dnsCacheTtl

end DnsCache

/-! ## Lookups -/

def dnsMaxAttempts : Nat := 3

/-- What one lookup of the system resolver comes to. -/
inductive Lookup where
  | found (addrs : List SocketAddr)
  | failed
  /-- The deadline of the whole resolution passed before it ended. -/
  | late

def withRetry (lookup : Nat → Lookup) (authority : List Char) :
    (left attempt : Nat) → Except Error (List SocketAddr)
  | 0, _ =>
    let authority := String.ofList authority
    .error (.msg s!"DNS lookup failed after {dnsMaxAttempts} attempts: {authority}")
  | left + 1, attempt =>
    match lookup attempt with
    | .found addrs => .ok addrs
    | .failed => withRetry lookup authority left (attempt + 1)
    | .late =>
      let authority := String.ofList authority
      .error (.msg s!"DNS resolution timed out after 10s: {authority}")

def collectAddresses (addrs : List SocketAddr) (authority : List Char) :
    Except Error (List SocketAddr) :=
  let authority := String.ofList authority
  if addrs.isEmpty then .error (.msg s!"DNS lookup returned no addresses: {authority}")
  else .ok addrs.eraseDups

/-- The system around a resolution: its lookups, the clock, how long the lookups
take and what other tasks do to the cache in that time. -/
structure Resolver where
  lookup : (authority : List Char) → (attempt : Nat) → Lookup
  now : Nat
  elapsed : Nat := 0
  meanwhile : DnsCache → DnsCache := id

/-- `resolve_socket_addrs`: a literal address, an answer of the cache, or one of
the system, which is kept. -/
def resolveSocketAddrs (resolver : Resolver) (authority : List Char) :
    EStateM Error DnsCache (List SocketAddr) :=
  match parseSocketAddr authority with
  | some addr => return [addr]
  | none => do
    let (cached, cache) := (← get).get authority resolver.now
    set cache
    match cached with
    | some addrs => return addrs
    | none =>
      modify resolver.meanwhile
      match withRetry (resolver.lookup authority) authority dnsMaxAttempts 0 >>=
          (collectAddresses · authority) with
      | .error e => throw e
      | .ok addrs =>
        modify (·.insert authority addrs (resolver.now + resolver.elapsed))
        return addrs

/-- Where the addresses of an authority come from. -/
inductive Answered (resolver : Resolver) (cache : DnsCache) (authority : List Char) :
    List SocketAddr → Prop
  | literal {addr} (h : parseSocketAddr authority = some addr) :
      Answered resolver cache authority [addr]
  | cached {addrs} (h : (cache.get authority resolver.now).1 = some addrs) :
      Answered resolver cache authority addrs
  | lookedUp {attempt addrs} (h : resolver.lookup authority attempt = .found addrs) :
      Answered resolver cache authority addrs.eraseDups

variable {authority : List Char} {addrs : List SocketAddr}

theorem withRetry_eq_ok (h : withRetry lookup authority left attempt = .ok addrs) :
    ∃ attempt, lookup attempt = .found addrs := by
  fun_induction withRetry lookup authority left attempt with
  | case1 | case4 => cases h
  | case2 left attempt found hlo =>
    cases h
    exact ⟨attempt, hlo⟩
  | case3 left attempt hlo ih => exact ih h

theorem collectAddresses_eq_ok
    (h : collectAddresses found authority = .ok addrs) : addrs = found.eraseDups := by
  unfold collectAddresses at h
  split at h
  · cases h
  · cases h
    rfl

theorem answered_of_resolveSocketAddrs
    (h : (resolveSocketAddrs resolver authority).run cache = .ok addrs cache') :
    Answered resolver cache authority addrs := by
  unfold resolveSocketAddrs at h
  cases hpa : parseSocketAddr authority with
  | some =>
    rw [hpa] at h
    cases h
    exact .literal hpa
  | none =>
    rw [hpa] at h
    rcases hge : cache.get authority resolver.now with ⟨cached, kept⟩
    simp only [EStateM.run_bind, EStateM.run_get, hge] at h
    cases cached with
    | some =>
      cases h
      exact .cached (by rw [hge])
    | none =>
      cases hre : withRetry (resolver.lookup authority) authority dnsMaxAttempts 0 with
      | error =>
        rw [hre] at h
        cases h
      | ok found =>
        obtain ⟨attempt, hlo⟩ := withRetry_eq_ok hre
        simp only [hre, bind, Except.bind] at h
        cases hco : collectAddresses found authority with
        | error =>
          rw [hco] at h
          cases h
        | ok =>
          rw [hco] at h
          cases h
          rw [collectAddresses_eq_ok hco]
          exact .lookedUp hlo

end Espejismo
