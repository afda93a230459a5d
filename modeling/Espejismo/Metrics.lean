import Mathlib.Algebra.Order.Ring.Nat
import Mathlib.Data.List.Induction

/-!
# Metrics

Counters and their series (`metrics.rs`).  A series has a user or a failure
reason in its label; names come from outside, so what has no series of its own
when the table is full counts in the series `other`.

Counters are natural numbers here: none of them reaches `2 ^ 64`.
-/

namespace Espejismo

open List

/-! ## Series -/

/-- Counters by name. The order of the source's map is that of the lines it
prints. -/
abbrev SeriesMap (α : Type) := List (String × α)

namespace SeriesMap

variable {α : Type} {m : SeriesMap α} {init : α} {f : α → α} {key name other : String} {limit : Nat}

def containsKey (m : SeriesMap α) (key : String) : Bool := m.any (·.1 == key)

def modifyEntry (key : String) (init : α) (f : α → α) : SeriesMap α → SeriesMap α
  | [] => [(key, f init)]
  | (k, a) :: rest =>
    if k = key then (k, f a) :: rest else (k, a) :: modifyEntry key init f rest

/-- The series a name counts in. The last place is for `other`. -/
def keyFor (m : SeriesMap α) (limit : Nat) (other name : String) : String :=
  if m.containsKey name || name == other || m.length < limit - 1 then name else other

def total (read : α → Nat) (m : SeriesMap α) : Nat := (m.map fun entry => read entry.2).sum

theorem containsKey_modifyEntry :
    (m.modifyEntry key init f).containsKey name = (m.containsKey name || key == name) := by
  fun_induction modifyEntry key init f m with grind [containsKey]

theorem containsKey_eq : m.containsKey key = (m.lookup key).isSome := by
  induction m with
  | nil => rfl
  | cons entry m ih => grind [containsKey]

theorem lookup_modifyEntry : (m.modifyEntry key init f).lookup name =
    if name = key then some (f ((m.lookup key).getD init)) else m.lookup name := by
  fun_induction modifyEntry key init f m with grind

theorem length_modifyEntry : (m.modifyEntry key init f).length =
    if m.containsKey key then m.length else m.length + 1 := by
  fun_induction modifyEntry key init f m with grind [containsKey]

theorem total_modifyEntry {read : α → Nat} (hin : read init = 0)
    (hf : ∀ a, read (f a) = read a + n) :
    (m.modifyEntry key init f).total read = m.total read + n := by
  fun_induction modifyEntry key init f m with grind [total]

/-- An update of a name with a series of its own changes that series and no other. -/
theorem lookup_update (h : m.containsKey name = true) :
    (m.modifyEntry (m.keyFor limit other name) init f).lookup key =
      (m.lookup key).map fun a => if key = name then f a else a := by
  have hso := h
  rw [containsKey_eq, Option.isSome_iff_exists] at hso
  obtain ⟨a, ha⟩ := hso
  rw [show m.keyFor limit other name = name by simp [keyFor, h], lookup_modifyEntry]
  by_cases hkey : key = name
  · simp [hkey, ha]
  · simp [hkey]

/-- An update: some series counts `n i` more of each `i`. -/
inductive Adds (limit : Nat) (other : String) (read : ι → α → Nat) (n : ι → Nat)
    (m : SeriesMap α) : SeriesMap α → Prop
  | none (h : ∀ i, n i = 0) : Adds limit other read n m m
  | entry (name : String) (init : α) (f : α → α) (hin : ∀ i, read i init = 0)
      (hf : ∀ i a, read i (f a) = read i a + n i) :
      Adds limit other read n m (m.modifyEntry (m.keyFor limit other name) init f)

/-- The table keeps its last place for `other` and counts `sum i` of each `i`. -/
structure Keeps (limit : Nat) (other : String) (read : ι → α → Nat) (sum : ι → Nat)
    (m : SeriesMap α) : Prop where
  bounded : m.length < limit ∨ m.length = limit ∧ m.containsKey other = true
  total : ∀ i, m.total (read i) = sum i

variable {read : ι → α → Nat} {n sum : ι → Nat}

theorem Keeps.adds (h : Keeps limit other read sum m) (ha : Adds limit other read n m m') :
    Keeps limit other read (fun i => sum i + n i) m' := by
  cases ha with
  | none hn => exact ⟨h.bounded, fun i => by rw [hn, h.total, Nat.add_zero]⟩
  | entry name init f hin hf =>
    refine ⟨?_, fun i => by rw [total_modifyEntry (hin i) (hf i), h.total]⟩
    grind [h.bounded, length_modifyEntry, containsKey_modifyEntry, keyFor]

theorem Adds.containsKey (ha : Adds limit other read n m m') (h : m.containsKey name = true) :
    m'.containsKey name = true := by
  cases ha <;> simp [containsKey_modifyEntry, h]

end SeriesMap

/-! ## Counters -/

def maxUserMetricSeries : Nat := 128

def maxFailureReasonSeries : Nat := 32

def otherUser : String := "other"

def otherFailureReason : String := "other"

structure UserMetricsSnapshot where
  user : String
  handshakeSuccess : Nat := 0
  streamOpened : Nat := 0
  bytesClientToRemote : Nat := 0
  bytesRemoteToClient : Nat := 0

structure Metrics where
  activePhysicalConnections : Nat := 0
  activeStreams : Nat := 0
  acceptedConnections : Nat := 0
  handshakeSuccess : Nat := 0
  handshakeFailure : Nat := 0
  streamOpened : Nat := 0
  streamFailed : Nat := 0
  egressDenied : Nat := 0
  sessionRotations : Nat := 0
  keyUpdates : Nat := 0
  bytesClientToRemote : Nat := 0
  bytesRemoteToClient : Nat := 0
  users : SeriesMap UserMetricsSnapshot := []
  streamFailureReasons : SeriesMap Nat := []

def sanitizeReason (reason : String) : String :=
  let chars := reason.toList.map fun ch =>
    if ch.isAlphanum || ch == '_' || ch == '-' then ch else '_'
  .ofList (chars.take 64)

namespace Metrics

def incStreamFailed (m : Metrics) : Metrics := { m with streamFailed := m.streamFailed + 1 }

def incStreamFailedReason (m : Metrics) (reason : String) : Metrics :=
  let reasons := m.streamFailureReasons
  let key := reasons.keyFor maxFailureReasonSeries otherFailureReason (sanitizeReason reason)
  { m.incStreamFailed with streamFailureReasons := reasons.modifyEntry key 0 (· + 1) }

def withUser (m : Metrics) (user : String) (f : UserMetricsSnapshot → UserMetricsSnapshot) :
    Metrics :=
  let key := m.users.keyFor maxUserMetricSeries otherUser user
  { m with users := m.users.modifyEntry key { user := key } f }

def incUserHandshakeSuccess (m : Metrics) (user : String) : Metrics :=
  m.withUser user fun entry => { entry with handshakeSuccess := entry.handshakeSuccess + 1 }

def incUserStreamOpened (m : Metrics) (user : String) : Metrics :=
  m.withUser user fun entry => { entry with streamOpened := entry.streamOpened + 1 }

def addUserTunnelBytes (m : Metrics) (user : String) (clientToRemote remoteToClient : Nat) :
    Metrics :=
  m.withUser user fun entry => { entry with
    bytesClientToRemote := entry.bytesClientToRemote + clientToRemote
    bytesRemoteToClient := entry.bytesRemoteToClient + remoteToClient }

inductive Update where
  | userHandshakeSuccess (user : String)
  | userStreamOpened (user : String)
  | userTunnelBytes (user : String) (clientToRemote remoteToClient : Nat)
  | streamFailedReason (reason : String)

def update (m : Metrics) : Update → Metrics
  | .userHandshakeSuccess user => m.incUserHandshakeSuccess user
  | .userStreamOpened user => m.incUserStreamOpened user
  | .userTunnelBytes user clientToRemote remoteToClient =>
    m.addUserTunnelBytes user clientToRemote remoteToClient
  | .streamFailedReason reason => m.incStreamFailedReason reason

def run (m : Metrics) (updates : List Update) : Metrics := updates.foldl update m

inductive UserCounter where
  | handshakeSuccess
  | streamOpened
  | bytesClientToRemote
  | bytesRemoteToClient

namespace UserCounter

def read : UserCounter → UserMetricsSnapshot → Nat
  | .handshakeSuccess => (·.handshakeSuccess)
  | .streamOpened => (·.streamOpened)
  | .bytesClientToRemote => (·.bytesClientToRemote)
  | .bytesRemoteToClient => (·.bytesRemoteToClient)

def added : UserCounter → Update → Nat
  | .handshakeSuccess, .userHandshakeSuccess _ => 1
  | .streamOpened, .userStreamOpened _ => 1
  | .bytesClientToRemote, .userTunnelBytes _ clientToRemote _ => clientToRemote
  | .bytesRemoteToClient, .userTunnelBytes _ _ remoteToClient => remoteToClient
  | _, _ => 0

end UserCounter

def Update.user? : Update → Option String
  | .userHandshakeSuccess user | .userStreamOpened user | .userTunnelBytes user _ _ => some user
  | .streamFailedReason _ => none

def Update.failures : Update → Nat
  | .streamFailedReason _ => 1
  | _ => 0

theorem users_adds (m : Metrics) (u : Update) :
    m.users.Adds maxUserMetricSeries otherUser UserCounter.read (·.added u) (m.update u).users := by
  cases u with
  | streamFailedReason => exact .none fun c => by cases c <;> rfl
  | _ => exact .entry _ _ _ (fun c => by cases c <;> rfl) fun c _ => by cases c <;> rfl

theorem reasons_adds (m : Metrics) (u : Update) :
    m.streamFailureReasons.Adds maxFailureReasonSeries otherFailureReason (fun (_ : Unit) => id)
      (fun _ => u.failures) (m.update u).streamFailureReasons := by
  cases u with
  | streamFailedReason => exact .entry _ _ _ (fun _ => rfl) fun _ _ => rfl
  | _ => exact .none fun _ => rfl

theorem keeps_run (updates : List Update) :
    (run {} updates).users.Keeps maxUserMetricSeries otherUser UserCounter.read
      (fun c => (updates.map c.added).sum) ∧
    (run {} updates).streamFailureReasons.Keeps maxFailureReasonSeries otherFailureReason
      (fun (_ : Unit) => id) fun _ => (updates.map Update.failures).sum := by
  induction updates using List.reverseRecOn with
  | nil => exact ⟨⟨.inl (by decide), fun _ => rfl⟩, .inl (by decide), fun _ => rfl⟩
  | append_singleton updates u ih =>
    simp only [run, foldl_append, map_append, sum_append, map_cons, map_nil, sum_cons, sum_nil]
    exact ⟨ih.1.adds (users_adds _ u), ih.2.adds (reasons_adds _ u)⟩

theorem containsKey_run (m : Metrics) (updates : List Update) (name : String) :
    (m.users.containsKey name → (m.run updates).users.containsKey name) ∧
    (m.streamFailureReasons.containsKey name →
      (m.run updates).streamFailureReasons.containsKey name) := by
  induction updates generalizing m with
  | nil => exact ⟨id, id⟩
  | cons u updates ih =>
    have hre := ih (m.update u)
    exact ⟨hre.1 ∘ (users_adds m u).containsKey, hre.2 ∘ (reasons_adds m u).containsKey⟩

theorem lookup_users {m : Metrics} {u : Update} (hu : u.user? = some name)
    (h : m.users.containsKey name = true) (c : UserCounter) :
      ((m.update u).users.lookup key).map c.read =
      (m.users.lookup key).map fun a => c.read a + if key = name then c.added u else 0 := by
  cases u with
  | streamFailedReason => contradiction
  | _ =>
    obtain rfl := Option.some.inj hu
    simp only [update, incUserHandshakeSuccess, incUserStreamOpened, addUserTunnelBytes, withUser,
      SeriesMap.lookup_update h, Option.map_map]
    congr 1
    funext a
    simp only [Function.comp_apply]
    split <;> cases c <;> rfl

/-- **Series are bounded and nothing is lost**: after any updates the tables keep
to their limits, each counter adds up to what was counted, and a later update of a
name with a series of its own adds to that series and leaves all others. -/
theorem series_bounded_and_summed (updates : List Update) :
    (run {} updates).users.length ≤ maxUserMetricSeries ∧
    (run {} updates).streamFailureReasons.length ≤ maxFailureReasonSeries ∧
    (∀ c : UserCounter, (run {} updates).users.total c.read = (updates.map c.added).sum) ∧
    (run {} updates).streamFailureReasons.total id = (updates.map Update.failures).sum ∧
    ∀ later u, let m := run {} (updates ++ later)
      (∀ name, u.user? = some name → (run {} updates).users.containsKey name →
        (m.users.lookup name).isSome ∧ ∀ key (c : UserCounter),
          ((m.update u).users.lookup key).map c.read =
            (m.users.lookup key).map fun a => c.read a + if key = name then c.added u else 0) ∧
      ∀ reason, u = .streamFailedReason reason →
        (run {} updates).streamFailureReasons.containsKey (sanitizeReason reason) →
          (m.streamFailureReasons.lookup (sanitizeReason reason)).isSome ∧ ∀ key,
            (m.update u).streamFailureReasons.lookup key =
              (m.streamFailureReasons.lookup key).map
                (· + if key = sanitizeReason reason then 1 else 0) := by
  obtain ⟨hu, hr⟩ := keeps_run updates
  refine ⟨by have := hu.bounded; omega, by have := hr.bounded; omega, hu.total, hr.total (),
    fun later u => ?_⟩
  have hky := containsKey_run (run {} updates) later
  rw [show run {} (updates ++ later) = (run {} updates).run later from foldl_append]
  refine ⟨fun name hna h => ?_, ?_⟩
  · have hk := (hky name).1 h
    exact ⟨SeriesMap.containsKey_eq ▸ hk, fun key c => lookup_users hna hk c⟩
  · rintro reason rfl h
    have hk := (hky _).2 h
    refine ⟨SeriesMap.containsKey_eq ▸ hk, fun key => ?_⟩
    rw [update, incStreamFailedReason, SeriesMap.lookup_update hk]
    congr 1
    funext n
    split <;> rfl

end Metrics

end Espejismo
