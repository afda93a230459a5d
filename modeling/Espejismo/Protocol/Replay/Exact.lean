import Mathlib.Data.Finset.Lattice.Lemmas
import Mathlib.Data.List.Induction
import Espejismo.Protocol.Replay

/-!
# Protocol.Replay.Exact

What the replay cache guarantees over whole call histories.  The layers:

* `Inv` — the set and the queue hold the same identifiers, none twice, and the
  queue is sorted by stored time; every call keeps it;
* `mem_seen_prune` — with `Inv`, pruning from the front is exact: an
  identifier survives exactly when its stored time is within the time to live.
-/

namespace Espejismo

open Binary List

namespace ReplayCache

/-! ## The expiry test -/

/-- **The expiry test is exact**: with a time to live that is not negative it
compares mathematical integers, although the subtraction may overflow. -/
theorem expired_iff (now t : Int64) (h : 0 ≤ ttl.toInt) :
    expired ttl now t = true ↔ ttl.toInt < now.toInt - t.toInt := by
  have hn := inI64_toInt now
  have ht := inI64_toInt t
  have htt := inI64_toInt ttl
  unfold InI64 at hn ht htt
  unfold expired
  cases hs : checkedSubI64 now t with
  | none =>
    have hov := checkedSubI64_eq_none.mp hs
    unfold InI64 at hov
    simp only [Bool.and_true, decide_eq_true_eq, Int64.le_iff_toInt_le]
    omega
  | some =>
    have hag := checkedSubI64_eq_some hs
    simp only [Bool.and_eq_true, decide_eq_true_eq, Int64.le_iff_toInt_le, Int64.lt_iff_toInt_lt]
    omega

/-! ## The invariant -/

def keysOf (order : List (Int64 × ReplayKey)) : List ReplayKey := order.map Prod.snd

/-- The set mirrors the queue, no identifier is queued twice, and the stored
times do not decrease. -/
structure Inv (c : ReplayCache) : Prop where
  ttl_nonneg : 0 ≤ c.ttlSecs.toInt
  seen_eq : c.seen = (keysOf c.order).toFinset
  nodup : (keysOf c.order).Nodup
  sorted : c.order.Pairwise fun a b => a.1 ≤ b.1

theorem toInt_ttlSecs_new (ttl : Int64) : (new ttl).ttlSecs.toInt = max ttl.toInt 0 :=
  toInt_max ttl 0

theorem inv_new (ttl : Int64) : (new ttl).Inv where
  ttl_nonneg := by rw [toInt_ttlSecs_new]; omega
  seen_eq := rfl
  nodup := nodup_nil
  sorted := List.Pairwise.nil

/-! ## Pruning -/

theorem pruneLoop_eq (ttl now : Int64) {order : List (Int64 × ReplayKey)}
    (hno : (keysOf order).Nodup) :
    pruneLoop ttl now order (keysOf order).toFinset =
      (order.dropWhile fun e => expired ttl now e.1,
        (keysOf (order.dropWhile fun e => expired ttl now e.1)).toFinset) := by
  induction order with
  | nil => rfl
  | cons e order ih =>
    obtain ⟨t, key⟩ := e
    obtain ⟨hky, hrs⟩ := nodup_cons.mp hno
    have hes : (keysOf ((t, key) :: order)).toFinset.erase key =
        (keysOf order).toFinset := by
      rw [keysOf, map_cons, toFinset_cons]
      exact Finset.erase_insert (by simpa using hky)
    unfold pruneLoop
    cases hexp : expired ttl now t with
    | true => rw [hes, ih hrs]; simp [hexp]
    | false => rw [if_neg (by simp)]; simp [hexp]

variable {c : ReplayCache}

theorem prune_eq (h : c.Inv) (now : Int64) :
    c.prune now =
      { ttlSecs := c.ttlSecs
        seen := (keysOf (c.order.dropWhile fun e => expired c.ttlSecs now e.1)).toFinset
        order := c.order.dropWhile fun e => expired c.ttlSecs now e.1 } := by
  unfold prune
  rw [h.seen_eq, pruneLoop_eq c.ttlSecs now h.nodup]

@[simp] theorem ttlSecs_prune (c : ReplayCache) (now : Int64) :
    (c.prune now).ttlSecs = c.ttlSecs := rfl

theorem order_prune (h : c.Inv) (now : Int64) :
    (c.prune now).order = c.order.dropWhile fun e => expired c.ttlSecs now e.1 := by
  rw [prune_eq h]

theorem inv_prune (h : c.Inv) (now : Int64) : (c.prune now).Inv := by
  have hs : (c.prune now).order.Sublist c.order := by
    rw [order_prune h]; exact dropWhile_sublist _
  exact
    { ttl_nonneg := h.ttl_nonneg
      seen_eq := by rw [prune_eq h]
      nodup := h.nodup.sublist (hs.map Prod.snd)
      sorted := h.sorted.sublist hs }

/-- **Pruning is exact**: an entry survives exactly when it is within the time
to live at `now`. -/
theorem mem_order_prune (h : c.Inv) (now : Int64) (e : Int64 × ReplayKey) :
    e ∈ (c.prune now).order ↔ e ∈ c.order ∧ now.toInt - e.1.toInt ≤ c.ttlSecs.toInt := by
  -- a later entry is younger, so expiry is downward closed along the queue
  have hdo : ∀ a b : Int64 × ReplayKey, a.1 ≤ b.1 → expired c.ttlSecs now b.1 = true →
      expired c.ttlSecs now a.1 = true := by
    intro a b hab hb
    rw [expired_iff _ _ h.ttl_nonneg] at hb ⊢
    rw [Int64.le_iff_toInt_le] at hab
    omega
  have hexp := expired_iff now e.1 h.ttl_nonneg
  rw [order_prune h, ExpiryQueue.dropWhile_eq_filter hdo h.sorted, mem_filter,
    Bool.not_eq_true', ← Bool.not_eq_true, hexp]
  exact and_congr_right fun _ => Int.not_lt

theorem mem_seen_iff (h : c.Inv) (k : ReplayKey) : k ∈ c.seen ↔ ∃ t, (t, k) ∈ c.order := by
  rw [h.seen_eq, mem_toFinset, keysOf, mem_map]
  exact ⟨fun ⟨e, he, hk⟩ => ⟨e.1, hk ▸ he⟩, fun ⟨t, ht⟩ => ⟨(t, k), ht, rfl⟩⟩

theorem mem_seen_prune (h : c.Inv) (now : Int64) (k : ReplayKey) :
    k ∈ (c.prune now).seen ↔ ∃ t, (t, k) ∈ c.order ∧ now.toInt - t.toInt ≤ c.ttlSecs.toInt := by
  rw [mem_seen_iff (inv_prune h now)]
  exact exists_congr fun t => mem_order_prune h now (t, k)

/-! ## Storing -/

@[simp] theorem ttlSecs_store (c : ReplayCache) (t : Int64) (keys : List ReplayKey) :
    (c.store t keys).ttlSecs = c.ttlSecs := by
  induction keys generalizing c with
  | nil => rfl
  | cons k keys ih => exact ih _

@[simp] theorem order_store (c : ReplayCache) (t : Int64) (keys : List ReplayKey) :
    (c.store t keys).order = c.order ++ keys.map fun k => (t, k) := by
  induction keys generalizing c with
  | nil => simp [store]
  | cons k keys ih =>
    have hco : (c.store t (k :: keys)).order =
        (c.order ++ [(t, k)]) ++ keys.map fun k => (t, k) := ih _
    rw [hco, map_cons, append_assoc, singleton_append]

@[simp] theorem seen_store (c : ReplayCache) (t : Int64) (keys : List ReplayKey) :
    (c.store t keys).seen = c.seen ∪ keys.toFinset := by
  induction keys generalizing c with
  | nil => simp [store]
  | cons k keys ih =>
    have hco : (c.store t (k :: keys)).seen = insert k c.seen ∪ keys.toFinset := ih _
    rw [hco, toFinset_cons, Finset.insert_union, Finset.union_insert]

theorem inv_store (h : c.Inv) (hno : ks.Nodup)
    (hfr : ∀ k ∈ ks, k ∉ c.seen) (hla : ∀ e ∈ c.order, e.1 ≤ t) : (c.store t ks).Inv := by
  have hke : keysOf (c.store t ks).order = keysOf c.order ++ ks := by
    simp [keysOf]
  refine ⟨by simpa using h.ttl_nonneg, ?_, ?_, ?_⟩
  · rw [hke, seen_store, h.seen_eq, toFinset_append]
  · rw [hke, nodup_append']
    refine ⟨h.nodup, hno, ?_⟩
    intro k hk hk'
    exact hfr k hk' (by rw [h.seen_eq]; exact mem_toFinset.mpr hk)
  · rw [order_store, pairwise_append]
    refine ⟨h.sorted, ?_, ?_⟩
    · rw [pairwise_map]
      exact pairwise_iff_forall_sublist.mpr fun _ => Int64.le_refl t
    · intro e he e' he'
      obtain ⟨k, -, rfl⟩ := mem_map.mp he'
      exact hla e he

theorem insertionTime_cases (c : ReplayCache) (now : Int64) :
    c.insertionTime now = now ∨ ∃ e ∈ c.order, c.insertionTime now = e.1 := by
  unfold insertionTime
  cases hla : c.order.getLast? with
  | none => exact .inl rfl
  | some e =>
    change (if now ≤ e.1 then e.1 else now) = now ∨
      ∃ e' ∈ c.order, (if now ≤ e.1 then e.1 else now) = e'.1
    by_cases hle : now ≤ e.1
    · rw [if_pos hle]; exact .inr ⟨e, mem_of_getLast? hla, rfl⟩
    · rw [if_neg hle]; exact .inl rfl

theorem le_insertionTime (c : ReplayCache) (now : Int64) : now ≤ c.insertionTime now := by
  unfold insertionTime
  cases c.order.getLast? with
  | none => exact Int64.le_refl now
  | some =>
    rw [Int64.le_iff_toInt_le, toInt_max]
    omega

theorem le_insertionTime_of_mem (h : c.Inv) (now : Int64) :
    ∀ e ∈ c.order, e.1 ≤ c.insertionTime now := by
  intro e he
  unfold insertionTime
  cases hla : c.order.getLast? with
  | none => rw [getLast?_eq_none_iff.mp hla] at he; exact absurd he (by simp)
  | some =>
    have hle := ExpiryQueue.before_getLast (fun a => Int64.le_refl a.1) h.sorted hla e he
    rw [Int64.le_iff_toInt_le] at hle ⊢
    rw [toInt_max]
    omega

end ReplayCache

/-! ## Calls -/

inductive ReplayCall where
  | ephemeral (now : Int64) (key : Bytes 32)
  | firstPacket (now : Int64) (digest : Bytes 32)
  | handshake (now : Int64) (digest key : Bytes 32)

namespace ReplayCall

def now : ReplayCall → Int64
  | .ephemeral now _ | .firstPacket now _ | .handshake now _ _ => now

def keys : ReplayCall → List ReplayKey
  | .ephemeral _ key => [.ephemeralPublicKey key]
  | .firstPacket _ digest => [.firstPacketDigest digest]
  | .handshake _ digest key => [.firstPacketDigest digest, .ephemeralPublicKey key]

def exec : ReplayCall → EStateM Error ReplayCache Unit
  | .ephemeral now key => ReplayCache.checkAndInsert now key
  | .firstPacket now digest => ReplayCache.checkAndInsertFirstPacketDigest now digest
  | .handshake now digest key => ReplayCache.checkAndInsertHandshake now digest key

def after (c : ReplayCache) (x : ReplayCall) : ReplayCache :=
  match x.exec.run c with
  | .ok _ c' => c'
  | .error _ c' => c'

def Rejected (c : ReplayCache) (x : ReplayCall) : Prop := ∃ e c', x.exec.run c = .error e c'

def replayText : ReplayKey → String
  | .ephemeralPublicKey _ => "replayed ephemeral public key"
  | .firstPacketDigest _ => "replayed first packet digest"

theorem nodup_keys (x : ReplayCall) : x.keys.Nodup := by
  cases x <;> simp [keys]

/-- **One equation for every call**: prune, refuse the first identifier that
is still there, or store all of them at one time. -/
theorem run_exec (c : ReplayCache) (x : ReplayCall) :
    x.exec.run c =
      match x.keys.find? (· ∈ (c.prune x.now).seen) with
      | some k => .error (.msg (replayText k)) (c.prune x.now)
      | none => .ok () ((c.prune x.now).store ((c.prune x.now).insertionTime x.now) x.keys) := by
  cases x with
  | ephemeral now key =>
    by_cases hk : ReplayKey.ephemeralPublicKey key ∈ (c.prune now).seen <;>
      simp [exec, keys, ReplayCall.now, ReplayCache.checkAndInsert, replayText,
        ReplayCache.checkAndInsertEphemeralPublicKey, ReplayCache.checkAndInsertKey, hk]
  | firstPacket now digest =>
    by_cases hd : ReplayKey.firstPacketDigest digest ∈ (c.prune now).seen <;>
      simp [exec, keys, ReplayCall.now, replayText,
        ReplayCache.checkAndInsertFirstPacketDigest, ReplayCache.checkAndInsertKey, hd]
  | handshake now digest key =>
    by_cases hd : ReplayKey.firstPacketDigest digest ∈ (c.prune now).seen <;>
      by_cases hk : ReplayKey.ephemeralPublicKey key ∈ (c.prune now).seen <;>
        simp [exec, keys, ReplayCall.now, replayText, ReplayCache.checkAndInsertHandshake, hd, hk]

theorem rejected_iff (c : ReplayCache) (x : ReplayCall) :
    x.Rejected c ↔ ∃ k ∈ x.keys, k ∈ (c.prune x.now).seen := by
  unfold Rejected
  rw [run_exec]
  cases hf : x.keys.find? (· ∈ (c.prune x.now).seen) with
  | some k =>
    have hm : k ∈ (c.prune x.now).seen := by simpa using find?_some hf
    exact ⟨fun _ => ⟨k, mem_of_find?_eq_some hf, hm⟩, fun _ => ⟨_, _, rfl⟩⟩
  | none =>
    rw [find?_eq_none] at hf
    refine ⟨fun ⟨e, c', h⟩ => by simp at h, fun ⟨k, hk, hse⟩ => ?_⟩
    exact absurd (decide_eq_true hse) (hf k hk)

variable {c : ReplayCache} {x : ReplayCall}

theorem after_of_rejected (h : x.Rejected c) : x.after c = c.prune x.now := by
  obtain ⟨e, c', hru⟩ := h
  have hsp := run_exec c x
  unfold after
  rw [hru] at hsp ⊢
  cases hf : x.keys.find? (· ∈ (c.prune x.now).seen) with
  | some => rw [hf] at hsp; exact (EStateM.Result.error.inj hsp).2
  | none => rw [hf] at hsp; simp at hsp

theorem after_of_accepted (h : ¬ x.Rejected c) :
    x.after c = (c.prune x.now).store ((c.prune x.now).insertionTime x.now) x.keys := by
  have hnn : x.keys.find? (· ∈ (c.prune x.now).seen) = none := by
    rw [find?_eq_none]
    intro k hk hm
    exact h ((rejected_iff c x).mpr ⟨k, hk, by simpa using hm⟩)
  unfold after
  rw [run_exec, hnn]

@[simp] theorem ttlSecs_after (c : ReplayCache) (x : ReplayCall) :
    (x.after c).ttlSecs = c.ttlSecs := by
  by_cases h : x.Rejected c
  · rw [after_of_rejected h]; rfl
  · rw [after_of_accepted h]; simp

/-- **Every call keeps the invariant.** -/
theorem inv_after (h : c.Inv) (x : ReplayCall) : (x.after c).Inv := by
  have hpr := ReplayCache.inv_prune h x.now
  by_cases hr : x.Rejected c
  · rw [after_of_rejected hr]; exact hpr
  rw [after_of_accepted hr]
  refine ReplayCache.inv_store hpr x.nodup_keys ?_ (ReplayCache.le_insertionTime_of_mem hpr x.now)
  intro k hk hse
  exact hr ((rejected_iff c x).mpr ⟨k, hk, hse⟩)

theorem mem_order_after (h : c.Inv) (x : ReplayCall) (he : e ∈ c.order)
    (hl : x.now.toInt - e.1.toInt ≤ c.ttlSecs.toInt) : e ∈ (x.after c).order := by
  have hm := (ReplayCache.mem_order_prune h x.now e).mpr ⟨he, hl⟩
  by_cases hr : x.Rejected c
  · rw [after_of_rejected hr]; exact hm
  · rw [after_of_accepted hr, ReplayCache.order_store]
    exact mem_append_left _ hm

theorem mem_order_after_cases (he : e ∈ (x.after c).order) :
    e ∈ (c.prune x.now).order ∨
      ¬ x.Rejected c ∧ e.2 ∈ x.keys ∧ e.1 = (c.prune x.now).insertionTime x.now := by
  by_cases hr : x.Rejected c
  · rw [after_of_rejected hr] at he; exact .inl he
  rw [after_of_accepted hr, ReplayCache.order_store, mem_append] at he
  rcases he with he | he
  · exact .inl he
  · obtain ⟨k, hk, rfl⟩ := mem_map.mp he
    exact .inr ⟨hr, hk, rfl⟩

end ReplayCall

/-! ## Histories -/

def replayAfter (ttl : Int64) (calls : List ReplayCall) : ReplayCache :=
  calls.foldl ReplayCall.after (ReplayCache.new ttl)

theorem replayAfter_append (ttl : Int64) (p q : List ReplayCall) :
    replayAfter ttl (p ++ q) = q.foldl ReplayCall.after (replayAfter ttl p) :=
  foldl_append

theorem inv_foldl (h : c.Inv) (calls : List ReplayCall) :
    (calls.foldl ReplayCall.after c).Inv :=
  List.foldlRecOn calls ReplayCall.after h fun _ hb x _ => ReplayCall.inv_after hb x

theorem inv_replayAfter (ttl : Int64) (calls : List ReplayCall) : (replayAfter ttl calls).Inv :=
  inv_foldl (ReplayCache.inv_new ttl) calls

theorem ttlSecs_foldl (c : ReplayCache) (calls : List ReplayCall) :
    (calls.foldl ReplayCall.after c).ttlSecs = c.ttlSecs :=
  List.foldlRecOn calls ReplayCall.after (motive := fun b => b.ttlSecs = c.ttlSecs) rfl
    fun b hb x _ => (ReplayCall.ttlSecs_after b x).trans hb

theorem toInt_ttlSecs_replayAfter (ttl : Int64) (calls : List ReplayCall) :
    (replayAfter ttl calls).ttlSecs.toInt = max ttl.toInt 0 := by
  rw [replayAfter, ttlSecs_foldl, ReplayCache.toInt_ttlSecs_new]

variable {e : Int64 × ReplayKey}

/-- **Entries persist**: an entry stays while no call's clock has left its
time to live. -/
theorem mem_order_foldl (h : c.Inv) (he : e ∈ c.order) (calls : List ReplayCall)
    (hl : ∀ z ∈ calls, z.now.toInt - e.1.toInt ≤ c.ttlSecs.toInt) :
    e ∈ (calls.foldl ReplayCall.after c).order := by
  induction calls generalizing c with
  | nil => exact he
  | cons z calls ih =>
    refine ih (ReplayCall.inv_after h z) ?_ ?_
    · exact ReplayCall.mem_order_after h z he (hl z mem_cons_self)
    · intro z' hz'
      rw [ReplayCall.ttlSecs_after]
      exact hl z' (mem_cons_of_mem z hz')

/-- **Entries have an origin**: what is queued was stored by an accepted call. -/
theorem exists_origin (ttl : Int64) (calls : List ReplayCall)
    (he : e ∈ (replayAfter ttl calls).order) :
    ∃ p x q, calls = p ++ x :: q ∧ ¬ x.Rejected (replayAfter ttl p) ∧ e.2 ∈ x.keys ∧
      e.1 = ((replayAfter ttl p).prune x.now).insertionTime x.now := by
  -- the last call either stored the entry or found it, so peel calls off the end
  induction calls using List.reverseRecOn with
  | nil => exact absurd he (by simp [replayAfter, ReplayCache.new])
  | append_singleton calls y ih =>
    rw [replayAfter_append] at he
    rcases ReplayCall.mem_order_after_cases he with hold | ⟨ha, hky, hti⟩
    · have hi := inv_replayAfter ttl calls
      obtain ⟨p, x, q, rfl, hx⟩ := ih ((ReplayCache.mem_order_prune hi _ e).mp hold).1
      exact ⟨p, x, q ++ [y], by simp, hx⟩
    · exact ⟨calls, y, [], rfl, ha, hky, hti⟩

theorem exists_now_ge (ttl : Int64) (calls : List ReplayCall)
    (he : e ∈ (replayAfter ttl calls).order) : ∃ z ∈ calls, e.1 ≤ z.now := by
  induction calls using List.reverseRecOn generalizing e with
  | nil => exact absurd he (by simp [replayAfter, ReplayCache.new])
  | append_singleton calls y ih =>
    have hi := inv_replayAfter ttl calls
    rw [replayAfter_append] at he
    have hold : ∀ e' ∈ ((replayAfter ttl calls).prune y.now).order,
        ∃ z ∈ calls ++ [y], e'.1 ≤ z.now := by
      intro e' he'
      obtain ⟨z, hz, hle⟩ := ih ((ReplayCache.mem_order_prune hi _ e').mp he').1
      exact ⟨z, mem_append_left _ hz, hle⟩
    rcases ReplayCall.mem_order_after_cases he with hm | ⟨-, -, hti⟩
    · exact hold e hm
    rw [hti]
    rcases ReplayCache.insertionTime_cases ((replayAfter ttl calls).prune y.now) y.now with
      hn | ⟨e', he', heq⟩
    · exact ⟨y, by simp, by rw [hn]; exact Int64.le_refl _⟩
    · rw [heq]; exact hold e' he'

theorem insertionTime_of_monotone (ttl : Int64) (calls : List ReplayCall) (x : ReplayCall)
    (hcl : ∀ z ∈ calls, z.now ≤ x.now) :
    ((replayAfter ttl calls).prune x.now).insertionTime x.now = x.now := by
  rcases ReplayCache.insertionTime_cases ((replayAfter ttl calls).prune x.now) x.now with
    hn | ⟨e, he, heq⟩
  · exact hn
  have hi := inv_replayAfter ttl calls
  obtain ⟨z, hz, hle⟩ := exists_now_ge ttl calls ((ReplayCache.mem_order_prune hi _ e).mp he).1
  have hge := ReplayCache.le_insertionTime ((replayAfter ttl calls).prune x.now) x.now
  have hup : e.1 ≤ x.now := Int64.le_trans hle (hcl z hz)
  rw [heq] at hge ⊢
  exact Int64.le_antisymm hup hge

/-- **Refusal while live**: an accepted identifier is refused until some call's
clock has left its time to live. -/
theorem rejected_of_live (ttl : Int64) (calls later : List ReplayCall) (x y : ReplayCall)
    (ht : (t, k) ∈ (x.after (replayAfter ttl calls)).order) (hy : k ∈ y.keys)
    (hl : ∀ z ∈ later ++ [y], z.now.toInt - t.toInt ≤ max ttl.toInt 0) :
    y.Rejected (replayAfter ttl (calls ++ x :: later)) := by
  have hi := inv_replayAfter ttl (calls ++ [x])
  have htx : (t, k) ∈ (replayAfter ttl (calls ++ [x])).order := by
    rw [replayAfter_append]; exact ht
  rw [← toInt_ttlSecs_replayAfter ttl (calls ++ [x])] at hl
  have hkp : (t, k) ∈ (replayAfter ttl (calls ++ x :: later)).order := by
    rw [append_cons, replayAfter_append]
    exact mem_order_foldl hi htx later fun z hz => hl z (mem_append_left _ hz)
  rw [ReplayCall.rejected_iff]
  refine ⟨k, hy, (ReplayCache.mem_seen_prune (inv_replayAfter ttl _) _ k).mpr ⟨t, hkp, ?_⟩⟩
  rw [toInt_ttlSecs_replayAfter, ← toInt_ttlSecs_replayAfter ttl (calls ++ [x])]
  exact hl y (by simp)

/-- **The cache is exact and atomic**, after every history of calls with arbitrary
clock values: the set is the set of queued identifiers; the queue repeats none and is
sorted by stored time; the expiry test agrees with integer arithmetic; a refused call
adds nothing and an accepted one exactly its identifiers, of which a digest is never a
public key; an identifier stored at `t` is refused until some clock value is more than
the time to live past `t`; and when the clock does not go back, a call is refused
exactly when one of its identifiers was accepted within the time to live. -/
theorem replayCache_exact (ttl : Int64) (calls : List ReplayCall) :
    let c := replayAfter ttl calls
    c.seen = (ReplayCache.keysOf c.order).toFinset ∧
    (ReplayCache.keysOf c.order).Nodup ∧
    c.order.Pairwise (fun a b => a.1 ≤ b.1) ∧
    (∀ now t, ReplayCache.expired c.ttlSecs now t = true ↔ max ttl.toInt 0 < now.toInt - t.toInt) ∧
    (∀ x : ReplayCall, x.Rejected c →
      (∀ e ∈ (x.after c).order, e ∈ c.order) ∧ (x.after c).seen ⊆ c.seen) ∧
    (∀ x : ReplayCall, ¬ x.Rejected c → (x.after c).seen = (c.prune x.now).seen ∪ x.keys.toFinset) ∧
    (∀ d k : Bytes 32, ReplayKey.firstPacketDigest d ≠ .ephemeralPublicKey k) ∧
    (∀ (x y : ReplayCall) (later : List ReplayCall) (k : ReplayKey) (t : Int64),
      ¬ x.Rejected c → k ∈ x.keys → (t, k) ∈ (x.after c).order → k ∈ y.keys →
      (∀ z ∈ later ++ [y], z.now.toInt - t.toInt ≤ max ttl.toInt 0) →
      y.Rejected (replayAfter ttl (calls ++ x :: later))) ∧
    (∀ y : ReplayCall, (calls ++ [y]).Pairwise (fun a b => a.now ≤ b.now) →
      (y.Rejected c ↔ ∃ p x q k, calls = p ++ x :: q ∧ ¬ x.Rejected (replayAfter ttl p) ∧
        k ∈ x.keys ∧ k ∈ y.keys ∧ y.now.toInt - x.now.toInt ≤ max ttl.toInt 0)) := by
  intro c
  have hi : c.Inv := inv_replayAfter ttl calls
  have htt : c.ttlSecs.toInt = max ttl.toInt 0 := toInt_ttlSecs_replayAfter ttl calls
  refine ⟨hi.seen_eq, hi.nodup, hi.sorted, ?_, ?_, ?_, ?_, ?_, ?_⟩
  · intro now t
    rw [ReplayCache.expired_iff _ _ hi.ttl_nonneg, htt]
  · intro x hx
    rw [ReplayCall.after_of_rejected hx]
    refine ⟨fun e he => ((ReplayCache.mem_order_prune hi _ e).mp he).1, fun k hk => ?_⟩
    obtain ⟨t, ht, -⟩ := (ReplayCache.mem_seen_prune hi _ k).mp hk
    exact (ReplayCache.mem_seen_iff hi k).mpr ⟨t, ht⟩
  · intro x hx
    rw [ReplayCall.after_of_accepted hx, ReplayCache.seen_store]
  · intro d k
    exact ReplayKey.noConfusion
  · intro x y later k t _ _ ht hy hl
    exact rejected_of_live ttl calls later x y ht hy hl
  · intro y hcl
    obtain ⟨hca, -, hla⟩ := pairwise_append.mp hcl
    constructor
    · intro hr
      obtain ⟨k, hy, hse⟩ := (ReplayCall.rejected_iff c y).mp hr
      obtain ⟨t, ht, hag⟩ := (ReplayCache.mem_seen_prune hi _ k).mp hse
      obtain ⟨p, x, q, heq, ha, hx, hti⟩ := exists_origin ttl calls ht
      subst heq
      have hpx : ∀ z ∈ p, z.now ≤ x.now := fun z hz =>
        (pairwise_append.mp hca).2.2 z hz x mem_cons_self
      rw [insertionTime_of_monotone ttl p x hpx] at hti
      simp only at hti
      rw [hti, htt] at hag
      exact ⟨p, x, q, k, rfl, ha, hx, hy, hag⟩
    · rintro ⟨p, x, q, k, rfl, ha, hx, hy, hag⟩
      have hpx : ∀ z ∈ p, z.now ≤ x.now := fun z hz =>
        (pairwise_append.mp hca).2.2 z hz x mem_cons_self
      have hst : (x.now, k) ∈ (x.after (replayAfter ttl p)).order := by
        rw [ReplayCall.after_of_accepted ha, insertionTime_of_monotone ttl p x hpx,
          ReplayCache.order_store]
        exact mem_append_right _ (mem_map.mpr ⟨k, hx, rfl⟩)
      refine rejected_of_live ttl p q x y hst hy ?_
      intro z hz
      have hzy : z.now.toInt ≤ y.now.toInt := by
        rcases mem_append.mp hz with hz | hz
        · exact Int64.le_iff_toInt_le.mp (hla z (by simp [hz]) y (mem_singleton_self y))
        · rw [mem_singleton.mp hz]
      omega

end Espejismo
