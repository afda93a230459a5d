import Mathlib.Data.List.Nodup
import Espejismo.Data.Machine
import Espejismo.Dns

/-!
# Dns.History

Any calls of the cache, at times that do not go back, beside what a cache without
bound and without expiry would keep: the latest insert of each authority, and
whether it had to go.
-/

namespace Espejismo.DnsCache

open Net List

variable {l : List DnsEntry} {e : DnsEntry}

/-- What `insert_with_ttl` was given for an authority, and whether the entry was
evicted since. -/
structure Insert where
  addrs : List SocketAddr
  now : Nat
  ttl : Nat
  evicted : Bool := false

def Insert.entry (i : Insert) (authority : List Char) : DnsEntry :=
  { authority, addrs := i.addrs, expires := i.now + min i.ttl dnsCacheTtl }

/-- A live entry of another authority that the insert dropped. -/
def evicts (before after : DnsCache) (authority : List Char) (now : Nat) (e : DnsEntry) : Bool :=
  e ∈ before.entries ∧ now < e.expires ∧ e.authority ≠ authority ∧ e ∉ after.entries

structure History where
  cache : DnsCache := {}
  clock : Nat := 0
  latest : List Char → Option Insert := fun _ => none

namespace History

inductive Call where
  | get (authority : List Char) (now : Nat)
  | insertWithTtl (authority : List Char) (addrs : List SocketAddr) (now ttl : Nat)
  | reorder (entries : List DnsEntry)

def inserted (s : History) (authority : List Char) (addrs : List SocketAddr) (now ttl : Nat) :
    History :=
  let cache := s.cache.insertWithTtl authority addrs now ttl
  { cache, clock := now
    latest := fun other =>
      if other = authority then some { addrs, now, ttl }
      else (s.latest other).map fun i =>
        { i with evicted := i.evicted || evicts s.cache cache authority now (i.entry other) } }

def step (s : History) : Call → Option History
  | .get authority now =>
    if s.clock ≤ now then some { s with cache := (s.cache.get authority now).2, clock := now }
    else none
  | .insertWithTtl authority addrs now ttl =>
    if s.clock ≤ now then some (s.inserted authority addrs now ttl) else none
  | .reorder entries =>
    if entries.Perm s.cache.entries then some { s with cache := ⟨entries⟩ } else none

end History

theorem eq_nil_of_oldest (h : oldest l = none) : l = [] := by
  fun_cases oldest l with grind [oldest]

theorem oldest_spec (h : oldest l = some e) :
    e ∈ l ∧ ∀ other ∈ l, e.expires ≤ other.expires := by
  fun_induction oldest l generalizing e with grind [→ eq_nil_of_oldest]

def Unique (l : List DnsEntry) : Prop := (l.map (·.authority)).Nodup

theorem mem_remove : e ∈ remove authority l ↔ e ∈ l ∧ e.authority ≠ authority := by simp [remove]

theorem remove_sublist (authority : List Char) (l : List DnsEntry) :
    (remove authority l).Sublist l :=
  filter_sublist

theorem length_remove_lt (h : e ∈ l) : (remove e.authority l).length < l.length :=
  length_filter_lt_length_iff_exists.mpr ⟨e, h, by simp⟩

/-- What outlives an insert. An entry that has to make room expires first among
`dnsCacheCapacity` entries of other authorities. -/
theorem insertWithTtl_spec (cache : DnsCache) (authority : List Char) (addrs : List SocketAddr)
    (now ttl : Nat) (hu : Unique cache.entries) (hln : cache.entries.length ≤ dnsCacheCapacity) :
    ∃ kept, (cache.insertWithTtl authority addrs now ttl).entries =
        (Insert.mk addrs now ttl false).entry authority :: kept ∧
      kept.Sublist cache.entries ∧ kept.length < dnsCacheCapacity ∧
      (∀ e ∈ kept, now < e.expires ∧ e.authority ≠ authority) ∧
      ∀ e ∈ cache.entries, now < e.expires → e.authority ≠ authority → e ∉ kept →
        dnsCacheCapacity ≤ (remove authority (cache.entries.filter (now < ·.expires))).length ∧
        oldest (cache.entries.filter (now < ·.expires)) = some e := by
  generalize hl : cache.entries.filter (now < ·.expires) = live
  have hsu : live.Sublist cache.entries := hl ▸ filter_sublist
  have hle := hsu.length_le
  have hmem : ∀ e, e ∈ live ↔ e ∈ cache.entries ∧ now < e.expires := by simp [← hl]
  refine ⟨_, rfl, ?_⟩
  simp only [hl]
  split
  next hfu =>
    obtain ⟨hca, hno⟩ := hfu
    have hoh : remove authority live = live := by simpa [remove] using hno
    cases hfr : oldest live with
    | none => grind [→ eq_nil_of_oldest, dnsCacheCapacity]
    | some first =>
      dsimp only
      have hin := (oldest_spec hfr).1
      have hlt := length_remove_lt hin
      have hk := remove_sublist authority (remove first.authority live)
      have hkl := hk.length_le
      refine ⟨(hk.trans (remove_sublist ..)).trans hsu, by omega, by grind [mem_remove],
        fun e he _ _ _ => ⟨by rwa [hoh], ?_⟩⟩
      have hsa : first.authority = e.authority := by grind [mem_remove]
      rw [inj_on_of_nodup_map hu (hsu.subset hin) he hsa]
  next hro =>
    have hk := remove_sublist authority live
    refine ⟨hk.trans hsu, ?_, by grind [mem_remove], by grind [mem_remove]⟩
    have := hk.length_le
    by_cases hca : dnsCacheCapacity ≤ live.length
    · obtain ⟨e, he, rfl⟩ : ∃ e ∈ live, e.authority = authority := by simpa [hca] using hro
      have := length_remove_lt he
      omega
    · omega

namespace History

structure Inv (s : History) : Prop where
  unique : Unique s.cache.entries
  bounded : s.cache.entries.length ≤ dnsCacheCapacity
  sound : ∀ e ∈ s.cache.entries, ∃ i, s.latest e.authority = some i ∧ i.evicted = false ∧
    e = i.entry e.authority
  complete : ∀ authority i, s.latest authority = some i → i.evicted = false →
    s.clock < (i.entry authority).expires → i.entry authority ∈ s.cache.entries

theorem Inv.get (h : Inv s) (authority : List Char) (hn : s.clock ≤ now) :
    Inv { s with cache := (s.cache.get authority now).2, clock := now } := by
  have hcs : (s.cache.get authority now).2 = s.cache ∨ ∃ e ∈ s.cache.entries,
      e.expires ≤ now ∧ (s.cache.get authority now).2 = ⟨remove e.authority s.cache.entries⟩ := by
    grind [DnsCache.get]
  have hl := h.complete
  rcases hcs with hsa | ⟨e, he, hexp, hgo⟩
  · rw [hsa]
    exact { h with complete := by grind }
  rw [hgo]
  have hsu := remove_sublist e.authority s.cache.entries
  refine ⟨(hsu.map _).nodup h.unique, Nat.le_trans hsu.length_le h.bounded,
    fun e he => h.sound e (hsu.subset he), fun a i hi hev hlt => ?_⟩
  have hin := hl a i hi hev (Nat.lt_of_le_of_lt hn hlt)
  -- the entry that goes has expired
  have := inj_on_of_nodup_map h.unique hin he
  grind [mem_remove]

theorem Inv.inserted (h : Inv s) (authority : List Char) (addrs : List SocketAddr)
    (hn : s.clock ≤ now) (ttl : Nat) : Inv (s.inserted authority addrs now ttl) := by
  obtain ⟨kept, ha, hsu, hln, hl, -⟩ :=
    insertWithTtl_spec s.cache authority addrs now ttl h.unique h.bounded
  obtain ⟨hu, hb, hso, hco⟩ := h
  refine ⟨?_, ?_, fun e he => ?_, fun a i hi hev hlt => ?_⟩
  · rw [Unique, History.inserted, ha, map_cons, nodup_cons]
    exact ⟨by grind [Insert.entry], (hsu.map _).nodup hu⟩
  · rw [History.inserted, ha]
    exact hln
  · rw [History.inserted, ha, mem_cons] at he
    rcases he with rfl | he
    · exact ⟨_, if_pos rfl, rfl, rfl⟩
    · obtain ⟨i, hi, hev, heq⟩ := hso e (hsu.subset he)
      refine ⟨_, (if_neg (hl e he).2).trans (congrArg _ hi), ?_, heq⟩
      simp [hev, evicts, ha, ← heq, he]
  · by_cases hau : a = authority
    · grind [History.inserted, Insert.entry]
    · obtain ⟨j, hj, rfl⟩ := Option.map_eq_some_iff.mp ((if_neg hau).symm.trans hi)
      have hin := hco a j hj
      grind [History.inserted, evicts, Insert.entry]

theorem Inv.step (h : Inv s) (hs : History.step s c = some s') : Inv s' := by
  cases c with
  | get authority =>
    obtain ⟨hn, ⟨⟩⟩ := Option.ite_none_right_eq_some.mp hs
    exact h.get authority hn
  | insertWithTtl authority addrs _ ttl =>
    obtain ⟨hn, ⟨⟩⟩ := Option.ite_none_right_eq_some.mp hs
    exact h.inserted authority addrs hn ttl
  | reorder =>
    obtain ⟨hp, ⟨⟩⟩ := Option.ite_none_right_eq_some.mp hs
    exact ⟨(hp.map _).nodup_iff.mpr h.unique, hp.length_eq ▸ h.bounded,
      fun e he => h.sound e (hp.mem_iff.mp he),
      fun a i hi hev hlt => hp.mem_iff.mpr (h.complete a i hi hev hlt)⟩

theorem Inv.get_eq_some (h : Inv s) (hn : s.clock ≤ now) :
    (s.cache.get authority now).1 = some addrs ↔
      ∃ i, s.latest authority = some i ∧ i.addrs = addrs ∧ i.evicted = false ∧
        now < i.now + min i.ttl dnsCacheTtl := by
  have hfi : ∀ e, s.cache.entries.find? (·.authority == authority) = some e ↔
      e ∈ s.cache.entries ∧ e.authority = authority := by
    intro e
    refine ⟨fun he => ⟨mem_of_find?_eq_some he, by simpa using find?_some he⟩, ?_⟩
    rintro ⟨he, rfl⟩
    cases hfi : s.cache.entries.find? (·.authority == e.authority) with
    | none => simpa using find?_eq_none.mp hfi e he
    | some other =>
      rw [inj_on_of_nodup_map h.unique (mem_of_find?_eq_some hfi) he
        (by simpa using find?_some hfi)]
  have hso := h.sound
  have hco := h.complete authority
  grind [DnsCache.get, Insert.entry]

/-- **The cache is exact**: after any calls, `get` answers with the latest insert
of the authority exactly while that was not evicted and has not expired, the
cache is bounded, and an insert evicts a live entry only when full of other
authorities, and then one that expires first. -/
theorem dns_cache_exact (s : History) (h : Machine.Reach History.step Machine.Any {} s) :
    s.cache.entries.length ≤ dnsCacheCapacity ∧
    ∀ (authority : List Char) (now : Nat), s.clock ≤ now →
      (∀ addrs, (s.cache.get authority now).1 = some addrs ↔
        ∃ i, s.latest authority = some i ∧ i.addrs = addrs ∧ i.evicted = false ∧
          now < i.now + min i.ttl dnsCacheTtl) ∧
      ∀ addrs ttl e, evicts s.cache (s.cache.insertWithTtl authority addrs now ttl) authority now
        e →
        dnsCacheCapacity ≤ (remove authority (s.cache.entries.filter (now < ·.expires))).length ∧
        (∀ other ∈ s.cache.entries, now < other.expires → e.expires ≤ other.expires) ∧
        ∀ other, evicts s.cache (s.cache.insertWithTtl authority addrs now ttl) authority now
          other → other = e := by
  have hiv : Inv s := h.invariant
    ⟨.nil, Nat.zero_le _, by simp, by simp⟩
    fun _ _ _ hi _ hs => hi.step hs
  refine ⟨hiv.bounded, fun authority now hn => ⟨fun addrs => hiv.get_eq_some hn, ?_⟩⟩
  intro addrs ttl e hec
  obtain ⟨kept, ha, -, -, -, hgo⟩ :=
    insertWithTtl_spec s.cache authority addrs now ttl hiv.unique hiv.bounded
  simp only [evicts, ha, decide_eq_true_eq] at hec ⊢
  obtain ⟨hca, hold⟩ := hgo e hec.1 hec.2.1 hec.2.2.1 (by grind)
  have := oldest_spec hold
  grind

def refreshed : History := inserted (inserted {} ['h'] [] 5 (10 ^ 9)) ['h'] [] 6 (2 * 10 ^ 9)

/-- The refresh keeps the answer past the end of the first insert, up to its own. -/
theorem dns_cache_exact_refreshed :
    (refreshed.cache.get ['h'] (10 ^ 9 + 6)).1 = some [] ∧
      (refreshed.cache.get ['h'] (2 * 10 ^ 9 + 6)).1 ≠ some [] := by
  have hre : Machine.Reach History.step Machine.Any {} refreshed :=
    .next (e := .insertWithTtl ['h'] [] 6 (2 * 10 ^ 9))
      (.next (e := .insertWithTtl ['h'] [] 5 (10 ^ 9)) .refl trivial rfl) trivial rfl
  have hexact := (dns_cache_exact refreshed hre).2 ['h']
  refine ⟨((hexact _ (by decide)).1 []).mpr ⟨_, rfl, rfl, rfl, by decide⟩, fun hge => ?_⟩
  obtain ⟨_, ⟨⟩, -, -, hl⟩ := ((hexact _ (by decide)).1 []).mp hge
  exact absurd hl (by decide)

end History

end Espejismo.DnsCache
