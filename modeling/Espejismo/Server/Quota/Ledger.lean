import Espejismo.Server.Quota.Forwarding

/-!
# Server.Quota.Ledger

The registry of limits holds what the log of the accounted bytes says
(`Ledgered`), and the log counts every byte that a handler accounted exactly
once (`total_step`).
-/

namespace Espejismo.Quota

open Copy Windows Machine List

/-! ## The registry holds what the log says -/

/-- Of every user with a quota, the used bytes are those accounted in the open
window, and no window is over the quota; as long as the counter does not
saturate. -/
def Ledgered (registry : UserLimitRegistry) (log : List (Entry String)) : Prop :=
  ∀ user state quota, registry.states user = some state →
    state.config.quotaBytes = some quota → (sums user log).Bounded (2 ^ 64 - 1) →
    state.usedBytes = (sums user log).current ∧ (sums user log).Bounded quota

def KeepsConfigs (registry registry' : UserLimitRegistry) : Prop :=
  ∀ user state, registry.states user = some state →
    ∃ state', registry'.states user = some state' ∧ state'.config = state.config

section Ledger

variable {registry : UserLimitRegistry} {log : List (Entry String)} {user : String}
  {now amount : Nat} {state : UserLimitState}

theorem current_of_states (h : registry.states user = some state) :
    registry.current user now = refreshWindow state now := by
  simp [UserLimitRegistry.current, UserLimitRegistry.stateForUser, h]

theorem current_quota_of_states_eq_none (h : registry.states user = none) :
    (registry.current user now).config.quotaBytes = none := by
  simp [UserLimitRegistry.current, UserLimitRegistry.stateForUser, h, UserLimitState.fresh]

theorem KeepsConfigs.insert (hc : state.config = (registry.current user now).config) :
    KeepsConfigs registry (registry.insert user state) := by
  intro other st hst
  by_cases ho : other = user
  · subst ho
    refine ⟨state, insert_states state, ?_⟩
    rw [hc, current_of_states hst, refreshWindow_config]
  · exact ⟨st, by rw [insert_states_of_ne _ ho, hst], rfl⟩

theorem sums_append_resets {s : System} (ho : other ≠ user) :
    sums other (s.log ++ s.resets user) = sums other s.log := by
  unfold System.resets
  split
  · rw [sums_append_singleton, record_reset_of_ne _ (Ne.symm ho)]
  · rw [append_nil]

theorem Ledgered.touch {s : System} (hs : Ledgered s.registry s.log) (user : String) :
    Ledgered (s.registry.insert user (s.registry.current user s.clock))
      (s.log ++ s.resets user) := by
  intro other st quota hst hq hsm
  by_cases ho : other = user
  · subst ho
    rw [insert_states] at hst
    cases hst
    cases hold : s.registry.states other with
    | none =>
      rw [current_quota_of_states_eq_none hold] at hq
      cases hq
    | some old =>
      rw [current_of_states hold, refreshWindow_config] at hq
      obtain ⟨hu, hb⟩ := hs other old quota hold hq hsm.of_append
      rw [current_of_states hold, refreshWindow_usedBytes]
      rw [System.resets, UserLimitRegistry.stateForUser, hold, Option.getD_some]
      by_cases hd : old.due s.clock
      · rw [if_pos hd, if_pos hd, sums_append_singleton, record_reset]
        exact ⟨rfl, Nat.zero_le _, forall_mem_cons.mpr hb⟩
      · rw [if_neg hd, if_neg hd, append_nil]
        exact ⟨hu, hb⟩
  · rw [insert_states_of_ne _ ho] at hst
    rw [sums_append_resets ho] at hsm ⊢
    exact hs other st quota hst hq hsm

theorem Ledgered.charge (hl : Ledgered (registry.insert user (registry.current user now)) log)
    (hc : state.config = (registry.current user now).config)
    (hu : ∀ limit, state.config.quotaBytes = some limit →
      state.usedBytes = saturatingAdd (registry.current user now).usedBytes amount ∧
        state.usedBytes ≤ limit) :
    Ledgered (registry.insert user state) (log ++ [.charge user amount]) := by
  intro other st quota hst hq hsm
  by_cases ho : other = user
  · subst ho
    rw [insert_states] at hst
    cases hst
    obtain ⟨hne, hle⟩ := hu quota hq
    obtain ⟨hold, hb⟩ := hl other _ quota (insert_states _) (hc ▸ hq) hsm.of_append
    rw [sums_append_singleton, record_charge] at hsm ⊢
    -- the counter did not saturate
    have hsum : state.usedBytes = (sums other log).current + amount := by
      rw [hne, hold]
      exact Nat.min_eq_left hsm.1
    exact ⟨hsum, hsum ▸ hle, hb.2⟩
  · rw [insert_states_of_ne _ ho] at hst
    rw [sums_append_singleton, record_charge_of_ne _ _ (Ne.symm ho)] at hsm ⊢
    refine hl other st quota ?_ hq hsm
    rw [insert_states_of_ne _ ho, hst]

end Ledger

section Registry

variable {after : (wake bytes rate : Nat) → Option Nat} {s s' : System} {e : Event}

theorem ledgered_step (hs : Ledgered s.registry s.log) (h : s.step after e = some s') :
    Ledgered s'.registry s'.log := by
  cases transition_of_step h with
  | tick | free | resumed | worked => exact hs
  | opened | notOpened | refused => exact hs.touch _
  | charged hta hwa hch hc hu =>
    rw [← append_assoc]
    exact (hs.touch _).charge hc hu

theorem keepsConfigs_step (h : s.step after e = some s') : KeepsConfigs s.registry s'.registry := by
  have hsa : KeepsConfigs s.registry s.registry := fun user state hsta => ⟨state, hsta, rfl⟩
  cases transition_of_step h with
  | tick | free | resumed | worked => exact hsa
  | opened | notOpened | refused => exact .insert rfl
  | charged hta hwa hch hc => exact .insert hc

end Registry

/-! ## Nothing is accounted twice -/

def Task.amount (user : String) (task : Task) : Nat :=
  if task.user = user then (task.accounted.of .a).length + (task.accounted.of .b).length else 0

def accountedBytes (user : String) (tasks : List Task) : Nat := (tasks.map (Task.amount user)).sum

section Amounts

variable {user : String} {tasks : List Task} {task : Task}

theorem accountedBytes_set (user : String) (h : tasks[i]? = some task) (task' : Task) :
    accountedBytes user (tasks.set i task') + task.amount user =
      accountedBytes user tasks + task'.amount user := by
  unfold accountedBytes
  induction tasks generalizing i with
  | nil => cases h
  | cons t tasks ih =>
    cases i with
    | zero =>
      cases h
      simp only [set_cons_zero, map_cons, sum_cons]
      omega
    | succ =>
      have hrs := ih h
      simp only [set_cons_succ, map_cons, sum_cons] at hrs ⊢
      omega

theorem accountedBytes_set_same (h : tasks[i]? = some task)
    (hsa : task'.amount user = task.amount user) :
    accountedBytes user (tasks.set i task') = accountedBytes user tasks := by
  have hse := accountedBytes_set user h task'
  omega

theorem amount_charge (user : String) (task : Task) (side : Side) (bytes : List UInt8) :
    (task.charge side bytes).amount user =
      task.amount user + if task.user = user then bytes.length else 0 := by
  unfold Task.amount Task.charge
  by_cases hus : task.user = user
  · cases side <;> simp [hus, Both.of, Both.set] <;> omega
  · simp [hus]

end Amounts

section Totals

variable {after : (wake bytes rate : Nat) → Option Nat} {s s' : System} {e : Event}
  {user : String}

theorem total_append_resets (s : System) (user other : String) :
    (sums user (s.log ++ s.resets other)).total = (sums user s.log).total := by
  unfold System.resets
  split
  · rw [sums_append_singleton, total_record_reset]
  · rw [append_nil]

theorem total_step (hs : accountedBytes user s.tasks = (sums user s.log).total)
    (h : s.step after e = some s') : accountedBytes user s'.tasks = (sums user s'.log).total := by
  cases transition_of_step h with
  | tick => exact hs
  | @opened other datagram =>
    rw [total_append_resets, ← hs]
    cases datagram <;> simp [accountedBytes, Task.opened, Task.amount, Both.of]
  | notOpened => rw [total_append_resets, ← hs]
  | @free i later wake task side hta =>
    rw [← hs]
    refine accountedBytes_set_same hta ?_
    exact (amount_charge user task side []).trans (by simp)
  | @charged i later task task' side bytes state hta hwa hch hc hu hta' =>
    have ham : task'.amount user = (task.charge side bytes).amount user := by
      rcases hta' with ⟨wake, rfl⟩ | ⟨work, hmet, rfl⟩ <;> rfl
    have hse := accountedBytes_set user hta task'
    rw [ham, amount_charge] at hse
    rw [← append_assoc, sums_append_singleton, total_record_charge, total_append_resets]
    dsimp only
    omega
  | refused hta =>
    rw [total_append_resets, ← hs]
    exact accountedBytes_set_same hta rfl
  | resumed hta | worked hta =>
    rw [← hs]
    exact accountedBytes_set_same hta rfl

end Totals

/-! ## Every run -/

section Runs

variable {after : (wake bytes rate : Nat) → Option Nat} {configs : List (String × UserLimitConfig)}
  {start : Nat} {s s' : System} {e : Event}

theorem log_step (h : s.step after e = some s') : ∃ more, s'.log = s.log ++ more := by
  cases transition_of_step h with
  | tick | free | resumed | worked => exact ⟨[], by simp⟩
  | opened | notOpened | charged | refused => exact ⟨_, rfl⟩

theorem log_of_reach (h : Reach (System.step after) Any s s') : ∃ more, s'.log = s.log ++ more := by
  refine h.invariant (I := fun t => ∃ more, t.log = s.log ++ more) ⟨[], by simp⟩
    fun t e t' ht _ hsp => ?_
  obtain ⟨more, hmo⟩ := ht
  obtain ⟨next, hne⟩ := log_step hsp
  exact ⟨more ++ next, by rw [hne, hmo, append_assoc]⟩

theorem keepsConfigs_of_reach (h : Reach (System.step after) Any s s') :
    KeepsConfigs s.registry s'.registry := by
  refine h.invariant (I := fun t => KeepsConfigs s.registry t.registry)
    (fun user state hsta => ⟨state, hsta, rfl⟩) fun t e t' ht _ hsp => ?_
  intro user state hsta
  obtain ⟨mid, hmi, hc⟩ := ht user state hsta
  obtain ⟨last, hla, hc'⟩ := keepsConfigs_step hsp user mid hmi
  exact ⟨last, hla, hc'.trans hc⟩

theorem ledgered_of_reach (h : Reach (System.step after) Any (System.start configs start) s) :
    Ledgered s.registry s.log := by
  refine h.invariant ?_ fun t e t' ht _ hsp => ledgered_step ht hsp
  intro user state quota hsta hq hsm
  exact ⟨UserLimitRegistry.usedBytes_of_new hsta, Nat.zero_le _, by simp [System.start]⟩

end Runs

/-- A call that fails has changed the used bytes of its user only by starting a
window that was due. -/
def RejectKeepsUsed (registry registry' : UserLimitRegistry) (user : String) (now : Nat) : Prop :=
  ∃ state, registry'.states user = some state ∧
    state.usedBytes =
      if (registry.stateForUser user now).due now then 0
      else (registry.stateForUser user now).usedBytes

theorem rejectKeepsUsed_insert (registry : UserLimitRegistry) (user : String) (now : Nat) :
    RejectKeepsUsed registry (registry.insert user (registry.current user now)) user now :=
  ⟨_, insert_states _, refreshWindow_usedBytes _⟩

theorem ensureOpen_full (hsta : registry.states user = some state)
    (hq : state.config.quotaBytes = some quota) (hfu : quota ≤ state.usedBytes)
    (hd : state.due now = false) :
    ∃ registry', (UserLimitRegistry.ensureOpen user now).run registry =
      .error (.msg "user quota exceeded") registry' := by
  have hcu : registry.current user now = state := by
    rw [current_of_states hsta, refreshWindow, hd]
    rfl
  rw [UserLimitRegistry.ensureOpen_run, hcu]
  simp [hq, hfu]

/-- **Quotas are accounted exactly**, for every set of users and every interleaving of
the handlers: what a handler forwarded it had accounted, and every accounted byte is
in exactly one window; the windows of a user with a quota are within it, the open one
being the used bytes; a rejected call changes the used bytes only by a window that was
due, and none changes another user; a user whose quota is used up gets no stream until
their window is started anew. -/
theorem quota_accounting_exact (after : (wake bytes rate : Nat) → Option Nat)
    (configs : List (String × UserLimitConfig)) (start : Nat) {s : System}
    (hr : Reach (System.step after) Any (System.start configs start) s) :
    (∀ task ∈ s.tasks, ∀ side, task.work.forwarded side <+: task.accounted.of side) ∧
    (∀ user, accountedBytes user s.tasks = (sums user s.log).total) ∧
    (∀ user state₀ quota, (UserLimitRegistry.new configs start).states user = some state₀ →
      state₀.config.quotaBytes = some quota → (sums user s.log).Bounded (2 ^ 64 - 1) →
      ∃ state, s.registry.states user = some state ∧ state.config = state₀.config ∧
        state.usedBytes = (sums user s.log).current ∧ (sums user s.log).Bounded quota) ∧
    (∀ user now e registry',
      (UserLimitRegistry.ensureOpen user now).run s.registry = .error e registry' →
      RejectKeepsUsed s.registry registry' user now) ∧
    (∀ user bytes now later text registry',
      (UserLimitRegistry.accountAndThrottle after user bytes now later).run s.registry =
        .error (.msg text) registry' →
      RejectKeepsUsed s.registry registry' user now) ∧
    (∀ user other bytes now later, other ≠ user →
      (finalState ((UserLimitRegistry.ensureOpen user now).run s.registry)).states other =
          s.registry.states other ∧
        (finalState ((UserLimitRegistry.accountAndThrottle after user bytes now later).run
          s.registry)).states other = s.registry.states other) ∧
    (∀ user state quota, s.registry.states user = some state →
      state.config.quotaBytes = some quota → quota ≤ state.usedBytes →
      ∀ s', Reach (System.step after) Any s s' →
        (sums user s'.log).closed = (sums user s.log).closed →
        (sums user s'.log).Bounded (2 ^ 64 - 1) →
        ∀ now, (s'.registry.stateForUser user now).due now = false →
          ∃ registry', (UserLimitRegistry.ensureOpen user now).run s'.registry =
            .error (.msg "user quota exceeded") registry') := by
  refine ⟨?_, ?_, ?_, ?_, ?_, ?_, ?_⟩
  · have hba : ∀ task ∈ s.tasks, task.Backed :=
      hr.invariant (by simp [System.start]) fun t e t' ht _ hsp => backed_step ht hsp
    exact fun task hta => (hba task hta).forwarded_isPrefix
  · intro user
    exact hr.invariant (I := fun t => accountedBytes user t.tasks = (sums user t.log).total)
      rfl fun t e t' ht _ hsp => total_step ht hsp
  · intro user state₀ quota hsta₀ hq hsm
    obtain ⟨state, hsta, hc⟩ := keepsConfigs_of_reach hr user state₀ hsta₀
    obtain ⟨hu, hb⟩ := ledgered_of_reach hr user state quota hsta (by rw [hc, hq]) hsm
    exact ⟨state, hsta, hc, hu, hb⟩
  · intro user now e registry' hru
    rw [UserLimitRegistry.ensureOpen_run] at hru
    dsimp only at hru
    split at hru <;> cases hru
    exact rejectKeepsUsed_insert s.registry user now
  · intro user bytes now later text registry' hru
    rw [UserLimitRegistry.accountAndThrottle_refused hru]
    exact rejectKeepsUsed_insert s.registry user now
  · intro user other bytes now later ho
    exact ⟨UserLimitRegistry.ensureOpen_other ho, UserLimitRegistry.accountAndThrottle_other ho⟩
  · intro user state quota hsta hq hfu s' hr' hcl hsm now hd
    obtain ⟨state', hsta', hc⟩ := keepsConfigs_of_reach hr' user state hsta
    have hq' : state'.config.quotaBytes = some quota := by rw [hc, hq]
    -- the open window has only grown since the quota was used up
    obtain ⟨more, hmo⟩ := log_of_reach hr'
    rw [hmo] at hcl
    have hgro := current_le_append hcl
    obtain ⟨hu', -⟩ := ledgered_of_reach (hr.trans hr') user state' quota hsta' hq' hsm
    rw [hmo] at hu' hsm
    obtain ⟨hu, -⟩ := ledgered_of_reach hr user state quota hsta hq hsm.of_append
    rw [UserLimitRegistry.stateForUser, hsta'] at hd
    exact ensureOpen_full hsta' hq' (by omega) hd

theorem quota_accounting_exact_three :
    let quota : UserLimitConfig := { quotaBytes := some 10, quotaWindow := 60 }
    ∃ s, Reach (System.step fun _ _ _ => none) Any (System.start [("alice", quota)] 0) s ∧
      (s.tasks.map fun task => task.work.forwarded .a) = [[1, 2, 3]] ∧
      accountedBytes "alice" s.tasks = 3 ∧
      ∃ state, s.registry.states "alice" = some state ∧ state.config = quota ∧
        state.usedBytes = 3 := by
  intro quota
  obtain ⟨s, hr, hfo, hsu⟩ := exists_of_run (System.step fun _ _ _ => none) Any
    (System.start [("alice", quota)] 0)
    (fun s => (s.tasks.map fun task => task.work.forwarded .a) = [[1, 2, 3]] ∧
      sums "alice" s.log = { current := 3 })
    [.openStream "alice" none, .work 0 (.copy (.read .a [1, 2, 3])), .account 0 5, .resume 0,
      .work 0 (.copy (.wrote 3))]
    (by decide +kernel)
  have hexact := quota_accounting_exact (fun _ _ _ => none) [("alice", quota)] 0 hr
  have hto := hexact.2.1 "alice"
  obtain ⟨state, hsta, hc, hu, -⟩ := hexact.2.2.1 "alice" (.fresh quota 0) 10 rfl rfl
    (by rw [hsu]; decide)
  rw [hsu] at hto hu
  exact ⟨s, hr, hfo, hto, state, hsta, hc, hu⟩

end Espejismo.Quota
