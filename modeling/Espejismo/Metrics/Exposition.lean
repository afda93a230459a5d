import Mathlib.Data.List.Nodup
import Espejismo.Metrics

/-!
# Metrics.Exposition

The counters as text for a scraper (`render_prometheus`): a line for each sample,
with the label values escaped.
-/

namespace Espejismo

open List

structure Sample where
  name : String
  labels : List (String × String)
  value : Nat

def metric (role : String) (name : String) (value : Nat) : Sample :=
  { name, labels := [("role", role)], value }

def userMetric (role user : String) (name : String) (value : Nat) : Sample :=
  { name, labels := [("role", role), ("user", user)], value }

def reasonMetric (role reason : String) (name : String) (value : Nat) : Sample :=
  { name, labels := [("role", role), ("reason", reason)], value }

def pushLabelValue (value : List Char) : List Char :=
  value.flatMap fun ch =>
    if ch = '\\' then ['\\', '\\'] else if ch = '"' then ['\\', '"']
    else if ch = '\n' then ['\\', 'n'] else [ch]

namespace Sample

/-- The labels in quotes, each behind `sep` or a comma. -/
def labelText (sep : Char) : List (String × String) → List Char
  | [] => ['}']
  | (label, value) :: rest =>
    sep :: label.toList ++ '=' :: '"' :: pushLabelValue value.toList ++ '"' :: labelText ',' rest

def fullName (s : Sample) : List Char := "espejismo_".toList ++ s.name.toList

def line (s : Sample) : List Char :=
  s.fullName ++ (labelText '{' s.labels ++ ' ' :: Nat.toDigits 10 s.value)

end Sample

namespace Metrics

def counters (m : Metrics) : List (String × Nat) :=
  [("active_physical_connections", m.activePhysicalConnections),
    ("active_streams", m.activeStreams), ("accepted_connections_total", m.acceptedConnections),
    ("handshake_success_total", m.handshakeSuccess),
    ("handshake_failure_total", m.handshakeFailure), ("stream_opened_total", m.streamOpened),
    ("stream_failed_total", m.streamFailed), ("egress_denied_total", m.egressDenied),
    ("session_rotations_total", m.sessionRotations), ("key_updates_total", m.keyUpdates),
    ("bytes_client_to_remote_total", m.bytesClientToRemote),
    ("bytes_remote_to_client_total", m.bytesRemoteToClient)]

def userCounters (user : UserMetricsSnapshot) : List (String × Nat) :=
  [("user_handshake_success_total", user.handshakeSuccess),
    ("user_stream_opened_total", user.streamOpened),
    ("user_bytes_client_to_remote_total", user.bytesClientToRemote),
    ("user_bytes_remote_to_client_total", user.bytesRemoteToClient)]

def samples (m : Metrics) (role : String) : List Sample :=
  m.counters.map (fun c => metric role c.1 c.2) ++
  m.users.flatMap (fun user =>
    (userCounters user.2).map fun c => userMetric role user.2.user c.1 c.2) ++
  m.streamFailureReasons.map fun reason =>
    reasonMetric role reason.1 "stream_failure_reason_total" reason.2

def renderPrometheus (m : Metrics) (role : String) : List Char :=
  (m.samples role).flatMap fun s => s.line ++ ['\n']

end Metrics

/-! ## Reading the text back -/

/-- The quoted values of a line, unescaped; `some value` inside quotes. -/
def labelValues : Option (List Char) → List Char → List (List Char)
  | none, '"' :: rest => labelValues (some []) rest
  | none, _ :: rest => labelValues none rest
  | some value, '"' :: rest => value :: labelValues none rest
  | some value, '\\' :: ch :: rest =>
    labelValues (some (value ++ [if ch = 'n' then '\n' else ch])) rest
  | some value, ch :: rest => labelValues (some (value ++ [ch])) rest
  | _, [] => []

def metricName (line : List Char) : List Char := line.takeWhile (· != '{')

def readLine (line : List Char) : String × List String :=
  (.ofList (metricName line), (labelValues none line).map .ofList)

theorem labelValues_plain (h : '"' ∉ l) : labelValues none (l ++ rest) = labelValues none rest := by
  induction l with
  | nil => rfl
  | cons c l ih => grind [labelValues]

theorem labelValues_quoted (acc value rest : List Char) :
    labelValues (some acc) (pushLabelValue value ++ '"' :: rest) =
      (acc ++ value) :: labelValues none rest := by
  induction value generalizing acc with
  | nil => simp [pushLabelValue, labelValues]
  | cons c value ih =>
    have hrs := ih (acc ++ [c])
    rw [append_assoc, singleton_append] at hrs
    rw [← hrs, pushLabelValue, flatMap_cons, ← pushLabelValue]
    split_ifs with hsl hqu hfe
    · simp [hsl, labelValues]
    · simp [hqu, labelValues]
    · simp [hfe, labelValues]
    · rw [append_assoc, singleton_append, labelValues]
      · exact hqu
      · rintro _ _ rfl
        contradiction

def isPlain (text : String) : Bool := text.toList.all fun c => c != '{' && c != '"' && c != '\n'

namespace Sample

def Plain (s : Sample) : Prop :=
  isPlain s.name ∧ s.labels ≠ [] ∧ ∀ label ∈ s.labels, isPlain label.1

theorem labelValues_labelText (hse : sep ≠ '"') (h : ∀ label ∈ l, isPlain label.1) :
    labelValues none (labelText sep l ++ rest) =
      l.map (·.2.toList) ++ labelValues none rest := by
  induction l generalizing sep with
  | nil => simp [labelText, labelValues]
  | cons label l ih =>
    have hn := h label mem_cons_self
    have hp : '"' ∉ sep :: label.1.toList ++ ['='] := by
      grind [isPlain]
    have hsp : labelText sep (label :: l) ++ rest = (sep :: label.1.toList ++ ['=']) ++
        '"' :: (pushLabelValue label.2.toList ++ '"' :: (labelText ',' l ++ rest)) := by
      simp [labelText]
    rw [hsp, labelValues_plain hp, labelValues, labelValues_quoted,
      ih (by decide) fun x hx => h x (.tail _ hx)]
    rfl

theorem feed_not_mem_labelText (hse : sep ≠ '\n') (h : ∀ label ∈ l, isPlain label.1) :
    '\n' ∉ labelText sep l := by
  induction l generalizing sep with
  | nil => simp [labelText]
  | cons label l ih =>
    have hn := h label mem_cons_self
    have hrs : '\n' ∉ labelText ',' l := ih (by decide) fun x hx => h x (.tail _ hx)
    have hval : '\n' ∉ pushLabelValue label.2.toList := by
      grind [pushLabelValue]
    grind [labelText, isPlain]

theorem not_mem_toDigits (h : c.isDigit = false) : c ∉ Nat.toDigits 10 n := by
  intro hc
  rw [Nat.isDigit_of_mem_toDigits (by decide) (by decide) hc] at h
  contradiction

theorem Plain.fullName (h : Plain s) : ∀ c ∈ s.fullName, c ≠ '{' ∧ c ≠ '"' ∧ c ≠ '\n' := by
  have hn := h.1
  simp only [isPlain, all_eq_true, Bool.and_eq_true, bne_iff_ne, and_assoc] at hn
  have hst : ∀ c ∈ "espejismo_".toList, c ≠ '{' ∧ c ≠ '"' ∧ c ≠ '\n' := by simp
  exact fun c hc => (mem_append.mp hc).elim (hst c) (hn c)

theorem Plain.feed_not_mem_line (h : Plain s) : '\n' ∉ s.line := by
  have hlab : '\n' ∉ labelText '{' s.labels := feed_not_mem_labelText (by decide) h.2.2
  have hdi := not_mem_toDigits (c := '\n') (n := s.value) (by decide)
  have hn := h.fullName
  grind [line]

theorem Plain.metricName_line (h : Plain s) : metricName s.line = s.fullName := by
  cases hl : s.labels with
  | nil => exact absurd hl h.2.1
  | cons label l =>
    rw [metricName, line, hl, takeWhile_append_of_pos fun c hc => by simp [h.fullName c hc]]
    simp [labelText]

theorem Plain.labelValues_line (h : Plain s) :
    labelValues none s.line = s.labels.map (·.2.toList) := by
  have hdi := not_mem_toDigits (c := '"') (n := s.value) (by decide)
  have hen : labelValues none (' ' :: Nat.toDigits 10 s.value ++ []) = labelValues none [] :=
    labelValues_plain (by simpa using hdi)
  rw [append_nil] at hen
  rw [line, labelValues_plain fun hc => (h.fullName _ hc).2.1 rfl,
    labelValues_labelText (by decide) h.2.2, hen]
  simp [labelValues]

end Sample

namespace Metrics

/-- The tables are maps: a key for each series, which a user's counters repeat. -/
structure Distinct (m : Metrics) : Prop where
  users : (m.users.map Prod.fst).Nodup
  user : m.users.map (·.2.user) = m.users.map Prod.fst
  reasons : (m.streamFailureReasons.map Prod.fst).Nodup

theorem nodup_modifyEntry {m : SeriesMap α} (h : (m.map Prod.fst).Nodup) :
    ((m.modifyEntry key init f).map Prod.fst).Nodup := by
  have hkey : ∀ {m : SeriesMap α} {k}, k ∈ m.map Prod.fst ↔ m.containsKey k := by
    simp [SeriesMap.containsKey]
  fun_induction SeriesMap.modifyEntry key init f m with
    grind [SeriesMap.containsKey_modifyEntry]

theorem Distinct.withUser (h : Distinct m) (hf : ∀ entry, (f entry).user = entry.user) :
    Distinct (m.withUser name f) := by
  refine ⟨nodup_modifyEntry h.users, ?_, h.reasons⟩
  have hur := h.user
  simp only [Metrics.withUser]
  generalize m.users.keyFor maxUserMetricSeries otherUser name = key
  generalize m.users = users at hur
  fun_induction SeriesMap.modifyEntry key { user := key } f users with grind

theorem distinct_run (updates : List Update) : Distinct (run {} updates) := by
  induction updates using List.reverseRecOn with
  | nil => exact ⟨.nil, rfl, .nil⟩
  | append_singleton updates u ih =>
    rw [run, foldl_append]
    cases u with
    | streamFailedReason => exact ⟨ih.users, ih.user, nodup_modifyEntry ih.reasons⟩
    | _ => exact ih.withUser fun _ => rfl

theorem plain_of_mem_samples (h : s ∈ samples m role) : s.Plain := by
  have hco : (m.counters.map Prod.fst).all isPlain = true := by
    simp [counters, isPlain]
  have hus : ∀ user, ((userCounters user).map Prod.fst).all isPlain = true := by
    simp [userCounters, isPlain]
  simp only [samples, mem_append, mem_map, mem_flatMap] at h
  rcases h with (⟨c, hc, rfl⟩ | ⟨user, _, c, hc, rfl⟩) | ⟨reason, _, rfl⟩
  · exact ⟨all_eq_true.mp hco _ (mem_map_of_mem hc), cons_ne_nil _ _, by simp [metric, isPlain]⟩
  · exact ⟨all_eq_true.mp (hus _) _ (mem_map_of_mem hc),
      cons_ne_nil _ _, by simp [userMetric, isPlain]⟩
  · exact ⟨by simp [reasonMetric, isPlain], cons_ne_nil _ _, by simp [reasonMetric, isPlain]⟩

theorem nodup_samples (h : Distinct m) (role : String) :
    ((m.samples role).map fun s => (s.name, s.labels.map Prod.snd)).Nodup := by
  have hco : (m.counters.map Prod.fst).Nodup := by simp [counters]
  have hus : ∀ user, ((userCounters user).map Prod.fst).Nodup := by simp [userCounters]
  have hoth : ∀ user, "stream_failure_reason_total" ∉ (userCounters user).map Prod.fst := by
    simp [userCounters]
  simp only [samples, map_append, map_map, map_flatMap]
  refine .append (.append (.of_map Prod.fst ?_)
    (nodup_flatMap.mpr ⟨fun user _ => .of_map Prod.fst ?_, ?_⟩) ?_) ?_ ?_
  · simpa [Function.comp_def, metric] using hco
  · simpa [Function.comp_def, userMetric] using hus user.2
  · have hnm := h.user ▸ h.users
    exact (pairwise_map.mp hnm).imp fun hne => by grind [List.Disjoint, userMetric]
  · grind [List.Disjoint, userMetric, metric]
  · refine .of_map Prod.snd (.of_map (·.getLast?) ?_)
    have hrn := h.reasons.map fun _ _ => Option.some.inj
    simpa [Function.comp_def, reasonMetric] using hrn
  · grind [List.Disjoint, userMetric, metric, reasonMetric]

theorem splitOn_renderPrometheus (m : Metrics) (role : String) :
    (m.renderPrometheus role).splitOn '\n' = (m.samples role).map Sample.line ++ [[]] := by
  have hp : ∀ s ∈ m.samples role, s.Plain := fun s hs => plain_of_mem_samples hs
  rw [renderPrometheus]
  generalize m.samples role = l at hp
  induction l with
  | nil => rfl
  | cons s l ih =>
    have hs : ∀ c ∈ s.line, (c == '\n') = false := by
      grind [(hp s mem_cons_self).feed_not_mem_line]
    rw [flatMap_cons, append_assoc, List.splitOn, singleton_append,
      splitOnP_append_cons_of_forall_mem hs _ (by rfl)]
    exact congrArg _ (ih fun s hs => hp s (.tail _ hs))

theorem readLine_line {m : Metrics} {s : Sample} (h : s ∈ m.samples role) :
    readLine s.line = ("espejismo_" ++ s.name, s.labels.map Prod.snd) := by
  have hp := plain_of_mem_samples h
  have hap (a b : String) : String.ofList (a.toList ++ b.toList) = a ++ b := by
    simp [String.ofList_append]
  refine Prod.ext ((congrArg String.ofList hp.metricName_line).trans (hap _ _)) ?_
  rw [readLine, hp.labelValues_line, map_map]
  exact map_congr_left fun label _ => String.ofList_toList

/-- **The text is unambiguous**: from its lines, one for each counter, one for each
counter of a user and one for each reason, the metric and its label values can be read
back, and no two lines are for the same ones. -/
theorem prometheus_unambiguous (m : Metrics) (h : m.Distinct) (role : String) :
    ∃ lines, (m.renderPrometheus role).splitOn '\n' = lines ++ [[]] ∧
    lines.map readLine =
      ["espejismo_active_physical_connections", "espejismo_active_streams",
        "espejismo_accepted_connections_total", "espejismo_handshake_success_total",
        "espejismo_handshake_failure_total", "espejismo_stream_opened_total",
        "espejismo_stream_failed_total", "espejismo_egress_denied_total",
        "espejismo_session_rotations_total", "espejismo_key_updates_total",
        "espejismo_bytes_client_to_remote_total",
        "espejismo_bytes_remote_to_client_total"].map (fun name => (name, [role])) ++
      m.users.flatMap (fun user =>
        ["espejismo_user_handshake_success_total", "espejismo_user_stream_opened_total",
          "espejismo_user_bytes_client_to_remote_total",
          "espejismo_user_bytes_remote_to_client_total"].map fun name => (name, [role, user.1])) ++
      m.streamFailureReasons.map (fun reason =>
        ("espejismo_stream_failure_reason_total", [role, reason.1])) ∧
    (lines.map readLine).Nodup := by
  have hre : ((m.samples role).map Sample.line).map readLine =
      (m.samples role).map fun s => ("espejismo_" ++ s.name, s.labels.map Prod.snd) := by
    rw [map_map]
    exact map_congr_left fun s hs => readLine_line hs
  have hur : ∀ user ∈ m.users, user.2.user = user.1 := map_inj_left.mp h.user
  refine ⟨_, splitOn_renderPrometheus m role, ?_, ?_⟩
  · rw [hre]
    simp only [samples, map_append, map_map, map_flatMap]
    refine congrArg₂ _ (congrArg₂ _ rfl (flatMap_congr fun user hme => ?_)) rfl
    simp only [userCounters, userMetric, hur user hme]
    rfl
  · rw [hre]
    refine pairwise_map.mpr ((pairwise_map.mp (nodup_samples h role)).imp fun hne heq => hne ?_)
    obtain ⟨hn, hva⟩ := Prod.mk.inj heq
    exact Prod.ext (String.append_right_inj _ |>.mp hn) hva

theorem prometheus_unambiguous_quote :
    (∃ user ∈ (run {} [.userStreamOpened "a\"b", .streamFailedReason "c"]).users, user.1 = "a\"b") ∧
    ∃ lines, ((run {} [.userStreamOpened "a\"b", .streamFailedReason "c"]).renderPrometheus
      "r").splitOn '\n' = lines ++ [[]] ∧ lines.length = 17 ∧ (lines.map readLine).Nodup := by
  obtain ⟨lines, hli, hre, hno⟩ := prometheus_unambiguous _
    (distinct_run [.userStreamOpened "a\"b", .streamFailedReason "c"]) "r"
  have hle := congrArg length hre
  rw [length_map] at hle
  exact ⟨⟨_, mem_singleton_self _, rfl⟩, lines, hli, hle, hno⟩

end Metrics

end Espejismo
