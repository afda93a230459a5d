import Mathlib.Data.Set.Function
import Mathlib.Order.SuccPred.IntervalSucc
import Mathlib.Tactic.IntervalCases

/-!
# Server.Fallback.Date

The dates of the fallback page (`http_date` of `fallback.rs`).  `civil_from_days` counts
in eras of 400 years that begin on 1 March; here its dates are compared with a calendar
that goes from day to day (`Date.next`).
-/

namespace Espejismo

open List

structure Date where
  year : Int
  month : Nat
  day : Nat

def civilFromDays (daysSinceEpoch : Int) : Date :=
  let z := daysSinceEpoch + 719468
  let era := (if z ≥ 0 then z else z - 146096).tdiv 146097
  -- from here on nothing is negative that is divided
  let doe := z - era * 146097
  let yoe := (doe - doe / 1460 + doe / 36524 - doe / 146096) / 365
  let y := yoe + era * 400
  let doy := doe - (365 * yoe + yoe / 4 - yoe / 100)
  let mp := (5 * doy + 2) / 153
  let day := doy - (153 * mp + 2) / 5 + 1
  let month := mp + if mp < 10 then 3 else -9
  let year := y + if month ≤ 2 then 1 else 0
  ⟨year.bmod (2 ^ 32), month.toNat, day.toNat⟩

def padded (width : Nat) (n : Int) : String :=
  let sign := if n < 0 then "-" else ""
  let digits := toString n.natAbs
  sign ++ .ofList (.replicate (width - sign.length - digits.length) '0') ++ digits

def formatDate (weekday : String) (day : Nat) (monthName : String) (year hour minute second : Int) :
    String :=
  weekday ++ ", " ++ padded 2 day ++ " " ++ monthName ++ " " ++ padded 4 year ++ " " ++
    padded 2 hour ++ ":" ++ padded 2 minute ++ ":" ++ padded 2 second ++ " GMT"

def months : List String :=
  ["Jan", "Feb", "Mar", "Apr", "May", "Jun", "Jul", "Aug", "Sep", "Oct", "Nov", "Dec"]

def unixSecs (time : Int) : Nat :=
  (time / 10 ^ 9).toNat

def httpDate (time : Int) : String :=
  let secs : Int := unixSecs time
  let days := secs / 86400
  let daySecs := secs % 86400
  let date := civilFromDays days
  let weekdays := ["Thu", "Fri", "Sat", "Sun", "Mon", "Tue", "Wed"]
  formatDate (weekdays.getD (days % 7).toNat "") date.day
    (months.getD (date.month - 1) "") date.year
    (daySecs / 3600) (daySecs % 3600 / 60) (daySecs % 60)

def weekday (days : Nat) : String :=
  ["Mon", "Tue", "Wed", "Thu", "Fri", "Sat", "Sun"].getD ((days + 3) % 7) ""

theorem weekday_eq (days : Nat) : weekday days =
    ["Thu", "Fri", "Sat", "Sun", "Mon", "Tue", "Wed"].getD (days % 7) "" := by
  have hlt : days % 7 < 7 := Nat.mod_lt _ (by decide)
  rw [weekday, Nat.add_mod]
  generalize days % 7 = r at hlt
  interval_cases r <;> rfl

/-- The last `width` digits of a number. -/
def decimals : (width n : Nat) → String
  | 0, _ => ""
  | width + 1, n => (decimals width (n / 10)).push (n % 10).digitChar

theorem decimals_zero (width : Nat) : (decimals width 0).toList = replicate width '0' := by
  induction width with
  | zero => rfl
  | succ width ih =>
    rw [decimals, String.toList_push, ih, replicate_succ']
    rfl

theorem replicate_toDigits (h : n < 10 ^ (width + 1)) :
    replicate (width + 1 - (Nat.toDigits 10 n).length) '0' ++ Nat.toDigits 10 n =
      (decimals (width + 1) n).toList := by
  induction width generalizing n with
  | zero =>
    rw [Nat.toDigits_of_lt_base (by omega), decimals, decimals, Nat.mod_eq_of_lt (by omega),
      String.toList_push]
    rfl
  | succ width ih =>
    rw [decimals, String.toList_push]
    by_cases hn : n < 10
    · rw [Nat.toDigits_of_lt_base hn, Nat.div_eq_of_lt hn, decimals_zero, Nat.mod_eq_of_lt hn]
      rfl
    · rw [Nat.toDigits_of_base_le (by decide) (by omega), ← ih (by omega), length_append,
        length_singleton, Nat.add_sub_add_right, append_assoc]

theorem padded_eq (width : Nat) {n : Nat} (h : n < 10 ^ (width + 1)) :
    padded (width + 1) n = decimals (width + 1) n := by
  apply String.toList_inj.mp
  rw [← replicate_toDigits h]
  have hsi : ¬ (n : Int) < 0 := by omega
  simp [padded, Nat.repr, hsi]

namespace Date

def monthName : (month : Nat) → String
  | 1 => "Jan" | 2 => "Feb" | 3 => "Mar" | 4 => "Apr" | 5 => "May" | 6 => "Jun"
  | 7 => "Jul" | 8 => "Aug" | 9 => "Sep" | 10 => "Oct" | 11 => "Nov" | 12 => "Dec"
  | _ => ""

def monthLength (year : Int) (month : Nat) : Nat :=
  if month = 2 then if year % 4 = 0 ∧ (year % 100 ≠ 0 ∨ year % 400 = 0) then 29 else 28
  else if month ∈ [4, 6, 9, 11] then 30 else 31

def Valid (d : Date) : Prop :=
  1 ≤ d.month ∧ d.month ≤ 12 ∧ 1 ≤ d.day ∧ d.day ≤ monthLength d.year d.month

def next (d : Date) : Date :=
  if d.day < monthLength d.year d.month then { d with day := d.day + 1 }
  else if d.month < 12 then ⟨d.year, d.month + 1, 1⟩
  else ⟨d.year + 1, 1, 1⟩

def epoch : Date := ⟨1970, 1, 1⟩

def Before (d e : Date) : Prop :=
  d.year < e.year ∨ d.year = e.year ∧ (d.month < e.month ∨ d.month = e.month ∧ d.day < e.day)

instance : IsTrans Date Before where
  trans d e f := by
    unfold Before
    omega

/-- The number of a date, in a year that begins on 1 March. -/
def number (d : Date) : Int :=
  let y := if d.month ≤ 2 then d.year - 1 else d.year
  365 * y + y / 4 - y / 100 + y / 400 + (153 * ((d.month + 9) % 12 : Nat) + 2) / 5 + d.day - 719469

variable {d : Date}

theorem valid_next (h : d.Valid) : d.next.Valid := by
  unfold Valid next at *
  grind [monthLength]

theorem before_next (d : Date) : d.Before d.next := by
  unfold Before next
  grind

theorem number_next (h : d.Valid) : d.next.number = d.number + 1 := by
  obtain ⟨year, month, day⟩ := d
  obtain ⟨hm, hm', hd, hd'⟩ := h
  simp only at hm hm' hd hd'
  unfold next
  split
  · simp only [number]
    omega
  · simp only [monthLength] at *
    interval_cases month <;> simp [number] at * <;> grind

theorem iterate_next (h : d.Valid) (n : Nat) :
    (next^[n] d).Valid ∧ (next^[n] d).number = d.number + n := by
  induction n with
  | zero => exact ⟨h, by simp⟩
  | succ n ih =>
    rw [Function.iterate_succ_apply', number_next ih.1, ih.2]
    exact ⟨valid_next ih.1, by grind⟩

theorem year_iterate (n : Nat) : d.year ≤ (next^[n] d).year := by
  induction n with
  | zero => exact le_rfl
  | succ n ih =>
    rw [Function.iterate_succ_apply']
    refine ih.trans ?_
    unfold next
    grind

theorem getD_months (h : d.Valid) : months.getD (d.month - 1) "" = monthName d.month := by
  obtain ⟨hm, hm', -⟩ := h
  generalize d.month = month at *
  interval_cases month <;> rfl

theorem day_lt (h : d.Valid) : d.day < 10 ^ 2 := by
  have := h.2.2.2
  unfold monthLength at this
  grind

theorem valid_epoch : epoch.Valid := by simp [Valid, monthLength, epoch]

theorem number_sub_eras (d : Date) (k : Int) :
    { d with year := d.year - 400 * k }.number = d.number - 146097 * k := by
  simp only [number]
  split <;> omega

theorem exists_number (n : Int) : ∃ d : Date, d.Valid ∧ d.number = n := by
  obtain ⟨hd, hn⟩ := iterate_next valid_epoch (n + 146097 * n.natAbs).toNat
  rw [show epoch.number = 0 from rfl] at hn
  generalize next^[_] epoch = d at hd hn
  refine ⟨{ d with year := d.year - 400 * n.natAbs }, ?_, (number_sub_eras _ _).trans ?_⟩
  · unfold Valid monthLength at *
    grind
  · omega

theorem year_of_era {y doy doe : Int} (h0 : 0 ≤ doy) (h365 : doy ≤ 365)
    (hle : doy = 365 → y % 4 = 3 ∧ (y % 100 ≤ 95 ∨ y % 400 / 100 = 3))
    (hdo : doe = 36524 * (y % 400 / 100) + 1461 * (y % 100 / 4) + 365 * (y % 4) + doy) :
    (doe - doe / 1460 + doe / 36524 - doe / 146096) / 365 = y % 400 := by
  obtain ⟨c, hc⟩ : ∃ c, c = y % 400 / 100 := ⟨_, rfl⟩
  obtain ⟨q, hq⟩ : ∃ q, q = y % 100 / 4 := ⟨_, rfl⟩
  have hy : y % 400 = 100 * c + 4 * q + y % 4 := by omega
  have h1460 : doe / 1460 = 25 * c + q + if 1460 ≤ 24 * c + q + 365 * (y % 4) +
      doy then 1 else 0 := by
    split <;> omega
  have h36524 : doe / 36524 = c + if doe = 146096 then 1 else 0 := by split <;> omega
  have h146096 : doe / 146096 = if doe = 146096 then 1 else 0 := by split <;> omega
  rw [h1460, h36524, h146096, hy]
  split <;> split <;> omega

theorem era_eq (z : Int) : (if z ≥ 0 then z else z - 146096).tdiv 146097 = z / 146097 := by
  split
  · exact Int.tdiv_eq_ediv_of_nonneg ‹_›
  · rw [← Int.neg_sub 146096 z, Int.neg_tdiv, Int.tdiv_eq_ediv_of_nonneg (by omega)]
    omega

theorem days_of_eras (y : Int) : y / 4 - y / 100 + y / 400 =
    97 * (y / 400) + 24 * (y % 400 / 100) + y % 100 / 4 := by
  have h100 : y / 100 = 4 * (y / 400) + y % 400 / 100 := by omega
  have h4 : y / 4 = 25 * (y / 100) + y % 100 / 4 := by omega
  omega

theorem civilFromDays_number (h : d.Valid) :
    civilFromDays d.number = { d with year := d.year.bmod (2 ^ 32) } := by
  obtain ⟨hm, hm', hd, hd'⟩ := h
  obtain ⟨mp, hmp⟩ : ∃ mp : Int, mp = ((d.month + 9) % 12 : Nat) := ⟨_, rfl⟩
  obtain ⟨y, hy⟩ : ∃ y, y = if d.month ≤ 2 then d.year - 1 else d.year := ⟨_, rfl⟩
  obtain ⟨doy, hdoy⟩ : ∃ doy, doy = (153 * mp + 2) / 5 + d.day - 1 := ⟨_, rfl⟩
  have hz : d.number + 719468 = 365 * y + y / 4 - y / 100 + y / 400 + doy := by
    simp only [number, ← hmp, ← hy]
    omega
  have hra : 0 ≤ doy ∧ doy ≤ 365 ∧ (5 * doy + 2) / 153 = mp ∧
      (doy = 365 → y % 4 = 3 ∧ (y % 100 ≤ 95 ∨ y % 400 / 100 = 3)) := by
    unfold monthLength at hd'
    generalize d.month = month at *
    interval_cases month <;> simp at hmp hy hd' <;> grind
  obtain ⟨h0, h365, hmo, hle⟩ := hra
  obtain ⟨doe, hdo⟩ : ∃ doe, doe =
    36524 * (y % 400 / 100) + 1461 * (y % 100 / 4) + 365 * (y % 4) + doy := ⟨_, rfl⟩
  have hdys := days_of_eras y
  have hsu : d.number + 719468 - y / 400 * 146097 = doe := by omega
  have hera : (d.number + 719468) / 146097 = y / 400 := by omega
  have hdy : doe - (365 * (y % 400) + y % 400 / 4 - y % 400 / 100) = doy := by omega
  simp only [civilFromDays, era_eq, hera, hsu, year_of_era h0 h365 hle hdo, hdy, hmo]
  congr 1
  · congr 1
    grind
  · grind
  · omega

/-- The days of the years of an `i32`. -/
def i32Days : Set Int := {n | -784353015833 ≤ n ∧ n ≤ 784351576776}

theorem year_bounds (h : d.Valid) : (-784353015833 ≤ d.number ↔ -2 ^ 31 ≤ d.year) ∧
    (d.number ≤ 784351576776 ↔ d.year < 2 ^ 31) := by
  obtain ⟨hm, hm', hd, hd'⟩ := h
  unfold monthLength at hd'
  simp only [number]
  generalize d.month = month at *
  interval_cases month <;> simp at hd' ⊢ <;> grind

theorem number_mem_iff (h : d.Valid) : d.number ∈ i32Days ↔ -2 ^ 31 ≤ d.year ∧ d.year < 2 ^ 31 :=
  and_congr (year_bounds h).1 (year_bounds h).2

theorem civilFromDays_eq (h : d.Valid) (hn : d.number ∈ i32Days) : civilFromDays d.number = d := by
  have := (number_mem_iff h).1 hn
  rw [civilFromDays_number h, Int.bmod_eq_of_le (by omega) (by omega)]

/-- **Fallback dates**: the text has the weekday, the date and the time of day in digits, for every
time in a year up to 9999; and the dates that are computed are, in their order, all those of the
years of an `i32`. -/
theorem http_date_correct :
    (∀ days hour minute second nanos : Nat, (next^[days] epoch).year ≤ 9999 →
      hour < 24 → minute < 60 → second < 60 → nanos < 10 ^ 9 →
      httpDate ((86400 * days + 3600 * hour + 60 * minute + second) * 10 ^ 9 + nanos) =
        let date := next^[days] epoch
        weekday days ++ ", " ++ decimals 2 date.day ++ " " ++ monthName date.month ++ " " ++
          decimals 4 date.year.toNat ++ " " ++ decimals 2 hour ++ ":" ++ decimals 2 minute ++ ":" ++
          decimals 2 second ++ " GMT") ∧
    Set.BijOn civilFromDays i32Days
      {d | d.Valid ∧ -2 ^ 31 ≤ d.year ∧ d.year < 2 ^ 31} ∧
    ∀ m ∈ i32Days, ∀ n ∈ i32Days, m < n → (civilFromDays m).Before (civilFromDays n) := by
  refine ⟨?_, ⟨?_, ?_, ?_⟩, ?_⟩
  · intro days hour minute second nanos hye hhou hmin hsec hnan
    obtain ⟨hd, hn⟩ := iterate_next valid_epoch days
    have hze : epoch.number = 0 := rfl
    rw [hze, zero_add] at hn
    have hfir : (1970 : Int) ≤ (next^[days] epoch).year := year_iterate days
    have hda := civilFromDays_eq hd ⟨by omega, (year_bounds hd).2.2 (by omega)⟩
    rw [hn] at hda
    obtain ⟨secs, hscs⟩ : ∃ secs : Nat,
      secs = 86400 * days + 3600 * hour + 60 * minute + second := ⟨_, rfl⟩
    have hun : unixSecs ((86400 * days + 3600 * hour + 60 * minute + second) * 10 ^ 9 + nanos) =
        secs := by
      unfold unixSecs
      omega
    simp only [httpDate, hun]
    rw [show (secs : Int) / 86400 = days by omega, show (days % 7 : Int).toNat = days % 7 by omega,
      show (secs % 86400 / 3600 : Int) = hour by omega,
      show (secs % 86400 % 3600 / 60 : Int) = minute by omega,
      show (secs % 86400 % 60 : Int) = second by omega, hda, weekday_eq, getD_months hd,
      ← Int.toNat_of_nonneg (by omega : 0 ≤ (next^[days] epoch).year), formatDate]
    rw [padded_eq 1 (day_lt hd), padded_eq 3 (by omega),
      padded_eq 1 (by omega : hour < 100), padded_eq 1 (by omega : minute < 100),
      padded_eq 1 (by omega : second < 100), Int.toNat_of_nonneg (by omega)]
  · intro n hn
    obtain ⟨d, hd, rfl⟩ := exists_number n
    rw [civilFromDays_eq hd hn]
    exact ⟨hd, (number_mem_iff hd).1 hn⟩
  · intro m hm n hn heq
    obtain ⟨d, hd, rfl⟩ := exists_number m
    obtain ⟨e, he, rfl⟩ := exists_number n
    rw [civilFromDays_eq hd hm, civilFromDays_eq he hn] at heq
    rw [heq]
  · rintro d ⟨hd, hye⟩
    have hn := (number_mem_iff hd).2 hye
    exact ⟨d.number, hn, civilFromDays_eq hd hn⟩
  · intro m hm n hn hlt
    obtain ⟨d, hd, rfl⟩ := exists_number m
    obtain ⟨k, rfl⟩ : ∃ k : Nat, n = d.number + k := ⟨(n - d.number).toNat, by omega⟩
    obtain ⟨he, hk⟩ := iterate_next hd k
    rw [← hk] at hn ⊢
    rw [civilFromDays_eq hd hm, civilFromDays_eq he hn]
    refine Nat.rel_of_forall_rel_succ_of_lt Before (f := fun k => next^[k] d) (fun k => ?_)
      (show 0 < k by omega)
    rw [Function.iterate_succ_apply']
    exact before_next _

end Date
end Espejismo
