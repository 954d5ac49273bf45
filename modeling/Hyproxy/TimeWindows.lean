import Hyproxy.PolicyEngine

/-!
What a time window means. A window has a set of days and two times of the day, and
means an interval on each of its days; when it starts after it ends, the interval
runs over midnight into the day after. The code asks for the day of the instant
itself on both sides of midnight, and the two readings differ in the early hours
when one of two days in a row is in the set and the other is not.
-/
namespace Hyproxy.TimeWindows

open PolicyEngine

/-- A window that is well formed; days are counted from Monday, times in minutes. -/
structure Window where
  days : ℕ → Bool
  start : ℕ
  stop : ℕ

/-- The days of a window: all of them when none are given. -/
def readDays (days : Json) : Option (ℕ → Bool) :=
  match days with
  | .null => some fun _ => true
  | .arr elems => some fun day => dayListed (.arr elems) (dayKeys.getD day [])
  | _ => none

def readWindow (window : Json) : Option Window :=
  match window with
  | .obj fields =>
    match readDays ((fields.lookup "days".toList).getD .null),
      parseHhmm ((fields.lookup "start".toList).getD (.str "00:00".toList)),
      parseHhmm ((fields.lookup "end".toList).getD (.str "23:59".toList)) with
    | some days, some start, some stop => some ⟨days, start, stop⟩
    | _, _, _ => none
  | _ => none

/-- What the code asks of an instant. -/
def Window.covers (w : Window) (now : ℕ) : Bool :=
  w.days (weekday now) &&
    if w.start ≤ w.stop then w.start ≤ minuteOfDay now && minuteOfDay now ≤ w.stop
    else w.start ≤ minuteOfDay now || minuteOfDay now ≤ w.stop

/-- The day of an instant and its minute, counted from the epoch. -/
def dayNumber (now : ℕ) : ℤ := (now / microsPerDay : ℕ)

def minuteNumber (now : ℕ) : ℤ := (now / microsPerMinute : ℕ)

/-- The weekday of a day that is counted from the epoch. -/
def weekdayOf (day : ℤ) : ℕ := ((day + 3) % 7).toNat

/-- The instant lies between the start on one of the days and the end on the same day, or on the
day after when the window crosses midnight. -/
def Window.Means (w : Window) (now : ℕ) : Prop :=
  if w.start ≤ w.stop then
    w.days (weekday now) = true ∧ w.start ≤ minuteOfDay now ∧ minuteOfDay now ≤ w.stop
  else
    ∃ day : ℤ, w.days (weekdayOf day) = true ∧ 1440 * day + w.start ≤ minuteNumber now ∧
      minuteNumber now ≤ 1440 * (day + 1) + w.stop

/-- In the early hours of a window that crosses midnight, both this day and the day before are in
the set or neither is. -/
def Window.Steady (w : Window) (now : ℕ) : Prop :=
  w.stop < w.start → minuteOfDay now ≤ w.stop →
    w.days (weekday now) = w.days (weekdayOf (dayNumber now - 1))

instance (w : Window) (now : ℕ) : Decidable (w.Steady now) :=
  inferInstanceAs (Decidable (_ → _ → _))

theorem decimal_le (c : Char) (value : ℕ) (h : decimal c = some value) : value ≤ 9 := by
  obtain ⟨first, hfirst, rfl⟩ := Option.map_eq_some_iff.mp h
  have hrange := List.find?_some hfirst
  simp only [Bool.and_eq_true, decide_eq_true_iff] at hrange
  omega

theorem decimal_digit (c : Char) (value : ℕ) (hlow : '0' ≤ c) (hhigh : c ≤ '9')
    (h : decimal c = some value) : value = c.toNat - 48 := by
  have hc : 48 ≤ c.toNat ∧ c.toNat ≤ 57 := ⟨hlow, hhigh⟩
  unfold decimal at h
  rw [decimalZeros, List.find?_cons_of_pos (by simp; omega)] at h
  exact (Option.some.inj h).symm

/-- One number of a time: a pair that is allowed, or a digit. -/
theorem takeNumber_some (two : Char → Char → Bool) (s rest : List Char) (n : ℕ)
    (h : takeNumber two s = some (n, rest)) :
    n ≤ 9 ∨ ∃ a b hi lo, two a b = true ∧ decimal a = some hi ∧ decimal b = some lo ∧
      n = 10 * hi + lo := by
  rcases s with _ | ⟨a, _ | ⟨b, tail⟩⟩
  · cases h
  · obtain ⟨value, hvalue, heq⟩ := Option.map_eq_some_iff.mp h
    obtain ⟨rfl, -⟩ := Prod.mk.inj heq
    exact Or.inl (decimal_le a _ hvalue)
  · simp only [takeNumber] at h
    split at h
    · rename_i hi lo htwo hhi hlo
      obtain ⟨rfl, -⟩ := Prod.mk.inj (Option.some.inj h)
      exact Or.inr ⟨a, b, hi, lo, htwo, hhi, hlo, rfl⟩
    · rename_i value hvalue _
      obtain ⟨rfl, -⟩ := Prod.mk.inj (Option.some.inj h)
      exact Or.inl (decimal_le a _ hvalue)
    · cases h

theorem takeHour_lt (s rest : List Char) (n : ℕ) (h : takeHour s = some (n, rest)) : n < 24 := by
  rcases takeNumber_some _ s rest n h with hdigit | ⟨a, b, hi, lo, htwo, hhi, hlo, rfl⟩
  · omega
  · have hlow := decimal_le b lo hlo
    simp only [Bool.or_eq_true, Bool.and_eq_true, beq_iff_eq, decide_eq_true_iff] at htwo
    rcases htwo with ⟨⟨rfl, hb⟩, hb'⟩ | ⟨rfl | rfl, -⟩
    · have hlo' := decimal_digit b lo hb (Char.le_trans hb' (by decide)) hlo
      have hb3 : b.toNat ≤ 51 := hb'
      have hhi' := decimal_digit '2' hi (by decide) (by decide) hhi
      simp only [Char.reduceToNat] at hhi'
      omega
    · have hhi' := decimal_digit '0' hi (by decide) (by decide) hhi
      simp only [Char.reduceToNat] at hhi'
      omega
    · have hhi' := decimal_digit '1' hi (by decide) (by decide) hhi
      simp only [Char.reduceToNat] at hhi'
      omega

theorem takeMinute_lt (s rest : List Char) (n : ℕ) (h : takeMinute s = some (n, rest)) :
    n < 60 := by
  rcases takeNumber_some _ s rest n h with hdigit | ⟨a, b, hi, lo, htwo, hhi, hlo, rfl⟩
  · omega
  · have hlow := decimal_le b lo hlo
    simp only [Bool.and_eq_true, decide_eq_true_iff] at htwo
    have ha5 : a.toNat ≤ 53 := htwo.1.2
    have hhi' := decimal_digit a hi htwo.1.1 (Char.le_trans htwo.1.2 (by decide)) hhi
    omega

theorem parseHhmm_lt (value : Json) (n : ℕ) (h : parseHhmm value = some n) : n < 1440 := by
  unfold parseHhmm at h
  split at h
  · split at h
    · rename_i hour rest hhour
      split at h
      · rename_i minute hminute
        obtain rfl := Option.some.inj h
        have hh := takeHour_lt _ _ _ hhour
        have hm := takeMinute_lt _ _ _ hminute
        omega
      · cases h
    · cases h
  · cases h

/-- What a well formed window is made of. -/
theorem readWindow_some (window : Json) (w : Window) (h : readWindow window = some w) :
    ∃ fields, window = .obj fields ∧
      readDays ((fields.lookup "days".toList).getD .null) = some w.days ∧
      parseHhmm ((fields.lookup "start".toList).getD (.str "00:00".toList)) = some w.start ∧
      parseHhmm ((fields.lookup "end".toList).getD (.str "23:59".toList)) = some w.stop := by
  unfold readWindow at h
  split at h
  · rename_i fields
    split at h
    · rename_i days start stop hdays hstart hstop
      obtain rfl := Option.some.inj h
      exact ⟨fields, rfl, hdays, hstart, hstop⟩
    · cases h
  · cases h

theorem dayListed_eq (value : Json) (days : ℕ → Bool) (h : readDays value = some days) (day : ℕ) :
    dayListed value (dayKeys.getD day []) = days day := by
  unfold readDays at h
  split at h
  · obtain rfl := Option.some.inj h
    rfl
  · obtain rfl := Option.some.inj h
    rfl
  · cases h

/-- The code on a well formed window. -/
theorem windowMatches_eq (window : Json) (w : Window) (now : ℕ) (h : readWindow window = some w) :
    windowMatches window (dayKeys.getD (weekday now) []) (minuteOfDay now) = w.covers now := by
  obtain ⟨fields, rfl, hdays, hstart, hstop⟩ := readWindow_some window w h
  simp only [windowMatches, hstart, hstop, dayListed_eq _ _ hdays, Window.covers]

/-- A malformed window never matches. -/
theorem windowMatches_none (window : Json) (dayKey : List Char) (current : ℕ)
    (h : readWindow window = none) : windowMatches window dayKey current = false := by
  unfold readWindow at h
  split at h
  · rename_i fields
    simp only [windowMatches]
    split at h
    · cases h
    · rename_i hnone
      cases hdays : readDays ((fields.lookup "days".toList).getD .null) with
      | none =>
        have hlisted : dayListed ((fields.lookup "days".toList).getD .null) dayKey = false := by
          generalize (fields.lookup "days".toList).getD .null = days at hdays
          cases days <;> first | rfl | cases hdays
        rw [hlisted, Bool.false_and]
      | some days =>
        split
        · rename_i start stop hstart hstop
          exact (hnone days start stop hdays hstart hstop).elim
        · rw [Bool.and_false]
  · rename_i hobj
    unfold windowMatches
    split
    · exact (hobj _ rfl).elim
    · rfl

theorem minuteNumber_eq (now : ℕ) : minuteNumber now = 1440 * dayNumber now + minuteOfDay now := by
  unfold minuteNumber dayNumber minuteOfDay microsPerDay microsPerMinute
  omega

theorem minuteOfDay_lt (now : ℕ) : minuteOfDay now < 1440 := by
  unfold minuteOfDay microsPerDay microsPerMinute
  omega

theorem weekdayOf_dayNumber (now : ℕ) : weekdayOf (dayNumber now) = weekday now := by
  unfold weekdayOf dayNumber weekday
  omega

/-- A window that crosses midnight holds from its start on, and until its end on the day after. -/
theorem means_crossing_iff (w : Window) (now : ℕ) (hcross : w.stop < w.start)
    (hstop : w.stop < 1440) (hstart : w.start < 1440) :
    w.Means now ↔ (w.days (weekday now) = true ∧ w.start ≤ minuteOfDay now) ∨
      (w.days (weekdayOf (dayNumber now - 1)) = true ∧ minuteOfDay now ≤ w.stop) := by
  have hminute := minuteNumber_eq now
  have hlt := minuteOfDay_lt now
  rw [Window.Means, if_neg (by omega)]
  constructor
  · rintro ⟨day, hday, hfrom, huntil⟩
    have hcases : day = dayNumber now ∨ day = dayNumber now - 1 := by omega
    rcases hcases with rfl | rfl
    · rw [weekdayOf_dayNumber] at hday
      exact Or.inl ⟨hday, by omega⟩
    · exact Or.inr ⟨hday, by omega⟩
  · rintro (⟨hday, hfrom⟩ | ⟨hday, huntil⟩)
    · refine ⟨dayNumber now, ?_, by omega, by omega⟩
      rw [weekdayOf_dayNumber]
      exact hday
    · exact ⟨dayNumber now - 1, hday, by omega, by omega⟩

/-- The code reads a window as the interval that it means exactly when the early hours do not tell
the two readings apart. -/
theorem covers_iff_means (window : Json) (w : Window) (now : ℕ) (h : readWindow window = some w) :
    (w.covers now = true ↔ w.Means now) ↔ w.Steady now := by
  obtain ⟨_, -, -, hstart, hstop⟩ := readWindow_some window w h
  have hstart := parseHhmm_lt _ _ hstart
  have hstop := parseHhmm_lt _ _ hstop
  by_cases hcross : w.stop < w.start
  · rw [means_crossing_iff w now hcross hstop hstart]
    simp only [Window.covers, Window.Steady, if_neg (Nat.not_le.mpr hcross), Bool.and_eq_true,
      Bool.or_eq_true, decide_eq_true_iff, hcross, forall_true_left]
    by_cases hearly : minuteOfDay now ≤ w.stop
    · have hlate : ¬ w.start ≤ minuteOfDay now := by omega
      simp only [hearly, hlate, or_true, and_true, and_false, false_or, forall_true_left]
      exact Bool.eq_iff_iff.symm
    · simp only [hearly, or_false, and_false, false_implies]
  · simp only [Window.covers, Window.Means, Window.Steady, if_pos (Nat.not_lt.mp hcross), hcross,
      false_implies, Bool.and_eq_true, decide_eq_true_iff]

/-- A list of windows matches when one of them does; no window means always. -/
theorem timeWindowMatches_arr (conditions : Conditions) (elems : List Json) (now : ℕ)
    (h : conditions.lookup "time_windows".toList = some (.arr elems)) :
    timeWindowMatches conditions now = true ↔ elems = [] ∨ ∃ window ∈ elems,
      windowMatches window (dayKeys.getD (weekday now) []) (minuteOfDay now) = true := by
  unfold timeWindowMatches
  rw [h]
  cases elems with
  | nil => simp [Json.truthy]
  | cons first rest => simp [Json.truthy]

/-- The well formed windows of a list mean intervals to the code, and the list matches when a window
does, exactly at the instants at which all of them are steady. -/
theorem windows_mean_intervals (conditions : Conditions) (elems : List Json) (now : ℕ)
    (hlist : conditions.lookup "time_windows".toList = some (.arr elems)) :
    ((∀ window ∈ elems, ∀ w, readWindow window = some w →
        (windowMatches window (dayKeys.getD (weekday now) []) (minuteOfDay now) = true ↔
          w.Means now)) ∧
      (timeWindowMatches conditions now = true ↔ elems = [] ∨ ∃ window ∈ elems,
        windowMatches window (dayKeys.getD (weekday now) []) (minuteOfDay now) = true)) ↔
      ∀ window ∈ elems, ∀ w, readWindow window = some w → w.Steady now := by
  rw [and_iff_left (timeWindowMatches_arr conditions elems now hlist)]
  refine forall₄_congr fun window _ w hread => ?_
  rw [windowMatches_eq window w now hread]
  exact covers_iff_means window w now hread

def sampleWindow (days : List String) (start stop : String) : Json :=
  .obj [("days".toList, .arr (days.map fun d => .str d.toList)), ("start".toList, .str start.toList),
    ("end".toList, .str stop.toList)]

/-- Five in the morning of Tuesday, 30 June 2026. -/
def tuesdayMorning : ℕ := 20634 * microsPerDay + 300 * microsPerMinute

def mondayNight : Window :=
  ⟨fun day => dayListed (.arr [.str "mon".toList]) (dayKeys.getD day []), 1320, 360⟩

theorem readWindow_mondayNight :
    readWindow (sampleWindow ["mon"] "22:00" "06:00") = some mondayNight := rfl

/-- After the end of the window its days no longer matter. -/
theorem windows_mean_intervals_sample :
    windowMatches (sampleWindow ["mon"] "22:00" "06:00")
        (dayKeys.getD (weekday (tuesdayMorning + 7200000000)) [])
        (minuteOfDay (tuesdayMorning + 7200000000)) = true ↔
      mondayNight.Means (tuesdayMorning + 7200000000) := by
  refine ((windows_mean_intervals [("time_windows".toList,
    .arr [sampleWindow ["mon"] "22:00" "06:00"])] _ (tuesdayMorning + 7200000000) rfl).mpr ?_).1
      _ (List.mem_singleton_self _) mondayNight readWindow_mondayNight
  intro window hwindow w hread
  rw [List.mem_singleton.mp hwindow, readWindow_mondayNight] at hread
  obtain rfl := Option.some.inj hread
  decide

/-- The night from Monday to Tuesday is not matched on Tuesday morning, although the window means
it. -/
theorem monday_night_missed :
    ¬ ∀ (window : Json) (w : Window) (now : ℕ), readWindow window = some w →
      (windowMatches window (dayKeys.getD (weekday now) []) (minuteOfDay now) = true ↔
        w.Means now) := by
  intro h
  have hiff := h (sampleWindow ["mon"] "22:00" "06:00") mondayNight tuesdayMorning
    readWindow_mondayNight
  have hmeans : mondayNight.Means tuesdayMorning :=
    (means_crossing_iff mondayNight tuesdayMorning (by decide) (by decide) (by decide)).mpr
      (Or.inr (by decide))
  exact absurd (hiff.mpr hmeans) (by decide)

end Hyproxy.TimeWindows
