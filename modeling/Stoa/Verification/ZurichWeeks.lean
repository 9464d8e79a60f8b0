import Stoa.Model.Values

/-! # Zurich weeks partition time

A week is found from the local date alone, and validated by arithmetic of its own.
Both agree on every Monday, and a Monday is told by its ISO year and week. -/

namespace Stoa

/-! ## The calendar -/

theorem daysBeforeYear_succ (year : ℤ) :
    daysBeforeYear year + 365 ≤ daysBeforeYear (year + 1) ∧
      daysBeforeYear (year + 1) ≤ daysBeforeYear year + 366 := by
  simp only [daysBeforeYear]
  omega

/-- Four centuries, a century, four years and one year each have their days. -/
theorem daysBeforeYear_cycles (n400 n100 n4 n1 : ℤ) (h100 : 0 ≤ n100 ∧ n100 ≤ 3) (h4 : 0 ≤ n4 ∧ n4 ≤ 24)
    (h1 : 0 ≤ n1 ∧ n1 ≤ 3) :
    daysBeforeYear (n400 * 400 + 1 + n100 * 100 + n4 * 4 + n1) =
      n400 * 146097 + n100 * 36524 + n4 * 1461 + n1 * 365 := by
  have hyear : n400 * 400 + 1 + n100 * 100 + n4 * 4 + n1 - 1 = 4 * (25 * (4 * n400 + n100) + n4) + n1 := by
    omega
  simp only [daysBeforeYear, hyear]
  omega

/-- An ordinal lies in its year. -/
theorem yearOf_spec (ordinal : ℤ) :
    daysBeforeYear (yearOf ordinal) < ordinal ∧ ordinal ≤ daysBeforeYear (yearOf ordinal + 1) := by
  obtain ⟨n400, d400, h400⟩ : ∃ n400 d400, n400 = (ordinal - 1) / 146097 ∧ d400 = (ordinal - 1) % 146097 :=
    ⟨_, _, rfl, rfl⟩
  obtain ⟨n100, d100, h100⟩ : ∃ n100 d100, n100 = d400 / 36524 ∧ d100 = d400 % 36524 := ⟨_, _, rfl, rfl⟩
  obtain ⟨n4, d4, h4⟩ : ∃ n4 d4, n4 = d100 / 1461 ∧ d4 = d100 % 1461 := ⟨_, _, rfl, rfl⟩
  obtain ⟨n1, d1, h1⟩ : ∃ n1 d1, n1 = d4 / 365 ∧ d1 = d4 % 365 := ⟨_, _, rfl, rfl⟩
  have hsum : ordinal = n400 * 146097 + n100 * 36524 + n4 * 1461 + n1 * 365 + d1 + 1 := by omega
  have hyear : yearOf ordinal =
      if n1 = 4 ∨ n100 = 4 then n400 * 400 + 1 + n100 * 100 + n4 * 4 + n1 - 1
      else n400 * 400 + 1 + n100 * 100 + n4 * 4 + n1 := by
    simp only [yearOf, h400.1, h400.2, h100.1, h100.2, h4.1, h4.2, h1.1]
  have hsucc := daysBeforeYear_succ (yearOf ordinal)
  rw [hyear] at hsucc ⊢
  by_cases hlast : n1 = 4 ∨ n100 = 4
  · -- the last day of a leap year
    rw [if_pos hlast] at hsucc ⊢
    rcases hlast with hlast | hlast
    · have hdays := daysBeforeYear_cycles n400 n100 n4 3
        (by omega) (by omega) (by omega)
      have hnext := daysBeforeYear_cycles n400 n100 (n4 + 1) 0
        (by omega) (by omega) (by omega)
      rw [show n400 * 400 + 1 + n100 * 100 + n4 * 4 + n1 - 1 = n400 * 400 + 1 + n100 * 100 + n4 * 4 + 3 by omega,
        show n400 * 400 + 1 + n100 * 100 + n4 * 4 + 3 + 1 =
          n400 * 400 + 1 + n100 * 100 + (n4 + 1) * 4 + 0 by omega]
      omega
    · have hdays := daysBeforeYear_cycles n400 3 24 3
        (by omega) (by omega) (by omega)
      have hnext := daysBeforeYear_cycles (n400 + 1) 0 0 0
        (by omega) (by omega) (by omega)
      rw [show n400 * 400 + 1 + n100 * 100 + n4 * 4 + n1 - 1 = n400 * 400 + 1 + 3 * 100 + 24 * 4 + 3 by omega,
        show n400 * 400 + 1 + 3 * 100 + 24 * 4 + 3 + 1 = (n400 + 1) * 400 + 1 + 0 * 100 + 0 * 4 + 0 by omega]
      omega
  · rw [if_neg hlast] at hsucc ⊢
    have hdays := daysBeforeYear_cycles n400 n100 n4 n1 (by omega) (by omega)
      (by omega)
    omega

/-- An ISO year starts near the first of January. -/
theorem isoWeek1Monday_bounds (year : ℤ) :
    daysBeforeYear year - 2 ≤ isoWeek1Monday year ∧ isoWeek1Monday year ≤ daysBeforeYear year + 4 := by
  unfold isoWeek1Monday
  dsimp only
  split <;> omega

theorem weekday_isoWeek1Monday (year : ℤ) : weekday (isoWeek1Monday year) = 0 := by
  unfold isoWeek1Monday weekday
  dsimp only
  split <;> omega

/-- A Monday is told by its ISO year and week, and the week is one of 53. -/
theorem isocalendar_monday {monday : ℤ} (h : weekday monday = 0) :
    monday = isoWeek1Monday (isocalendar monday).1 + 7 * ((isocalendar monday).2 - 1) ∧
      1 ≤ (isocalendar monday).2 ∧ (isocalendar monday).2 ≤ 53 := by
  obtain ⟨hafter, hbefore⟩ := yearOf_spec monday
  have hnext := daysBeforeYear_succ (yearOf monday)
  have hlast := daysBeforeYear_succ (yearOf monday - 1)
  rw [Int.sub_add_cancel] at hlast
  have hbounds := isoWeek1Monday_bounds (yearOf monday)
  have hbounds' := isoWeek1Monday_bounds (yearOf monday + 1)
  have hbounds'' := isoWeek1Monday_bounds (yearOf monday - 1)
  have hday := weekday_isoWeek1Monday (yearOf monday)
  have hday' := weekday_isoWeek1Monday (yearOf monday + 1)
  have hday'' := weekday_isoWeek1Monday (yearOf monday - 1)
  unfold weekday at h hday hday' hday''
  unfold isocalendar
  dsimp only
  split
  · dsimp only
    omega
  · split
    · dsimp only
      omega
    · dsimp only
      omega

theorem monday_eq {monday monday' : ℤ} (h : weekday monday = 0) (h' : weekday monday' = 0)
    (heq : isocalendar monday = isocalendar monday') : monday = monday' := by
  have hmonday := (isocalendar_monday h).1
  rw [heq] at hmonday
  exact hmonday.trans (isocalendar_monday h').1.symm

/-- Every year of a Monday that `datetime` has is one that a week may have. -/
theorem isocalendar_year {monday : ℤ} (hfirst : 1 ≤ monday) (hlast : monday ≤ 3652059) :
    1 ≤ (isocalendar monday).1 ∧ (isocalendar monday).1 ≤ 9999 := by
  obtain ⟨hafter, hbefore⟩ := yearOf_spec monday
  have hyear : 1 ≤ yearOf monday ∧ yearOf monday ≤ 9999 := by
    simp only [daysBeforeYear] at hafter hbefore
    omega
  have hfirstYear : isoWeek1Monday 1 = 1 := by decide
  have hafterLast : isoWeek1Monday 10000 = 3652062 := by decide
  unfold isocalendar
  dsimp only
  split
  · rename_i hweek
    have hne : yearOf monday ≠ 1 := by
      intro heq
      rw [heq, hfirstYear] at hweek
      omega
    dsimp only
    omega
  · split
    · rename_i hnext
      have hne : yearOf monday ≠ 9999 := by
        intro heq
        rw [heq, show (9999 : ℤ) + 1 = 10000 by decide, hafterLast] at hnext
        omega
      dsimp only
      omega
    · exact hyear

/-! ## Weeks of a zone -/

/-- The wall clock reading of a day's midnight. -/
def midnight (day : ℤ) : ℤ := (day - 719163) * MICROSECONDS_PER_DAY

/-- The Monday of the week in which an instant falls, by its local date. -/
def mondayOf (zone : Zone) (t : Instant) : ℤ :=
  ordinal (zone.wall t) - weekday (ordinal (zone.wall t))

/-- What is relied on of the zone: the offset is between zero and two hours, every
Monday midnight exists, and it is unambiguous, that is, the clock is never set back
to it or over it. -/
structure Zone.IsZurich (zone : Zone) : Prop where
  nonneg : ∀ t, 0 ≤ zone.utcoffset t
  le : ∀ t, zone.utcoffset t ≤ 7200000000
  exists_ : ∀ day, weekday day = 0 → zone.wall (zone.instant (midnight day)) = midnight day
  unambiguous : ∀ day, weekday day = 0 → ∀ t, midnight day ≤ zone.wall t → midnight day < zone.wall (t + 1)

theorem ordinal_midnight (day : ℤ) : ordinal (midnight day) = day := by
  unfold ordinal midnight MICROSECONDS_PER_DAY
  omega

theorem weekday_mondayOf (zone : Zone) (t : Instant) : weekday (mondayOf zone t) = 0 := by
  unfold mondayOf weekday
  omega

theorem weekday_next {monday : ℤ} (h : weekday monday = 0) : weekday (monday + 7) = 0 := by
  unfold weekday at h ⊢
  omega

/-- The local reading of an instant lies in the week of its Monday, and in no other. -/
theorem mondayOf_eq_iff {zone : Zone} {t : Instant} {monday : ℤ} (h : weekday monday = 0) :
    mondayOf zone t = monday ↔ midnight monday ≤ zone.wall t ∧ zone.wall t < midnight (monday + 7) := by
  unfold mondayOf midnight ordinal
  unfold weekday at h ⊢
  unfold MICROSECONDS_PER_DAY
  omega

section

variable {zone : Zone}

/-- A clock that shows a reading, and is never set back to it or over it, shows it
once and is past it from then on. -/
theorem reading_le_wall_iff {wall : ℤ → ℤ} {start reading : ℤ} (hshows : wall start = reading)
    (hback : ∀ t, reading ≤ wall t → reading < wall (t + 1)) (t : ℤ) : reading ≤ wall t ↔ start ≤ t := by
  have hlater : ∀ (n : ℕ) (u : ℤ), reading ≤ wall u → reading < wall (u + (n + 1)) := by
    intro n u hu
    induction n with
    | zero => exact hback u hu
    | succ n ih =>
        rw [show u + (((n + 1 : ℕ) : ℤ) + 1) = u + (n + 1) + 1 by omega]
        exact hback _ (by omega)
  constructor
  · intro hpast
    by_contra hlt
    have hstart := hlater (start - t - 1).toNat t hpast
    rw [show t + (((start - t - 1).toNat : ℤ) + 1) = start by omega] at hstart
    omega
  · intro hle
    by_cases heq : t = start
    · rw [heq, hshows]
    · have hpast := hlater (t - start - 1).toNat start (by omega)
      rw [show start + (((t - start - 1).toNat : ℤ) + 1) = t by omega] at hpast
      omega

theorem Zone.IsZurich.midnight_le_wall (hz : zone.IsZurich) {monday : ℤ} (h : weekday monday = 0) (t : Instant) :
    midnight monday ≤ zone.wall t ↔ zone.instant (midnight monday) ≤ t :=
  reading_le_wall_iff (hz.exists_ monday h) (hz.unambiguous monday h) t

/-- An instant lies in the week of its Monday, and in no other. -/
theorem Zone.IsZurich.mondayOf_eq_iff (hz : zone.IsZurich) {monday : ℤ} (h : weekday monday = 0) (t : Instant) :
    mondayOf zone t = monday ↔
      zone.instant (midnight monday) ≤ t ∧ t < zone.instant (midnight (monday + 7)) := by
  rw [Stoa.mondayOf_eq_iff h, hz.midnight_le_wall h, ← Int.not_le, hz.midnight_le_wall (weekday_next h),
    Int.not_le]

/-! ## The week of an instant -/

/-- The attributes of the week that starts on a Monday. -/
def weekFields (zone : Zone) (monday : ℤ) : WeekFields where
  isoYear := (isocalendar monday).1
  isoWeek := (isocalendar monday).2
  windowStart := zone.instant (midnight monday)
  windowEnd := zone.instant (midnight (monday + 7))

/-- A week that lies inside the range of `datetime`: from 0001-01-01 in UTC to the
end of 9999-12-31 on the wall clock. -/
structure WeekInRange (zone : Zone) (t : Instant) : Prop where
  first : midnight 1 ≤ zone.instant (midnight (mondayOf zone t))
  last : mondayOf zone t + 7 ≤ 3652059

theorem zurichWeek_eq (zone : Zone) (t : Instant) :
    zurichWeek zone t = ZurichWeek.modelValidate zone (weekFields zone (mondayOf zone t)) := rfl

theorem zurichWeek_eq_ok {t : Instant} {w : ZurichWeek zone} (h : zurichWeek zone t = .ok w) :
    w.toWeekFields = weekFields zone (mondayOf zone t) := by
  rw [zurichWeek_eq] at h
  unfold ZurichWeek.modelValidate at h
  split at h <;> cases h
  rfl

theorem isMondayMidnight (hz : zone.IsZurich) {monday : ℤ} (h : weekday monday = 0) :
    IsMondayMidnight zone (zone.instant (midnight monday)) := by
  unfold IsMondayMidnight
  rw [hz.exists_ monday h, ordinal_midnight]
  refine ⟨h, ?_⟩
  unfold midnight MICROSECONDS_PER_DAY
  omega

/-- The validator accepts the week of every Monday in range. -/
theorem weekFields_valid (hz : zone.IsZurich) {monday : ℤ} (h : weekday monday = 0) (hfirst : 1 ≤ monday)
    (hlast : monday ≤ 3652059) : (weekFields zone monday).IsZurichWeek zone where
  iso_year := isocalendar_year hfirst hlast
  iso_week := (isocalendar_monday h).2
  start_monday := isMondayMidnight hz h
  end_monday := isMondayMidnight hz (weekday_next h)
  seven_days := by
    change zone.wall (zone.instant (midnight (monday + 7))) = zone.wall (zone.instant (midnight monday)) + _
    rw [hz.exists_ monday h, hz.exists_ _ (weekday_next h)]
    unfold midnight MICROSECONDS_PER_DAY
    omega
  coordinates := by
    change _ = isocalendar (ordinal (zone.wall (zone.instant (midnight monday))))
    rw [hz.exists_ monday h, ordinal_midnight]
    rfl

theorem WeekInRange.first_monday (hz : zone.IsZurich) {t : Instant} (ht : WeekInRange zone t) :
    1 ≤ mondayOf zone t := by
  have hmonday := weekday_mondayOf zone t
  have hoffset := hz.nonneg (zone.instant (midnight (mondayOf zone t)))
  have hle : midnight 1 ≤ zone.wall (zone.instant (midnight (mondayOf zone t))) :=
    Int.le_trans ht.first (Int.le_add_of_nonneg_right hoffset)
  rw [hz.exists_ _ hmonday] at hle
  unfold midnight MICROSECONDS_PER_DAY at hle
  omega

theorem zurichWeek_ok (hz : zone.IsZurich) {t : Instant} (ht : WeekInRange zone t) :
    ∃ w, zurichWeek zone t = .ok w := by
  refine ⟨⟨_, weekFields_valid hz (weekday_mondayOf zone t) (ht.first_monday hz) ?_⟩, ?_⟩
  · have hlast := ht.last
    omega
  · rw [zurichWeek_eq, ZurichWeek.modelValidate, dif_pos]

/-! ## Identities -/

theorem digit_injective {m n : ℤ} (h : digit m = digit n) : m % 10 = n % 10 := by
  have hsmall : ∀ k : ℤ, 48 + (k % 10).toNat < 58 := fun k => by omega
  have hm := hsmall m
  have hn := hsmall n
  have hnat : 48 + (m % 10).toNat = 48 + (n % 10).toNat := by
    unfold digit at h
    have hvalid : ∀ k, k < 58 → (Char.ofNat k).toNat = k := by decide
    rw [← hvalid _ hm, ← hvalid _ hn, h]
  omega

/-- The identity tells the ISO year and week. -/
theorem identity_injective {v w : ZurichWeek zone} (h : v.identity = w.identity) :
    v.isoYear = w.isoYear ∧ v.isoWeek = w.isoWeek := by
  have hlist := String.ofList_injective h
  simp only [List.cons.injEq] at hlist
  obtain ⟨h1000, h100, h10, h1, -, -, hweek10, hweek1, -⟩ := hlist
  have hthousands := digit_injective h1000
  have hhundreds := digit_injective h100
  have htens := digit_injective h10
  have hones := digit_injective h1
  have hweekTens := digit_injective hweek10
  have hweekOnes := digit_injective hweek1
  have hv := v.valid.iso_year
  have hw := w.valid.iso_year
  have hv' := v.valid.iso_week
  have hw' := w.valid.iso_week
  omega

/-- Two instants of one identity are in one week. -/
theorem zurichWeek_eq_of_identity {t u : Instant} {v w : ZurichWeek zone} (hv : zurichWeek zone t = .ok v)
    (hw : zurichWeek zone u = .ok w) (h : v.identity = w.identity) : v = w := by
  obtain ⟨hyear, hweek⟩ := identity_injective h
  have hvfields := zurichWeek_eq_ok hv
  have hwfields := zurichWeek_eq_ok hw
  rw [hvfields, hwfields] at hyear hweek
  have hmonday : mondayOf zone t = mondayOf zone u :=
    monday_eq (weekday_mondayOf zone t) (weekday_mondayOf zone u) (Prod.ext hyear hweek)
  rw [zurichWeek_eq, hmonday, ← zurichWeek_eq, hw] at hv
  exact (Except.ok.inj hv).symm

/-! ## The partition -/

/-- Weeks partition time. Taken again from its own start, or validated again from its
own attributes, a week is the same week. -/
theorem zurich_weeks_partition (hz : zone.IsZurich) {t : Instant} (ht : WeekInRange zone t) :
    ∃ w, zurichWeek zone t = .ok w ∧ w.windowStart ≤ t ∧ t < w.windowEnd ∧
      (∀ u, zurichWeek zone u = .ok w ↔ w.windowStart ≤ u ∧ u < w.windowEnd) ∧
      (∀ w', zurichWeek zone w.windowEnd = .ok w' → w'.windowStart = w.windowEnd) ∧
      (∀ u w', zurichWeek zone u = .ok w' → (w'.identity = w.identity ↔ w' = w)) ∧
      zurichWeek zone w.windowStart = .ok w ∧ ZurichWeek.modelValidate zone w.toWeekFields = .ok w := by
  obtain ⟨w, hw⟩ := zurichWeek_ok hz ht
  have hfields := zurichWeek_eq_ok hw
  have hmonday := weekday_mondayOf zone t
  have hwithin : ∀ u, mondayOf zone u = mondayOf zone t ↔ w.windowStart ≤ u ∧ u < w.windowEnd := by
    rw [hfields]
    exact hz.mondayOf_eq_iff hmonday
  have hsame : ∀ u, zurichWeek zone u = .ok w ↔ w.windowStart ≤ u ∧ u < w.windowEnd := by
    intro u
    rw [← hwithin u]
    constructor
    · intro hu
      have huFields := (zurichWeek_eq_ok hu).symm.trans hfields
      exact monday_eq (weekday_mondayOf zone u) hmonday
        (Prod.ext (congrArg WeekFields.isoYear huFields) (congrArg WeekFields.isoWeek huFields))
    · intro hu
      rw [zurichWeek_eq, hu, ← zurichWeek_eq, hw]
  obtain ⟨hstart, hend⟩ := (hwithin t).mp rfl
  refine ⟨w, hw, hstart, hend, hsame, fun w' hw' => ?_, fun u w' hu => ?_, ?_, ?_⟩
  · have hnext : mondayOf zone w.windowEnd = mondayOf zone t + 7 := by
      rw [mondayOf_eq_iff (weekday_next hmonday), hfields]
      change _ ≤ zone.wall (zone.instant (midnight (mondayOf zone t + 7))) ∧
        zone.wall (zone.instant (midnight (mondayOf zone t + 7))) < _
      rw [hz.exists_ _ (weekday_next hmonday)]
      unfold midnight MICROSECONDS_PER_DAY
      omega
    rw [zurichWeek_eq_ok hw', hnext, hfields]
    rfl
  · exact ⟨fun hidentity => zurichWeek_eq_of_identity hu hw hidentity, fun heq => by rw [heq]⟩
  · exact (hsame _).mpr ⟨Int.le_refl _, Int.lt_of_le_of_lt hstart hend⟩
  · exact ZurichWeek.modelValidate_toWeekFields w

end

namespace WeekSample

/-- From 2026-03-29T01:00Z. -/
def summerStart : ℤ := 1774746000000000

/-- Until 2026-10-25T01:00Z. -/
def summerEnd : ℤ := 1792890000000000

def utcoffset (t : ℤ) : ℤ := if summerStart ≤ t ∧ t < summerEnd then 7200000000 else 3600000000

def instant (reading : ℤ) : ℤ :=
  if summerStart ≤ reading - 7200000000 ∧ reading - 7200000000 < summerEnd then reading - 7200000000
  else reading - 3600000000

/-- Zurich with the summer time of 2026. -/
def zone : Zone := ⟨utcoffset, instant⟩

theorem wall_instant {day : ℤ} (h : weekday day = 0) :
    instant (midnight day) + utcoffset (instant (midnight day)) = midnight day := by
  simp only [utcoffset, instant, weekday, midnight, MICROSECONDS_PER_DAY, summerStart, summerEnd] at h ⊢
  omega

theorem midnight_lt_succ {day t : ℤ} (h : weekday day = 0) (hpast : midnight day ≤ t + utcoffset t) :
    midnight day < t + 1 + utcoffset (t + 1) := by
  simp only [utcoffset, weekday, midnight, MICROSECONDS_PER_DAY, summerStart, summerEnd] at h hpast ⊢
  omega

theorem zone_isZurich : zone.IsZurich where
  nonneg t := by
    change 0 ≤ utcoffset t
    unfold utcoffset
    split <;> decide
  le t := by
    change utcoffset t ≤ 7200000000
    unfold utcoffset
    split <;> decide
  exists_ _ hday := wall_instant hday
  unambiguous _ hday _ hpast := midnight_lt_succ hday hpast

end WeekSample

/-- The week in which summer time starts is an hour shorter than others. -/
theorem zurich_weeks_partition_sample : ∃ w, zurichWeek WeekSample.zone WeekSample.summerStart = .ok w ∧
    w.windowEnd - w.windowStart = 167 * 3600000000 ∧ w.identity = "2026-W13" ∧
      zurichWeek WeekSample.zone w.windowStart = .ok w := by
  obtain ⟨w, hw, -, -, -, -, -, hstart, -⟩ := zurich_weeks_partition WeekSample.zone_isZurich
    (⟨by decide, by decide⟩ : WeekInRange WeekSample.zone WeekSample.summerStart)
  have hfields := zurichWeek_eq_ok hw
  refine ⟨w, hw, ?_, ?_, hstart⟩
  · rw [hfields]
    decide
  · rw [hfields]
    decide

end Stoa
