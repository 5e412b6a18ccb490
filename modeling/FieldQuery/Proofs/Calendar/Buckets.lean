import FieldQuery.Calendar.Precision

/-!
# Buckets of moments

Moments are ordered as their dates are, and on one day as the times are. A bucket is the set of
moments that agree with a given one on the components that a precision stands for. Main statement: it
is the interval between its first and its last moment, and the last moment is the one that is found
one microsecond before the next bucket.
-/

namespace FieldQuery.Calendar

/-! ## Order -/

instance : LE Date where
  le a b := a.year < b.year ∨ a.year = b.year ∧ (a.month < b.month ∨
    a.month = b.month ∧ a.day ≤ b.day)

instance : LE Moment where
  le a b := (a.date ≤ b.date ∧ a.date ≠ b.date) ∨ a.date = b.date ∧ a.time.micros ≤ b.time.micros

instance (a b : Date) : Decidable (a ≤ b) :=
  inferInstanceAs (Decidable (_ ∨ _))

instance (a b : Moment) : Decidable (a ≤ b) :=
  inferInstanceAs (Decidable (_ ∨ _))

/-- Dates are compared by the year, then by the month, then by the day. -/
theorem Date.le_iff {a b : Date} : a ≤ b ↔ a.year < b.year ∨ a.year = b.year ∧
    (a.month < b.month ∨ a.month = b.month ∧ a.day ≤ b.day) :=
  Iff.rfl

/-- A date is its year, its month and its day. -/
theorem Date.ext_iff {a b : Date} :
    a = b ↔ a.year = b.year ∧ a.month = b.month ∧ a.day = b.day := by
  obtain ⟨y, m, d, ha⟩ := a
  obtain ⟨y', m', d', hb⟩ := b
  simp

/-- One moment is not after another one: the components decide in their order. -/
theorem Moment.le_iff {a b : Moment} : a ≤ b ↔
    a.date.year < b.date.year ∨ a.date.year = b.date.year ∧ (a.date.month < b.date.month ∨
      a.date.month = b.date.month ∧ (a.date.day < b.date.day ∨
        a.date.day = b.date.day ∧ a.time.micros ≤ b.time.micros)) := by
  show ((a.date ≤ b.date ∧ a.date ≠ b.date) ∨ _) ↔ _
  rw [Ne, Date.ext_iff, Date.le_iff]
  omega

private theorem Moment.date_le_of_le {a b : Moment} (h : a ≤ b) : a.date ≤ b.date := by
  rw [Moment.le_iff] at h
  rw [Date.le_iff]
  omega

private theorem Moment.le_of_date_le {a b : Moment} (h : a.date ≤ b.date)
    (hmicros : a.time.micros ≤ b.time.micros) : a ≤ b := by
  rw [Date.le_iff] at h
  rw [Moment.le_iff]
  omega

/-- A moment is its date and the microseconds since midnight. -/
theorem Moment.ext_iff {a b : Moment} :
    a = b ↔ a.date = b.date ∧ a.time.micros = b.time.micros := by
  obtain ⟨d, s, hs⟩ := a
  obtain ⟨d', s', hs'⟩ := b
  simp

/-! ## Components -/

/-- A date that is made of three numbers has these as its parts. -/
theorem Date.components_of_of? {year : Int} {month day : Nat} {d : Date}
    (h : of? year month day = some d) : d.year = year ∧ d.month = month ∧ d.day = day := by
  unfold of? at h
  split at h
  · obtain rfl := Option.some.inj h
    exact ⟨rfl, rfl, rfl⟩
  · nomatch h

/-- A time of day that is made of four numbers has these as its parts. -/
theorem TimeOfDay.components_of_of? {hour minute second microsecond : Nat} {t : TimeOfDay}
    (h : of? hour minute second microsecond = some t) :
    t.hour = hour ∧ t.minute = minute ∧ t.second = second ∧ t.microsecond = microsecond := by
  unfold of? at h
  split at h
  · obtain rfl := Option.some.inj h
    simp only [TimeOfDay.hour, TimeOfDay.minute, TimeOfDay.second, TimeOfDay.microsecond,
      hourMicros, minuteMicros, secondMicros]
    omega
  · nomatch h

/-- A time of day is made up of its components, each of which is below its limit. -/
theorem TimeOfDay.components (t : TimeOfDay) :
    t.hour < 24 ∧ t.minute < 60 ∧ t.second < 60 ∧ t.microsecond < 1000000 ∧
      t.micros = ((t.hour * 60 + t.minute) * 60 + t.second) * 1000000 + t.microsecond := by
  have hlt := t.micros_lt
  simp only [dayMicros] at hlt
  simp only [hour, minute, second, microsecond, hourMicros, minuteMicros, secondMicros]
  omega

/-! ## First and last moments -/

namespace Date

private theorem isDate_of_year (d : Date) {month day : Nat}
    (h : 1 ≤ month ∧ month ≤ 12 ∧ 1 ≤ day ∧ day ≤ daysInMonth d.year month) :
    IsDate d.year month day :=
  ⟨d.valid.1, d.valid.2.1, h⟩

private theorem isDate_of_month (d : Date) {day : Nat} (h : 1 ≤ day)
    (hday : day ≤ daysInMonth d.year d.month) : IsDate d.year d.month day :=
  d.isDate_of_year ⟨d.valid.2.2.1, d.valid.2.2.2.1, h, hday⟩

end Date

private theorem one_le_daysInMonth (year : Int) (month : Nat) : 1 ≤ daysInMonth year month := by
  unfold daysInMonth
  split
  · split <;> decide
  all_goals decide

/-- No month has more than 31 days. -/
theorem daysInMonth_le (year : Int) (month : Nat) : daysInMonth year month ≤ 31 := by
  unfold daysInMonth
  split
  · split <;> decide
  all_goals decide

/-- The components of a moment, from the year to the second. -/
def Moment.components (m : Moment) : List Int :=
  [m.date.year, m.date.month, m.date.day, m.time.hour, m.time.minute, m.time.second]

namespace Precision

/-- Whether a moment agrees with another one on the components that a precision stands for. -/
def Agrees (p : Precision) (a t : Moment) : Prop :=
  t.components.take p.components = a.components.take p.components

instance (p : Precision) (a t : Moment) : Decidable (p.Agrees a t) := by
  unfold Agrees; infer_instance

/-- The microseconds of a day that belong to one bucket; all of them, if a bucket is a day or
more. -/
def span : Precision → Nat
  | year | month | day => dayMicros
  | hour => hourMicros
  | minute => minuteMicros
  | second => secondMicros

private theorem span_pos (p : Precision) : 0 < p.span := by
  cases p <;> decide

private theorem span_dvd (p : Precision) : p.span ∣ dayMicros := by
  cases p <;> decide

/-- The first day of the bucket of a date. -/
def firstDay (p : Precision) (d : Date) : Date :=
  match p with
  | year => ⟨d.year, 1, 1, d.isDate_of_year (by simp [daysInMonth])⟩
  | month => ⟨d.year, d.month, 1, d.isDate_of_month (Nat.le_refl 1) (one_le_daysInMonth _ _)⟩
  | _ => d

/-- The last day of the bucket of a date. -/
def lastDay (p : Precision) (d : Date) : Date :=
  match p with
  | year => ⟨d.year, 12, 31, d.isDate_of_year (by simp [daysInMonth])⟩
  | month => ⟨d.year, d.month, daysInMonth d.year d.month,
      d.isDate_of_month (one_le_daysInMonth _ _) (Nat.le_refl _)⟩
  | _ => d

/-- The last microsecond of a bucket that starts in a day is still one of the day. -/
theorem div_mul_span_add_lt (p : Precision) {micros : Nat} (h : micros < dayMicros) :
    micros / p.span * p.span + (p.span - 1) < dayMicros := by
  have hpos := p.span_pos
  -- a day is a whole number of buckets, so the bucket begun in it ends in it
  obtain ⟨n, hn⟩ := p.span_dvd
  rw [hn] at h ⊢
  have hlt : micros / p.span < n := Nat.div_lt_of_lt_mul h
  calc micros / p.span * p.span + (p.span - 1) < (micros / p.span + 1) * p.span := by
        rw [Nat.add_mul]; omega
    _ ≤ n * p.span := Nat.mul_le_mul_right _ hlt
    _ = p.span * n := Nat.mul_comm _ _

/-- The first moment of the bucket of a moment. -/
def first (p : Precision) (m : Moment) : Moment where
  date := p.firstDay m.date
  time := ⟨m.time.micros / p.span * p.span,
    Nat.lt_of_le_of_lt (Nat.le_add_right _ _) (p.div_mul_span_add_lt m.time.micros_lt)⟩

/-- The last moment of the bucket of a moment. -/
def last (p : Precision) (m : Moment) : Moment where
  date := p.lastDay m.date
  time := ⟨m.time.micros / p.span * p.span + (p.span - 1), p.div_mul_span_add_lt m.time.micros_lt⟩

/-- A bucket is the interval between its first and its last moment. -/
theorem first_le_and_le_last_iff (p : Precision) (a t : Moment) :
    p.first a ≤ t ∧ t ≤ p.last a ↔ p.Agrees a t := by
  obtain ⟨-, -, hmonth, hmonth', hday, hday'⟩ := t.date.valid
  have hlt := t.time.micros_lt
  have hlt' := a.time.micros_lt
  have hdays := daysInMonth_le t.date.year t.date.month
  rw [Moment.le_iff, Moment.le_iff]
  simp only [dayMicros] at hlt hlt'
  -- A moment lies between the two if it agrees on what comes first, and the bounds of the components
  -- that follow leave no room otherwise.
  cases p with
  | year =>
    simp only [first, last, firstDay, lastDay, span, dayMicros, Agrees, Moment.components,
      components, List.take, List.cons.injEq, and_true]
    omega
  | month =>
    simp only [first, last, firstDay, lastDay, span, dayMicros, Agrees, Moment.components,
      components, List.take, List.cons.injEq, and_true, Int.ofNat_inj]
    constructor
    · omega
    · -- The length of the month is that of the same month of the same year.
      rintro ⟨hyear, hsame⟩
      rw [hyear, hsame] at hday' hdays
      omega
  | day =>
    simp only [first, last, firstDay, lastDay, span, dayMicros, Agrees, Moment.components,
      components, List.take, List.cons.injEq, and_true, Int.ofNat_inj]
    omega
  | hour =>
    simp only [first, last, firstDay, lastDay, span, hourMicros, Agrees, Moment.components,
      components, List.take, List.cons.injEq, and_true, Int.ofNat_inj, TimeOfDay.hour]
    omega
  | minute =>
    simp only [first, last, firstDay, lastDay, span, minuteMicros, hourMicros, Agrees,
      Moment.components, components, List.take, List.cons.injEq, and_true, Int.ofNat_inj,
      TimeOfDay.hour, TimeOfDay.minute]
    omega
  | second =>
    simp only [first, last, firstDay, lastDay, span, secondMicros, minuteMicros, hourMicros,
      Agrees, Moment.components, components, List.take, List.cons.injEq, and_true, Int.ofNat_inj,
      TimeOfDay.hour, TimeOfDay.minute, TimeOfDay.second]
    omega

/-- From a moment on its first day a bucket goes on to its last moment. -/
theorem le_and_le_last_iff (p : Precision) {a : Moment} (h : p.firstDay a.date = a.date)
    (t : Moment) :
    a ≤ t ∧ t ≤ p.last a ↔
      p.Agrees a t ∧ ¬ (t.date = a.date ∧ t.time.micros < a.time.micros) := by
  have hfloor := Nat.div_mul_le_self a.time.micros p.span
  -- Between the start of the bucket and the moment there is only time of its first day.
  have hstart : a ≤ t ↔ p.first a ≤ t ∧ ¬ (t.date = a.date ∧ t.time.micros < a.time.micros) := by
    show (a.date ≤ t.date ∧ a.date ≠ t.date) ∨ a.date = t.date ∧ _ ↔
      ((p.firstDay a.date ≤ t.date ∧ p.firstDay a.date ≠ t.date) ∨ p.firstDay a.date = t.date ∧
        a.time.micros / p.span * p.span ≤ t.time.micros) ∧ _
    rw [h, eq_comm (a := t.date)]
    by_cases hsame : a.date = t.date
    · simp only [hsame, ne_eq, not_true_eq_false, and_false, true_and, false_or]
      omega
    · simp [hsame]
  rw [hstart, ← first_le_and_le_last_iff]
  exact and_right_comm

/-- The days of a bucket are those from its first to its last one. -/
theorem exists_agrees_iff (p : Precision) (a : Moment) (d : Date) :
    (∃ t : Moment, t.date = d ∧ p.Agrees a t) ↔ p.firstDay a.date ≤ d ∧ d ≤ p.lastDay a.date := by
  constructor
  · rintro ⟨t, rfl, hagrees⟩
    obtain ⟨hfirst, hlast⟩ := (p.first_le_and_le_last_iff a t).mpr hagrees
    exact ⟨Moment.date_le_of_le hfirst, Moment.date_le_of_le hlast⟩
  · rintro ⟨hfirst, hlast⟩
    -- for a day between the ends, the time the bucket starts at lies in the bucket
    have hmicros : (p.first a).time.micros ≤ (p.last a).time.micros := Nat.le_add_right _ _
    refine ⟨⟨d, (p.first a).time⟩, rfl, (p.first_le_and_le_last_iff a _).mp ?_⟩
    exact ⟨Moment.le_of_date_le hfirst (Nat.le_refl _), Moment.le_of_date_le hlast hmicros⟩

end Precision

/-! ## The moment before the next bucket -/

namespace Date

/-- Three numbers that are those of a date make this date. -/
theorem of?_of_isDate {year : Int} {month day : Nat} (h : IsDate year month day) :
    of? year month day = some ⟨year, month, day, h⟩ :=
  dif_pos h

/-- Before the last year of the calendar the first day of the next year follows on its last day. -/
theorem exists_newYear (d : Date) (h : d.year < lastYear) :
    ∃ e, of? (d.year + 1) 1 1 = some e ∧
      e.previous? = some (Precision.year.lastDay d) := by
  have hfirst := d.valid.1
  -- the first of January exists in any year of the calendar
  have hvalid : IsDate (d.year + 1) 1 1 :=
    ⟨by omega, by omega, by decide, by decide, by decide, by simp [daysInMonth]⟩
  refine ⟨_, of?_of_isDate hvalid, ?_⟩
  have hback : d.year + 1 - 1 = d.year := by omega
  simp only [previous?, Nat.lt_irrefl, if_false, hback]
  exact of?_of_isDate _

/-- Within a year the first day of the next month follows on the last day of a month. -/
theorem exists_newMonth (d : Date) (h : d.month < 12) :
    ∃ e, of? d.year (d.month + 1) 1 = some e ∧
      e.previous? = some (Precision.month.lastDay d) := by
  have hmonth := d.valid.2.2.1
  have hvalid : IsDate d.year (d.month + 1) 1 :=
    d.isDate_of_year ⟨by omega, by omega, Nat.le_refl 1, one_le_daysInMonth _ _⟩
  refine ⟨_, of?_of_isDate hvalid, ?_⟩
  have hlater : 1 < d.month + 1 := by omega
  simp only [previous?, Nat.lt_irrefl, if_false, hlater, if_true, Nat.add_sub_cancel]
  exact of?_of_isDate _

/-- Before the last year of the calendar every day has a next one, which it is the day before. -/
theorem exists_next (d : Date) (h : d.year < lastYear) :
    ∃ e, d.next? = some e ∧ e.previous? = some d := by
  obtain ⟨-, -, hmonth, hmonth', hday, hday'⟩ := d.valid
  unfold next?
  split
  -- three ways to the next day: inside the month, over its end, and over the end of the year
  · next hbefore =>
    have hvalid : IsDate d.year d.month (d.day + 1) :=
      d.isDate_of_month (Nat.le_add_left 1 _) hbefore
    refine ⟨_, of?_of_isDate hvalid, ?_⟩
    have hlater : 1 < d.day + 1 := by omega
    simp only [previous?, hlater, if_true, Nat.add_sub_cancel]
    exact of?_of_isDate d.valid
  next hlast =>
  have hend : d.day = daysInMonth d.year d.month := by omega
  split
  · next hbefore =>
    obtain ⟨e, he, hback⟩ := d.exists_newMonth hbefore
    refine ⟨e, he, hback.trans (congrArg some (ext_iff.mpr ⟨rfl, rfl, hend.symm⟩))⟩
  -- the last day of the last month: what is left is the turn of the year, which `h` keeps in range
  · have hdecember : d.month = 12 := by omega
    obtain ⟨e, he, hback⟩ := d.exists_newYear h
    refine ⟨e, he, hback.trans (congrArg some (ext_iff.mpr ⟨rfl, hdecember.symm, ?_⟩))⟩
    rw [hend, hdecember]
    rfl

end Date

namespace Moment

/-- The moment before a day is the last one of the day before. -/
theorem previous?_startOf {d e : Date} (h : e.previous? = some d) :
    (startOf e).previous? = some ⟨d, .last⟩ := by
  show (e.previous?.map fun d => (⟨d, .last⟩ : Moment)) = _
  rw [h]
  rfl

/-- A time later by a divisor of the day, and back by a microsecond, is on the same day if it began
at a multiple of the divisor. -/
theorem previous?_of_later? (m : Moment) {span : Nat} (hle : span ≤ dayMicros) (hpos : 0 < span)
    (hdvd : span ∣ dayMicros) (haligned : span ∣ m.time.micros) (h : m.date.year < lastYear) :
    ∃ hlt, (m.later? span hle).bind previous? =
      some ⟨m.date, ⟨m.time.micros + (span - 1), hlt⟩⟩ := by
  have hlt := m.time.micros_lt
  -- Both the time and the day are multiples, so the step does not go beyond the next midnight.
  have hfits : m.time.micros + span ≤ dayMicros := by
    obtain ⟨k, hk⟩ := haligned
    obtain ⟨n, hn⟩ := hdvd
    rw [hk, hn] at hlt ⊢
    have hkn : k < n := Nat.lt_of_mul_lt_mul_left hlt
    exact Nat.mul_le_mul_left span hkn
  refine ⟨by omega, ?_⟩
  unfold later?
  split
  · have hne : m.time.micros + span ≠ 0 := by omega
    simp only [Option.bind_some, previous?, hne, if_false]
    refine congrArg some (Moment.ext_iff.mpr ⟨rfl, ?_⟩)
    show m.time.micros + span - 1 = m.time.micros + (span - 1)
    omega
  · next hmidnight =>
    -- The next midnight is reached exactly.
    have hzero : m.time.micros + span - dayMicros = 0 := by omega
    obtain ⟨e, he, hback⟩ := m.date.exists_next h
    simp only [he, Option.map_some, Option.bind_some, previous?, hzero, if_true, hback]
    refine congrArg some (Moment.ext_iff.mpr ⟨rfl, ?_⟩)
    show dayMicros - 1 = m.time.micros + (span - 1)
    omega

end Moment

namespace Precision

/-- If a bucket is a day or more, the day before the next one is its last day. -/
theorem previous?_startOf_eq_last (p : Precision) (m : Moment) {e : Date}
    (h : e.previous? = some (p.lastDay m.date)) (hspan : p.span = dayMicros) :
    (Moment.startOf e).previous? = some (p.last m) := by
  rw [Moment.previous?_startOf h]
  refine congrArg some (Moment.ext_iff.mpr ⟨rfl, ?_⟩)
  show dayMicros - 1 = m.time.micros / p.span * p.span + (p.span - 1)
  rw [hspan, Nat.div_eq_of_lt m.time.micros_lt, Nat.zero_mul, Nat.zero_add]

/-- If a bucket is less than a day, it ends on the day on which it starts. -/
theorem previous?_of_later?_eq_last (p : Precision) (m : Moment) (hle : p.span ≤ dayMicros)
    (hsame : p.lastDay m.date = m.date) (hdvd : p.span ∣ m.time.micros)
    (h : m.date.year < lastYear) :
    (m.later? p.span hle).bind Moment.previous? = some (p.last m) := by
  -- the start is at a full span, so one span later is the start of the next bucket
  obtain ⟨hlt, hlater⟩ := m.previous?_of_later? hle p.span_pos p.span_dvd hdvd h
  rw [hlater]
  refine congrArg some (Moment.ext_iff.mpr ⟨hsame.symm, ?_⟩)
  show m.time.micros + (p.span - 1) = m.time.micros / p.span * p.span + (p.span - 1)
  rw [Nat.div_mul_cancel hdvd]

/-- The last moment of a bucket is the one before the next bucket. Below a day this takes a moment at
which a bucket starts. -/
theorem bucketEnd?_eq_last (p : Precision) (m : Moment) (h : m.date.year < lastYear)
    (haligned : day.components < p.components → p.span ∣ m.time.micros) :
    p.bucketEnd? m = some (p.last m) := by
  unfold bucketEnd? nextStart?
  cases p with
  | year =>
    obtain ⟨e, he, hback⟩ := m.date.exists_newYear h
    simp only [he, Option.map_some, Option.bind_some]
    exact year.previous?_startOf_eq_last m hback rfl
  | month =>
    simp only
    split
    · next hdecember =>
      -- December is followed by a new year, and ends with its year.
      obtain ⟨e, he, hback⟩ := m.date.exists_newYear h
      have hsame : year.lastDay m.date = month.lastDay m.date := by
        refine Date.ext_iff.mpr ⟨rfl, hdecember.symm, ?_⟩
        show 31 = daysInMonth m.date.year m.date.month
        rw [hdecember]
        rfl
      simp only [he, Option.map_some, Option.bind_some]
      exact month.previous?_startOf_eq_last m (hsame ▸ hback) rfl
    · next hbefore =>
      have hmonth := m.date.valid.2.2.2.1
      obtain ⟨e, he, hback⟩ := m.date.exists_newMonth (by omega)
      simp only [he, Option.map_some, Option.bind_some]
      exact month.previous?_startOf_eq_last m hback rfl
  | day =>
    obtain ⟨e, he, hback⟩ := m.date.exists_next h
    simp only [he, Option.map_some, Option.bind_some]
    exact day.previous?_startOf_eq_last m hback rfl
  | hour => exact hour.previous?_of_later?_eq_last m _ rfl (haligned (by decide)) h
  | minute => exact minute.previous?_of_later?_eq_last m _ rfl (haligned (by decide)) h
  | second => exact second.previous?_of_later?_eq_last m _ rfl (haligned (by decide)) h

end Precision

end FieldQuery.Calendar
