import FieldQuery.Proofs.Calendar.Texts
import FieldQuery.Proofs.Text.Trimming
import FieldQuery.Proofs.Value.Timestamps

/-!
# Written dates

A date that is written with its first components, the year in four digits and before or behind month
and day, is read as the first moment that agrees with these components, whatever stands around them.
It must not contain a digit, which would go on with a component or count as another one, nor a mark
for a half of the day. Main statement: this for all moments with common years, all precisions and
both orders.
-/

namespace FieldQuery.Value

open FieldQuery.Calendar FieldQuery.Text

/-! ## Runs of digits among other characters -/

section Runs

variable {run gap rest : List Char}

private theorem digitRunsFrom_append (current : List Char) (hrun : ∀ c ∈ run, isDecimalDigit c) :
    digitRunsFrom current (run ++ rest) = digitRunsFrom (current ++ run) rest := by
  induction run generalizing current with
  | nil => simp
  | cons c run ih =>
    have hc := hrun c List.mem_cons_self
    rw [List.cons_append, digitRunsFrom, if_pos hc,
      ih _ fun d hd => hrun d (List.mem_cons_of_mem c hd), List.append_assoc]
    rfl

/-- A run of digits ends where another character follows. -/
theorem digitRuns_run (hne : run ≠ []) (hrun : ∀ c ∈ run, isDecimalDigit c)
    (hrest : ∀ c ∈ rest.head?, isDecimalDigit c = false) :
    digitRuns (run ++ rest) = run :: digitRuns rest := by
  have hnonempty : run.isEmpty = false := List.isEmpty_eq_false_iff.mpr hne
  rw [digitRuns, digitRunsFrom_append [] hrun, List.nil_append]
  cases rest with
  | nil => simp [digitRunsFrom, digitRuns, hnonempty]
  | cons c rest => simp [digitRunsFrom, digitRuns, hnonempty, hrest c rfl]

/-- Other characters belong to no run. -/
theorem digitRuns_gap (hgap : ∀ c ∈ gap, isDecimalDigit c = false) :
    digitRuns (gap ++ rest) = digitRuns rest := by
  induction gap with
  | nil => rfl
  | cons c gap ih =>
    have hrest := ih fun d hd => hgap d (List.mem_cons_of_mem c hd)
    have hc := hgap c List.mem_cons_self
    simp only [digitRuns, List.cons_append, digitRunsFrom, hc] at hrest ⊢
    exact hrest

/-- The runs of a text are the parts that other characters stand between. -/
theorem digitRuns_zipWith {parts separators : List (List Char)} {after : List Char}
    (hcount : separators.length + 1 = parts.length) (hne : ∀ s ∈ separators, s ≠ [])
    (hgap : ∀ c ∈ separators.flatten ++ after, isDecimalDigit c = false)
    (hparts : ∀ part ∈ parts, part ≠ [] ∧ ∀ c ∈ part, isDecimalDigit c) :
    digitRuns (List.zipWith (· ++ ·) parts (separators ++ [after])).flatten = parts := by
  -- On the separators, each of which ends the part before it.
  induction separators generalizing parts with
  | nil =>
    obtain ⟨part, rfl⟩ := List.length_eq_one_iff.mp hcount.symm
    obtain ⟨hpart, hdigits⟩ := hparts part List.mem_cons_self
    have hafter : ∀ c ∈ after, isDecimalDigit c = false := by simpa using hgap
    have hnone : digitRuns after = [] := by
      rw [← List.append_nil after, digitRuns_gap hafter]
      rfl
    have hruns := digitRuns_run hpart hdigits fun c hc => hafter c (List.mem_of_mem_head? hc)
    rw [hnone] at hruns
    simpa using hruns
  | cons separator separators ih =>
    obtain ⟨part, parts, rfl⟩ := List.exists_cons_of_length_pos (show 0 < parts.length by omega)
    obtain ⟨hpart, hdigits⟩ := hparts part List.mem_cons_self
    have hseparator : ∀ c ∈ separator, isDecimalDigit c = false := by
      intro c hc
      exact hgap c (by simp [hc])
    have hgap' : ∀ c ∈ separators.flatten ++ after, isDecimalDigit c = false := by
      intro c hc
      apply hgap c
      rw [List.flatten_cons, List.append_assoc]
      exact List.mem_append_right _ hc
    have hrest := ih (by simpa using hcount) (fun s hs => hne s (List.mem_cons_of_mem _ hs))
      hgap' fun p hp => hparts p (List.mem_cons_of_mem _ hp)
    rw [List.cons_append, List.zipWith_cons_cons, List.flatten_cons, List.append_assoc,
      digitRuns_run hpart hdigits, digitRuns_gap hseparator, hrest]
    intro c hc
    obtain ⟨d, tail, rfl⟩ := List.exists_cons_of_ne_nil (hne separator List.mem_cons_self)
    exact hseparator c (List.mem_of_mem_head? (by simpa using hc))

end Runs

/-! ## Components in digits -/

section Digits

variable {width n : ℕ}

/-- Zeros in front do not change what is read. -/
theorem readNat?_paddedDigits (width n : ℕ) : readNat? (paddedDigits width n) = some n :=
  readNat?_eq_some_iff.mpr ⟨paddedDigits_ne_nil width n, fun _ => isDigit_of_mem_paddedDigits,
    ofDigitChars_paddedDigits width n⟩

private theorem isYearRun_paddedDigits (hwidth : 0 < width) (h : n < 10 ^ width) :
    isYearRun (paddedDigits width n) = (width == 4) := by
  rw [isYearRun, byteLength_of_isDigit fun _ => isDigit_of_mem_paddedDigits,
    length_paddedDigits hwidth h]

private theorem componentOr_paddedDigits (least width : ℕ) (h : n ≤ 0xFFFFFFFF) :
    componentOr least (some (paddedDigits width n)) = .ok n := by
  rw [componentOr, readNatUpTo?, readNat?_paddedDigits]
  simp [Option.filter, h, orFault]

end Digits

/-! ## Layouts of dates -/

/-- The two orders of year, month and day. -/
inductive DateOrder where
  | yearFirst
  | monthFirst
deriving DecidableEq, Repr

/-- Parts that begin with the year, in an order. Without a month there is only one order. -/
def DateOrder.arrange : DateOrder → List (List Char) → List (List Char)
  | .monthFirst, [year, month] => [month, year]
  | .monthFirst, year :: month :: day :: clock => month :: day :: year :: clock
  | _, parts => parts

private theorem DateOrder.arrange_perm (order : DateOrder) (parts : List (List Char)) :
    (order.arrange parts).Perm parts := by
  unfold arrange
  split
  · exact List.Perm.swap _ _ _
  · next year month day clock =>
    show ([month, day] ++ year :: clock).Perm (year :: ([month, day] ++ clock))
    exact List.perm_middle
  · exact List.Perm.refl _

/-- The order of the parts is recognised by the year. -/
theorem DateRuns.assign_arrange (order : DateOrder) {year : List Char} {rest : List (List Char)}
    (hyear : isYearRun year = true) (hrest : ∀ part ∈ rest, isYearRun part = false) :
    assign (order.arrange (year :: rest)) = .ok ⟨year, rest[0]?, rest[1]?, rest.drop 2⟩ := by
  have hfirst : assign (year :: rest) = .ok ⟨year, rest[0]?, rest[1]?, rest.drop 2⟩ := by
    simp [assign, hyear]
  -- With a month in front the first part is no year, and the year is looked for behind it.
  cases order with
  | yearFirst => exact hfirst
  | monthFirst =>
    match rest, hrest with
    | [], _ => exact hfirst
    | [month], hrest =>
      simp [DateOrder.arrange, assign, hyear, hrest month List.mem_cons_self]
    | month :: day :: clock, hrest =>
      simp [DateOrder.arrange, assign, hyear, hrest month List.mem_cons_self]

/-- The components of a moment in digits, from the year to the second. -/
def dateParts (m : Moment) : List (List Char) :=
  [paddedDigits 4 m.date.year.natAbs, paddedDigits 2 m.date.month, paddedDigits 2 m.date.day,
    paddedDigits 2 m.time.hour, paddedDigits 2 m.time.minute, paddedDigits 2 m.time.second]

/-- What stands around the components of a date: no digits, and something between any two of
them. -/
structure DateLayout (p : Precision) where
  order : DateOrder
  before : List Char
  separators : List (List Char)
  after : List Char
  count : separators.length + 1 = p.components
  separator_ne_nil : ∀ s ∈ separators, s ≠ []
  no_digit : ∀ c ∈ before ++ (separators.flatten ++ after), isDecimalDigit c = false

namespace DateLayout

variable {p : Precision}

/-- The first components of a moment in a layout. -/
def text (layout : DateLayout p) (m : Moment) : List Char :=
  layout.before ++ (List.zipWith (· ++ ·) (layout.order.arrange ((dateParts m).take p.components))
    (layout.separators ++ [layout.after])).flatten

private theorem digitRuns_text (layout : DateLayout p) (m : Moment) :
    digitRuns (layout.text m) = layout.order.arrange ((dateParts m).take p.components) := by
  have hperm := layout.order.arrange_perm ((dateParts m).take p.components)
  have hbefore : ∀ c ∈ layout.before, isDecimalDigit c = false :=
    fun c hc => layout.no_digit c (List.mem_append_left _ hc)
  rw [text, digitRuns_gap hbefore]
  apply digitRuns_zipWith _ layout.separator_ne_nil
    fun c hc => layout.no_digit c (List.mem_append_right _ hc)
  · -- every component is padded with digits alone
    intro part hpart
    obtain ⟨width, n, rfl⟩ : ∃ width n, part = paddedDigits width n := by
      have hmem := List.mem_of_mem_take (hperm.mem_iff.mp hpart)
      simp only [dateParts, List.mem_cons, List.not_mem_nil, or_false] at hmem
      rcases hmem with rfl | rfl | rfl | rfl | rfl | rfl <;> exact ⟨_, _, rfl⟩
    exact ⟨paddedDigits_ne_nil width n,
      fun c hc => isDecimalDigit_of_isDigit (isDigit_of_mem_paddedDigits hc)⟩
  · -- there is a separator between any two components, so the layout gives each its place
    have hcomponents : p.components ≤ 6 := by cases p <;> decide
    have hlength : (dateParts m).length = 6 := rfl
    rw [hperm.length_eq, List.length_take, layout.count]
    omega

end DateLayout

/-! ## Reading a written date -/

/-- The components that are written, and the least values of the others, make the first day. -/
theorem of?_firstDay (p : Precision) (d : Date) :
    Date.of? d.year (if 1 < p.components then d.month else 1)
      (if 2 < p.components then d.day else 1) = some (p.firstDay d) := by
  cases p
  case year => exact Date.of?_of_isDate (Precision.firstDay .year d).valid
  case month => exact Date.of?_of_isDate (Precision.firstDay .month d).valid
  all_goals exact Date.of?_of_isDate d.valid

/-- So do those of the time of day. -/
theorem of?_first (p : Precision) (m : Moment) :
    TimeOfDay.of? (if 3 < p.components then m.time.hour else 0)
      (if 4 < p.components then m.time.minute else 0)
      (if 5 < p.components then m.time.second else 0) = some (p.first m).time := by
  obtain ⟨hhour, hminute, hsecond, -, -⟩ := m.time.components
  -- A component that is missing is zero, and no component is beyond its limit.
  have hlimits : (if 3 < p.components then m.time.hour else 0) < 24 ∧
      (if 4 < p.components then m.time.minute else 0) < 60 ∧
      (if 5 < p.components then m.time.second else 0) < 60 ∧ 0 < 1000000 := by
    split <;> split <;> split <;> omega
  rw [TimeOfDay.of?, dif_pos hlimits]
  have hsum : (if 3 < p.components then m.time.hour else 0) * hourMicros +
      (if 4 < p.components then m.time.minute else 0) * minuteMicros +
      (if 5 < p.components then m.time.second else 0) * secondMicros + 0 =
        m.time.micros / p.span * p.span := by
    have hlt := m.time.micros_lt
    simp only [TimeOfDay.hour, TimeOfDay.minute, TimeOfDay.second, hourMicros, minuteMicros,
      secondMicros, dayMicros] at hlt ⊢
    cases p <;>
      simp only [Precision.components, Precision.span, hourMicros, minuteMicros, secondMicros,
        dayMicros, Nat.reduceLT, if_true, if_false] <;>
      omega
  simp only [hsum]
  rfl

/-- A component that is written is read, and another one has its least value. -/
theorem componentOr_ite (c : Prop) [Decidable c] (least : ℕ) {n : ℕ} (h : n < 100) :
    componentOr least (if c then some (paddedDigits 2 n) else none) =
      .ok (if c then n else least) := by
  split
  · exact componentOr_paddedDigits least 2 (by omega)
  · rfl

private theorem timestampOf_text {p : Precision} (layout : DateLayout p) {m : Moment}
    (hyear : m.date.IsCommon)
    (hmorning : occursIn ['a', 'm'] (asciiLower (layout.text m)) = false)
    (hafternoon : occursIn ['p', 'm'] (asciiLower (layout.text m)) = false) :
    timestampOf (layout.text m) = .ok (p.first m, p) := by
  obtain ⟨-, -, -, hmonth, -, hday⟩ := m.date.valid
  have hmonthDays := daysInMonth_le m.date.year m.date.month
  obtain ⟨hhour, hminute, hsecond, -, -⟩ := m.time.components
  -- The parts after the year, of which those beyond the precision are missing.
  let rest := (dateParts m).tail.take (p.components - 1)
  have htake : (dateParts m).take p.components = paddedDigits 4 m.date.year.natAbs :: rest := by
    cases p <;> rfl
  have hrest : ∀ part ∈ rest, isYearRun part = false := by
    intro part hpart
    obtain ⟨n, rfl, hn⟩ : ∃ n, part = paddedDigits 2 n ∧ n < 10 ^ 2 := by
      have hmem := List.mem_of_mem_take hpart
      simp only [dateParts, List.tail_cons, List.mem_cons, List.not_mem_nil, or_false] at hmem
      rcases hmem with rfl | rfl | rfl | rfl | rfl <;> exact ⟨_, rfl, by omega⟩
    exact isYearRun_paddedDigits (by decide) hn
  have hcommon : m.date.year.natAbs < 10 ^ 4 := by
    have := hyear.1
    have := hyear.2
    omega
  have hyearRun : isYearRun (paddedDigits 4 m.date.year.natAbs) = true :=
    isYearRun_paddedDigits (by decide) hcommon
  have hassign := DateRuns.assign_arrange layout.order hyearRun hrest
  rw [← htake, ← layout.digitRuns_text m] at hassign
  have hcomponent (i : ℕ) {n : ℕ} (least : ℕ) (hn : n < 100)
      (hpart : (dateParts m).tail[i]? = some (paddedDigits 2 n)) :
      componentOr least rest[i]? = .ok (if i + 1 < p.components then n else least) := by
    have hlt : i < p.components - 1 ↔ i + 1 < p.components := by omega
    rw [List.getElem?_take, hpart, if_congr hlt rfl rfl]
    exact componentOr_ite _ least hn
  have hclock (i : ℕ) {n : ℕ} (hn : n < 100)
      (hpart : (dateParts m).tail[i + 2]? = some (paddedDigits 2 n)) :
      componentOr 0 (rest.drop 2)[i]? = .ok (if i + 3 < p.components then n else 0) := by
    rw [List.getElem?_drop, Nat.add_comm 2 i]
    exact hcomponent (i + 2) 0 hn hpart
  have hdate := of?_firstDay p m.date
  rw [← Int.natAbs_of_nonneg hyear.1] at hdate
  -- The precision is counted in parts, and arranging them does not change their number.
  have hprecision : Precision.ofComponents (digitRuns (layout.text m)).length = p := by
    rw [layout.digitRuns_text, (layout.order.arrange_perm _).length_eq]
    cases p <;> rfl
  simp only [timestampOf, bind_eq_ok_iff, orFault_eq_ok_iff, hmorning, hafternoon, hprecision]
  exact ⟨_, hassign, _, readNat?_paddedDigits 4 _, _, hcomponent 0 1 (by omega) rfl,
    _, hcomponent 1 1 (by omega) rfl, _, hclock 0 (by omega) rfl, _, hclock 1 (by omega) rfl,
    _, hclock 2 (by omega) rfl, _, hdate, _, of?_first p m, rfl⟩

/-- A written date is read as the first moment with its components. -/
theorem parseTimestamp_text (type : FieldType) {p : Precision} (layout : DateLayout p) {m : Moment}
    (hyear : m.date.IsCommon)
    (hmorning : occursIn ['a', 'm'] (asciiLower (layout.text m)) = false)
    (hafternoon : occursIn ['p', 'm'] (asciiLower (layout.text m)) = false) :
    parseTimestamp type (String.ofList (layout.text m)) = .ok (p.first m, p) := by
  rw [parseTimestamp, String.toList_ofList, timestampOf_text layout hyear hmorning hafternoon]
  rfl

/-- A minute of a leap day. -/
theorem parseTimestamp_leapDay :
    parseTimestamp .datetime "due 02/29/2024, 23h59 sharp" =
      .ok (⟨⟨2024, 2, 29, by decide⟩, ⟨86340000000, by decide⟩⟩, .minute) := by
  -- a layout with text on either side and four different separators
  let layout : DateLayout .minute := {
    order := .monthFirst
    before := "due ".toList
    separators := [['/'], ['/'], [',', ' '], ['h']]
    after := " sharp".toList
    count := rfl
    separator_ne_nil := by decide
    no_digit := by
      have hother : ("due ".toList ++ ([['/'], ['/'], [',', ' '], ['h']].flatten ++
        " sharp".toList)).all fun c => !isDecimalDigit c := by decide
      exact fun c hc => by simpa using List.all_eq_true.mp hother c hc }
  let m : Moment := ⟨⟨2024, 2, 29, by decide⟩, ⟨86398765432, by decide⟩⟩
  have htext : "due 02/29/2024, 23h59 sharp" = String.ofList (layout.text m) := by decide +kernel
  have hfirst : (⟨⟨2024, 2, 29, by decide⟩, ⟨86340000000, by decide⟩⟩ : Moment) =
      Precision.first .minute m := by decide +kernel
  rw [htext, hfirst]
  exact parseTimestamp_text .datetime layout (by decide) (by decide +kernel) (by decide +kernel)

end FieldQuery.Value
