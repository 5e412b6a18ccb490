import FieldQuery.Proofs.Number.Counting
import FieldQuery.Proofs.Number.Written
import FieldQuery.Proofs.Value.Amounts
import FieldQuery.Proofs.Value.Numbers

/-!
# Sums of amounts with units

A duration that is written as whole amounts with units is their sum, in whatever order they stand,
and a minus sign in front negates it. Such a text is neither a decimal nor a clock form, because both
are made of other characters. Main statements: the sum is read from every such text, and the text of a
number of seconds is read back, with the exception of the least one, whose size is out of range before
the sign is applied.
-/

namespace FieldQuery.Value

open FieldQuery.Number FieldQuery.Text

/-! ## Signs -/

/-- A text with a minus sign in front of a body or without one, and white space around them. -/
structure Signed (text : List Char) (negative : Bool) (body : List Char) : Prop where
  layout : ∃ before gap after, text = before ++ (signChars negative ++ (gap ++ (body ++ after))) ∧
    ∀ c ∈ before ++ (gap ++ after), isBlank c
  trimmed : IsTrimmed body
  sign : negative = false → body.head? ≠ some '-'

/-- What the sign is split from is the text after it. -/
theorem signed_splitSign (text : List Char) :
    Signed text (splitSign text).1 (splitSign text).2 := by
  obtain ⟨before, after, htext, hbefore, hafter, htrimmed⟩ := exists_trim text
  unfold splitSign
  -- a minus, with blanks after it too, or none
  split
  · next rest hsign =>
    obtain ⟨gap, after', hrest, hgap, hafter', htrimmed'⟩ := exists_trim rest
    refine ⟨⟨before, gap, after' ++ after, ?_, ?_⟩, htrimmed', by simp⟩
    · rw [hsign, hrest] at htext
      simpa [signChars] using htext
    · simp only [List.forall_mem_append]
      exact ⟨hbefore, hgap, hafter', hafter⟩
  · next hsign =>
    refine ⟨⟨before, [], after, by simpa [signChars] using htext, ?_⟩, htrimmed, ?_⟩
    · simpa only [List.nil_append, List.forall_mem_append] using ⟨hbefore, hafter⟩
    · intro _ hhead
      obtain ⟨rest, hrest⟩ := List.head?_eq_some_iff.mp hhead
      exact hsign rest hrest

/-- A text is divided into its sign and its body in one way. -/
theorem Signed.splitSign_eq {text body : List Char} {negative : Bool}
    (h : Signed text negative body) : splitSign text = (negative, body) := by
  obtain ⟨before, gap, after, rfl, hblank⟩ := h.layout
  simp only [List.forall_mem_append] at hblank
  obtain ⟨hbefore, hgap, hafter⟩ := hblank
  cases negative with
  | false =>
    have htrim : trim (before ++ (signChars false ++ (gap ++ (body ++ after)))) = body := by
      rw [signChars, if_neg Bool.false_ne_true, List.nil_append, ← List.append_assoc]
      exact trim_append (List.forall_mem_append.mpr ⟨hbefore, hgap⟩) h.trimmed hafter
    unfold splitSign
    rw [htrim]
    split
    · exact absurd rfl (h.sign rfl)
    · rfl
  | true =>
    -- Without a body the white space behind the sign is at the end of the text.
    have htrim : ∃ gap', (∀ c ∈ gap', isBlank c) ∧
        trim (before ++ (signChars true ++ (gap ++ (body ++ after)))) = '-' :: (gap' ++ body) := by
      have hminus : isBlank '-' = false := by decide
      by_cases hbody : body = []
      · have htrimmed : IsTrimmed ['-'] := ⟨by simpa using hminus, by simpa using hminus⟩
        refine ⟨[], by simp, ?_⟩
        subst hbody
        exact trim_append hbefore htrimmed (List.forall_mem_append.mpr ⟨hgap, hafter⟩)
      · have htrimmed : IsTrimmed ('-' :: (gap ++ body)) := by
          refine ⟨by simpa using hminus, fun c hc => h.trimmed.last c ?_⟩
          rwa [← List.cons_append, List.getLast?_append_of_ne_nil _ hbody] at hc
        refine ⟨gap, hgap, ?_⟩
        have hlayout : signChars true ++ (gap ++ (body ++ after)) =
            '-' :: (gap ++ body) ++ after := by
          simp [signChars]
        rw [hlayout]
        exact trim_append hbefore htrimmed hafter
    obtain ⟨gap', hgap', htrim⟩ := htrim
    have hbody : trim (gap' ++ body) = body := by
      have hnone : ∀ c ∈ ([] : List Char), isBlank c := by simp
      simpa using trim_append hgap' h.trimmed hnone
    unfold splitSign
    rw [htrim]
    simp only [hbody]

/-! ## Clock forms -/

/-- Hours, minutes and perhaps seconds between colons, in digits of any script. -/
structure ClockForm (text h m s : List Char) : Prop where
  layout : text = h ++ ':' :: m ∧ s = ['0'] ∨ text = h ++ ':' :: (m ++ ':' :: s)
  hours_ne_nil : h ≠ []
  minutes_length : m.length = 1 ∨ m.length = 2
  seconds_length : s.length = 1 ∨ s.length = 2
  isDecimalDigit : ∀ c ∈ h ++ (m ++ s), isDecimalDigit c

private theorem isClockPart_iff {text : List Char} : isClockPart text = true ↔
    (text.length = 1 ∨ text.length = 2) ∧ ∀ c ∈ text, isDecimalDigit c := by
  simp [isClockPart]

/-- What is read as a clock time has the form of one. -/
theorem clockForm_of_clockParts? {text h m s : List Char}
    (hparts : clockParts? text = some (h, m, s)) : ClockForm text h m s := by
  -- joined by colons the parts are the text again
  have hjoin : [':'].intercalate (text.splitOnP (· == ':')) = text := by
    rw [← List.splitOn_eq_splitOnP]
    exact List.intercalate_splitOn ':'
  unfold clockParts? at hparts
  split at hparts
  · -- two parts and no seconds, or all three; the tests are the ones of the form
    next hh hm hsplit =>
    split at hparts
    · next hall =>
      cases hparts
      simp only [Bool.and_eq_true, Bool.not_eq_true', List.isEmpty_eq_false_iff, List.all_eq_true,
        isClockPart_iff] at hall
      obtain ⟨⟨hne, hhours⟩, hlength, hminutes⟩ := hall
      refine ⟨Or.inl ⟨?_, rfl⟩, hne, hlength, Or.inl rfl, ?_⟩
      · rw [← hjoin, hsplit]
        simp [List.intercalate]
      · have hzero : isDecimalDigit '0' := by decide
        simpa only [List.forall_mem_append, List.mem_singleton, forall_eq] using
          ⟨hhours, hminutes, hzero⟩
    · cases hparts
  · next hh hm hs hsplit =>
    split at hparts
    · next hall =>
      cases hparts
      simp only [Bool.and_eq_true, Bool.not_eq_true', List.isEmpty_eq_false_iff, List.all_eq_true,
        isClockPart_iff] at hall
      obtain ⟨⟨⟨hne, hhours⟩, hminutesLength, hminutes⟩, hsecondsLength, hseconds⟩ := hall
      refine ⟨Or.inr ?_, hne, hminutesLength, hsecondsLength, ?_⟩
      · rw [← hjoin, hsplit]
        simp [List.intercalate]
      · simpa only [List.forall_mem_append] using ⟨hhours, hminutes, hseconds⟩
    · cases hparts
  · cases hparts

/-! ## Texts with a letter -/

private theorem isLower_letterOf_of_isDecimalDigit {c : Char} (h : isDecimalDigit c) :
    (letterOf c).isLower = false := by
  by_contra hletter
  have hclass := class_of_isLower_letterOf (Bool.of_not_eq_false hletter)
  simp [h] at hclass

private theorem isLower_letterOf_of_isBlank {c : Char} (h : isBlank c) :
    (letterOf c).isLower = false := by
  by_contra hletter
  have hclass := class_of_isLower_letterOf (Bool.of_not_eq_false hletter)
  simp [h] at hclass

section Letters

variable {text : List Char} {c : Char}

/-- A text with a form of a letter is no number. -/
theorem not_isWrittenNumber_of_letter (hc : c ∈ text) (hletter : (letterOf c).isLower) :
    ¬ IsWrittenNumber text := by
  intro hnumber
  rcases hnumber.allowed c hc with hdigit | hmark
  · rw [isLower_letterOf_of_isDecimalDigit (isDecimalDigit_of_isDigit hdigit)] at hletter
    cases hletter
  · -- No sign, point or separator is a form of a letter.
    simp only [List.mem_cons, List.not_mem_nil, or_false] at hmark
    rcases hmark with rfl | rfl | rfl | rfl <;> exact absurd hletter (by decide)

/-- A text with a form of a letter is no clock form. -/
theorem not_clockForm_of_letter (hc : c ∈ text) (hletter : (letterOf c).isLower)
    (h m s : List Char) : ¬ ClockForm text h m s := by
  intro hform
  -- a clock time is digits and colons, and no letter is either
  have hother : isDecimalDigit c ∨ c = ':' := by
    have hdigits := hform.isDecimalDigit c
    simp only [List.mem_append] at hdigits
    rcases hform.layout with ⟨rfl, -⟩ | rfl
    all_goals
      simp only [List.mem_append, List.mem_cons] at hc
      tauto
  rcases hother with hdigit | rfl
  · rw [isLower_letterOf_of_isDecimalDigit hdigit] at hletter
    cases hletter
  · exact absurd hletter (by decide)

end Letters

/-! ## Sums -/

/-- Amounts that are counted in units of a place are summed in these units, as long as the sum
fits. -/
theorem exists_sumTerms {places m : ℕ} {units : WrittenTerm → ℕ} {terms : List WrittenTerm}
    {total : Decimal} (hplaces : places ≤ 28) (htotal : total.Counts places m)
    (hread : ∀ t ∈ terms, units t < 2 ^ 96 →
      ∃ a, Decimal.read t.amount = .ok a ∧ a.Counts places (units t))
    (hfits : m + (terms.map fun t => units t * t.unit.seconds).sum < 2 ^ 96) :
    ∃ r, sumTerms total (terms.map WrittenTerm.found) = .ok r ∧
      r.Counts places (m + (terms.map fun t => units t * t.unit.seconds).sum) := by
  -- On the terms, with any sum before them: no sum on the way is larger than the last one.
  induction terms generalizing total m with
  | nil => exact ⟨total, rfl, by simpa using htotal⟩
  | cons t terms ih =>
    simp only [List.map_cons, List.sum_cons, ← Nat.add_assoc] at hfits ⊢
    have hpos : 0 < t.unit.seconds := by cases t.unit <;> decide
    have hseconds : t.unit.seconds < 2 ^ 96 := by cases t.unit <;> decide
    have hunits : units t ≤ units t * t.unit.seconds := Nat.le_mul_of_pos_right _ hpos
    obtain ⟨a, ha, hcounts⟩ := hread t List.mem_cons_self (by omega)
    obtain ⟨product, hproduct, hcounts⟩ := hcounts.exists_mul? hplaces hseconds (by omega)
    obtain ⟨sum, hsum, hcounts⟩ := htotal.exists_add? hcounts hplaces (by omega)
    obtain ⟨r, hr, hcounts⟩ := ih hcounts (fun u hu => hread u (List.mem_cons_of_mem t hu)) hfits
    refine ⟨r, ?_, hcounts⟩
    have hamount : Decimal.read t.found.amount = .ok a := ha
    have hfactor : a.mul? t.found.unit.factor = some product := hproduct
    rw [sumTerms, hamount]
    show (orFault .outOfRange (a.mul? t.found.unit.factor) >>= fun seconds =>
      orFault .outOfRange (total.add? seconds) >>= fun total => sumTerms total _) = _
    rw [hfactor]
    show (orFault .outOfRange (total.add? product) >>= fun total => sumTerms total _) = _
    rw [hsum]
    exact hr

/-! ## Whole amounts -/

/-- A whole amount with a unit as it is written, with white space around the unit. -/
structure WholeTerm where
  amount : ℕ
  gap : List Char
  word : List Char
  unit : DurationUnit
  after : List Char
  isBlank : ∀ c ∈ gap ++ after, isBlank c
  spells : Spells word unit

namespace WholeTerm

/-- The characters of a whole amount with its unit. -/
def text (t : WholeTerm) : List Char :=
  natDigits t.amount ++ (t.gap ++ (t.word ++ t.after))

/-- The seconds of a list of terms. -/
def total (terms : List WholeTerm) : ℕ :=
  (terms.map fun t => t.amount * t.unit.seconds).sum

/-- The part of a whole term that is read. -/
def written (t : WholeTerm) : WrittenTerm where
  whole := natDigits t.amount
  places := []
  gap := t.gap
  word := t.word
  unit := t.unit
  whole_ne_nil := natDigits_ne_nil t.amount
  isDecimalDigit := by
    simpa using fun _ hc => isDecimalDigit_of_isDigit (isDigit_of_mem_natDigits hc)
  isBlank := fun c hc => t.isBlank c (List.mem_append_left _ hc)
  spells := t.spells

private theorem amount_written (t : WholeTerm) : t.written.amount = natDigits t.amount :=
  List.append_nil _

/-- The text of a term is what is written of it and the blanks behind. -/
theorem text_eq (t : WholeTerm) : t.text = t.written.text ++ t.after := by
  rw [WrittenTerm.text, amount_written]
  simp [text, written]

private theorem head_written (t : WholeTerm) (rest : List Char) :
    ∀ c ∈ (t.written.text ++ rest).head?, FieldQuery.Text.isDecimalDigit c := by
  intro c hc
  obtain ⟨tail, htail⟩ := List.head?_eq_some_iff.mp hc
  exact WrittenTerm.isDecimalDigit_of_begins ⟨rest, htail⟩

/-- Whole terms are found one after another, as each of them ends where the next one begins. -/
theorem scans_flatMap (terms : List WholeTerm) {rest : List Char} {more : List WrittenTerm}
    (hrest : Scans (fun c => FieldQuery.Text.isBlank c) rest more)
    (hhead : ∀ c ∈ rest.head?, (letterOf c).isLower = false) :
    Scans (fun c => FieldQuery.Text.isBlank c) (terms.flatMap text ++ rest)
      (terms.map written ++ more) := by
  induction terms with
  | nil => exact hrest
  | cons t terms ih =>
    -- Behind a term comes white space or the first digit of the next one, and no letter.
    have hafter : ∀ c ∈ t.after, FieldQuery.Text.isBlank c :=
      fun c hc => t.isBlank c (List.mem_append_right _ hc)
    have hnext : ∀ c ∈ (t.after ++ (terms.flatMap text ++ rest)).head?,
        (letterOf c).isLower = false := by
      intro c hc
      rw [List.head?_append, Option.mem_def, Option.or_eq_some_iff] at hc
      rcases hc with hc | ⟨-, hc⟩
      · exact isLower_letterOf_of_isBlank (hafter c (List.mem_of_mem_head? hc))
      · cases terms with
        | nil => exact hhead c hc
        | cons u terms =>
          rw [List.flatMap_cons, text_eq, List.append_assoc, List.append_assoc] at hc
          exact isLower_letterOf_of_isDecimalDigit (u.head_written _ c hc)
    rw [List.flatMap_cons, text_eq, List.append_assoc, List.append_assoc]
    apply Scans.take t.written _ _ (t.written.isLongest_append hnext)
    exact ih.append_blank fun c hc => ⟨hafter c hc, hafter c hc⟩

/-- A text that consists of whole terms and ends with the last one of them. -/
structure Fills (terms : List WholeTerm) (body : List Char) : Prop where
  head : ∀ c ∈ body.head?, FieldQuery.Text.isDecimalDigit c
  last : ∃ c, body.getLast? = some c ∧ (letterOf c).isLower
  scans : Scans (fun c => FieldQuery.Text.isBlank c) body (terms.map written)

/-- Whole terms are such a text without the white space behind the last one. -/
theorem exists_fills {terms : List WholeTerm} (hne : terms ≠ []) : ∃ body after,
    terms.flatMap text = body ++ after ∧ (∀ c ∈ after, FieldQuery.Text.isBlank c) ∧
      Fills terms body := by
  -- the body ends with the last term's word: what blanks follow it are not part of it
  obtain ⟨init, last, rfl⟩ : ∃ init last, terms = init ++ [last] :=
    ⟨_, _, (List.dropLast_append_getLast hne).symm⟩
  refine ⟨init.flatMap text ++ last.written.text, last.after, by simp [text_eq],
    fun c hc => last.isBlank c (List.mem_append_right _ hc), ?_, ?_, ?_⟩
  · cases init with
    | nil => simpa using last.head_written []
    | cons t init =>
      simpa [text_eq] using t.head_written (t.after ++ (init.flatMap text ++ last.written.text))
  · have hword : last.written.word ≠ [] := last.spells.ne_nil
    refine ⟨last.written.word.getLast hword, ?_, last.spells.isLower _ (List.getLast_mem hword)⟩
    rw [WrittenTerm.text, ← List.append_assoc, ← List.append_assoc,
      List.getLast?_append_of_ne_nil _ hword, List.getLast?_eq_getLast_of_ne_nil hword]
  · rw [List.map_append]
    apply scans_flatMap
    · have hlongest : last.written.IsLongest (last.written.text ++ []) :=
        last.written.isLongest_append (by simp)
      have hlast : Scans (fun c => FieldQuery.Text.isBlank c) (last.written.text ++ [])
          [last.written] := .take last.written [] [] hlongest .nil
      simpa using hlast
    · intro c hc
      have hhead := last.head_written [] c (by simpa using hc)
      exact isLower_letterOf_of_isDecimalDigit hhead

private theorem Fills.isTrimmed {terms : List WholeTerm} {body : List Char} (h : Fills terms body) :
    IsTrimmed body := by
  refine ⟨fun c hc => isBlank_of_isDecimalDigit (h.head c hc), fun c hc => ?_⟩
  obtain ⟨d, hlast, hletter⟩ := h.last
  obtain rfl : d = c := Option.some.inj (hlast.symm.trans hc)
  exact (class_of_isLower_letterOf hletter).2.1

end WholeTerm

/-! ## Seconds -/

/-- Of a text with a letter the amounts with units are summed. -/
theorem unsignedSeconds_of_letter {body : List Char} {c : Char} (hc : c ∈ body)
    (hletter : (letterOf c).isLower) (hne : durationTerms body ≠ []) :
    unsignedSeconds body = (do
      let total ← sumTerms .zero (durationTerms body)
      orFault .outOfRange (toInt64? total.round)) := by
  unfold unsignedSeconds
  split
  · -- neither a number nor a clock time has a letter in it
    next d hread =>
    exact absurd (Decimal.writtenNumber_of_read hread).1 (not_isWrittenNumber_of_letter hc hletter)
  split
  · next h m s hparts =>
    exact absurd (clockForm_of_clockParts? hparts) (not_clockForm_of_letter hc hletter h m s)
  split
  · next hnil => exact absurd hnil hne
  · rfl

/-- The size of a duration has to be in range before the sign is applied to it. -/
theorem durationSeconds_of_size {text body : List Char} {negative : Bool} {n : ℕ}
    (hsigned : Signed text negative body)
    (hsize : unsignedSeconds body = orFault .outOfRange (toInt64? n)) :
    durationSeconds text =
      if n < 2 ^ 63 then .ok (Int64.ofInt (if negative then -n else n))
      else .error .outOfRange := by
  rw [durationSeconds, hsigned.splitSign_eq]
  simp only [hsize, toInt64?_eq]
  by_cases hlt : n < 2 ^ 63
  · -- below the greatest number both signs are in range
    have hrange : InRange n := ⟨by omega, by omega⟩
    have hneg : InRange (-(n : ℤ)) := ⟨by omega, by omega⟩
    have hvalue : (Int64.ofInt n).toInt = n := Int64.toInt_ofInt_of_le hrange.1 hrange.2
    rw [if_pos hrange, if_pos hlt]
    cases negative with
    | false => rfl
    | true =>
      show orFault _ (if InRange (-(Int64.ofInt n).toInt) then _ else _) = _
      rw [hvalue, if_pos hneg]
      rfl
  · have hrange : ¬ InRange n := fun h => hlt (by exact_mod_cast h.2)
    rw [if_neg hrange, if_neg hlt]
    rfl

namespace WholeTerm

variable {terms : List WholeTerm} {before middle after : List Char}

/-- Whole amounts are summed exactly as long as the sum fits. -/
theorem sumTerms_written (hfits : total terms < 2 ^ 96) :
    ∃ r, sumTerms .zero (terms.map written |>.map WrittenTerm.found) = .ok r ∧
      r.round = total terms := by
  have htotal : 0 + ((terms.map written).map fun t =>
      Nat.ofDigitChars 10 t.whole 0 * t.unit.seconds).sum = total terms := by
    simp [total, written, Function.comp_def]
  -- every amount is a whole number within range, and so is read exactly
  have hread : ∀ t ∈ terms.map written, Nat.ofDigitChars 10 t.whole 0 < 2 ^ 96 →
      ∃ a, Decimal.read t.amount = .ok a ∧ a.Counts 0 (Nat.ofDigitChars 10 t.whole 0) := by
    intro t ht hsize
    obtain ⟨u, -, rfl⟩ := List.mem_map.mp ht
    have hvalue : Nat.ofDigitChars 10 u.written.whole 0 = u.amount :=
      ofDigitChars_natDigits u.amount
    rw [hvalue] at hsize ⊢
    rw [amount_written]
    refine ⟨_, Decimal.read_natDigits false hsize, ?_⟩
    simpa using Decimal.counts_make hsize (Nat.zero_le 28) le_rfl
  obtain ⟨r, hr, hcounts⟩ := exists_sumTerms (Nat.zero_le 28) (Decimal.counts_zero 0) hread
    (htotal ▸ hfits)
  exact ⟨r, hr, htotal ▸ hcounts.round_eq⟩

/-- Terms that fill a text are read as their sum, if it fits. -/
theorem Fills.unsignedSeconds {body : List Char} (h : Fills terms body) (hne : terms ≠ [])
    (hfits : total terms < 2 ^ 96) :
    unsignedSeconds body = orFault .outOfRange (toInt64? (total terms)) := by
  obtain ⟨c, hlast, hletter⟩ := h.last
  obtain ⟨r, hr, hround⟩ := sumTerms_written hfits
  -- there are terms, so the body is neither a number nor a clock time
  have hfound : durationTerms body ≠ [] := by
    rw [h.scans.durationTerms]
    simpa using hne
  rw [unsignedSeconds_of_letter (List.mem_of_getLast? hlast) hletter hfound, h.scans.durationTerms,
    hr, ← hround]
  rfl

/-- The seconds of whole amounts with units, with a sign in front or without one. -/
theorem durationSeconds_flatMap (hne : terms ≠ []) (negative : Bool)
    (hblank : ∀ c ∈ before ++ (middle ++ after), FieldQuery.Text.isBlank c)
    (hfits : total terms < 2 ^ 96) :
    durationSeconds
        (before ++ (signChars negative ++ (middle ++ (terms.flatMap text ++ after)))) =
      if total terms < 2 ^ 63 then
        .ok (Int64.ofInt (if negative then -total terms else total terms))
      else .error .outOfRange := by
  obtain ⟨body, gap, htext, hgap, hfills⟩ := exists_fills hne
  apply durationSeconds_of_size _ (hfills.unsignedSeconds hne hfits)
  refine ⟨⟨before, middle, gap ++ after, by simp [htext], ?_⟩, hfills.isTrimmed, ?_⟩
  · simp only [List.forall_mem_append] at hblank ⊢
    exact ⟨hblank.1, hblank.2.1, hgap, hblank.2.2⟩
  · -- The first character is a digit, so the sign is not another one of the body.
    intro _ hminus
    exact absurd (hfills.head '-' hminus) (by decide)

/-- A duration of whole amounts with units is their sum, negated behind a minus sign. Neither their
order nor their spelling matters. -/
theorem parseDuration_flatMap (hne : terms ≠ []) (negative : Bool)
    (hblank : ∀ c ∈ before ++ (middle ++ after), FieldQuery.Text.isBlank c)
    (hrange : total terms < 2 ^ 63) :
    parseDuration (String.ofList
        (before ++ (signChars negative ++ (middle ++ (terms.flatMap text ++ after))))) =
      .ok (Int64.ofInt (if negative then -total terms else total terms)) := by
  have hseconds := durationSeconds_flatMap hne negative hblank (hrange.trans (by decide))
  rw [if_pos hrange] at hseconds
  rw [parseDuration, String.toList_ofList, hseconds]
  rfl

/-- Half an hour and two hours with a minus sign. -/
theorem parseDuration_minutes_and_hours :
    parseDuration " - 30mins2 Hours " = .ok (-9000) := by
  let terms : List WholeTerm :=
    [⟨30, [], "mins".toList, .minute, [], by simp, by decide⟩,
     ⟨2, [' '], "Hours".toList, .hour, [' '], by simp, by decide⟩]
  have htext : " - 30mins2 Hours " =
      String.ofList ([' '] ++ (signChars true ++ ([' '] ++ (terms.flatMap text ++ [])))) := by
    decide +kernel
  have hvalue : (-9000 : Int64) = Int64.ofInt (if true then -total terms else total terms) := by
    decide +kernel
  rw [htext, hvalue]
  exact parseDuration_flatMap (by simp [terms]) true (by simp) (by decide +kernel)

end WholeTerm

/-! ## Durations that have been written -/

/-- The hours, minutes and seconds in the text of a duration. -/
def clockTerms (n : ℕ) : List WholeTerm :=
  [⟨n / 3600, [], ['h'], .hour, [' '], by simp, by decide⟩,
   ⟨n % 3600 / 60, [], ['m'], .minute, [' '], by simp, by decide⟩,
   ⟨n % 60, [], ['s'], .second, [], by simp, by decide⟩]

private theorem total_clockTerms (n : ℕ) : WholeTerm.total (clockTerms n) = n := by
  simp only [WholeTerm.total, clockTerms, List.map_cons, List.map_nil, List.sum_cons, List.sum_nil,
    DurationUnit.seconds]
  omega

private theorem formatDuration_eq (s : Int64) :
    (formatDuration s).toList = [] ++ (signChars (s.toInt < 0) ++
      ([] ++ ((clockTerms s.toInt.natAbs).flatMap WholeTerm.text ++ []))) := by
  simp [formatDuration, clockTerms, WholeTerm.text, signChars]

/-- The text of a duration is read back as this duration, with the exception of the least one. -/
theorem parseDuration_formatDuration (s : Int64) :
    parseDuration (formatDuration s) =
      if s = Int64.minValue then .error (.parse .duration (formatDuration s) .outOfRange)
      else .ok s := by
  have hlow := s.le_toInt
  have hhigh := s.toInt_lt
  have hne : clockTerms s.toInt.natAbs ≠ [] := by simp [clockTerms]
  have hblank : ∀ c ∈ ([] : List Char) ++ ([] ++ []), isBlank c := by simp
  have hfits : WholeTerm.total (clockTerms s.toInt.natAbs) < 2 ^ 96 := by
    rw [total_clockTerms]
    omega
  have hseconds := WholeTerm.durationSeconds_flatMap hne (s.toInt < 0) hblank hfits
  rw [← formatDuration_eq, total_clockTerms] at hseconds
  rw [parseDuration, hseconds]
  by_cases hmin : s = Int64.minValue
  · subst hmin
    rfl
  · -- All others have a size in range.
    have hsize : s.toInt.natAbs < 2 ^ 63 := by
      by_contra hlarge
      exact hmin (Int64.toInt_inj.mp (show s.toInt = -2 ^ 63 by omega))
    have hvalue : (if decide (s.toInt < 0) = true then -(s.toInt.natAbs : ℤ) else s.toInt.natAbs) =
        s.toInt := by
      by_cases hneg : s.toInt < 0
      · rw [if_pos (decide_eq_true hneg)]
        omega
      · rw [if_neg (by simpa using hneg)]
        omega
    rw [if_pos hsize, if_neg hmin, hvalue, Int64.ofInt_toInt]
    rfl

/-- The size of the least duration is out of range. -/
theorem parseDuration_formatDuration_minValue :
    parseDuration (formatDuration Int64.minValue) ≠ .ok Int64.minValue := by
  decide +kernel

end FieldQuery.Value
