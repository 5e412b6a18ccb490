import FieldQuery.Text.Blank
import FieldQuery.Text.DecimalDigit
import FieldQuery.Proofs.Text.Digits
import Mathlib.Data.List.TakeWhile

/-!
# White space around a text

Removing white space at the ends of a text leaves what begins and ends with other characters, and
only this. A text is divided where its characters leave a class, so a run of one class is found again
in front of anything that does not continue it. White space and decimal digits have no character in
common.
-/

namespace FieldQuery.Text

/-! ## Runs of a class of characters -/

section Runs

variable {p : Char → Bool} {run rest : List Char}

/-- A run is taken as a whole if what follows does not continue it. -/
theorem takeWhile_run (hrun : ∀ c ∈ run, p c) (hrest : ∀ c ∈ rest.head?, p c = false) :
    (run ++ rest).takeWhile p = run := by
  rw [List.takeWhile_append_of_pos hrun]
  cases rest with
  | nil => simp
  | cons c rest => simp [hrest c rfl]

/-- Behind a run is what does not continue it. -/
theorem dropWhile_run (hrun : ∀ c ∈ run, p c) (hrest : ∀ c ∈ rest.head?, p c = false) :
    (run ++ rest).dropWhile p = rest := by
  rw [List.dropWhile_append_of_pos hrun]
  cases rest with
  | nil => rfl
  | cons c rest => simp [hrest c rfl]

/-- What is left begins with a character of another class. -/
theorem head?_dropWhile {text : List Char} : ∀ c ∈ (text.dropWhile p).head?, p c = false := by
  intro c hc
  have hnot := List.head?_dropWhile_not p text
  rw [Option.mem_def.mp hc] at hnot
  simpa using hnot

end Runs

/-! ## The ends of a text -/

@[simp]
theorem isBlank_space : isBlank ' ' = true := by
  decide

/-- A text without white space at its ends. -/
structure IsTrimmed (text : List Char) : Prop where
  head : ∀ c ∈ text.head?, isBlank c = false
  last : ∀ c ∈ text.getLast?, isBlank c = false

/-- White space around a trimmed text is removed, and nothing else. -/
theorem trim_append {before text after : List Char} (hbefore : ∀ c ∈ before, isBlank c)
    (htext : IsTrimmed text) (hafter : ∀ c ∈ after, isBlank c) :
    trim (before ++ (text ++ after)) = text := by
  by_cases hempty : text = []
  · -- Without a text in between all of it is white space.
    subst hempty
    have hall : ∀ c ∈ before ++ after, isBlank c := by
      intro c hc
      exact (List.mem_append.mp hc).elim (hbefore c) (hafter c)
    have hstart : trimStart (before ++ ([] ++ after)) = [] := by
      have hnone : ∀ c ∈ ([] : List Char).head?, isBlank c = false := by simp
      simpa [trimStart] using dropWhile_run hall hnone
    rw [trim, hstart]
    rfl
  · have hstart : trimStart (before ++ (text ++ after)) = text ++ after := by
      apply dropWhile_run hbefore
      intro c hc
      obtain ⟨d, rest, rfl⟩ := List.exists_cons_of_ne_nil hempty
      exact htext.head c hc
    have hend : (after.reverse ++ text.reverse).dropWhile isBlank = text.reverse := by
      apply dropWhile_run
      · intro c hc
        exact hafter c (List.mem_reverse.mp hc)
      · intro c hc
        exact htext.last c (by simpa using hc)
    rw [trim, hstart, trimEnd, List.reverse_append, hend, List.reverse_reverse]

/-- What removing white space does to a text. -/
theorem exists_trim (text : List Char) : ∃ before after, text = before ++ (trim text ++ after) ∧
    (∀ c ∈ before, isBlank c) ∧ (∀ c ∈ after, isBlank c) ∧ IsTrimmed (trim text) := by
  -- The end is removed as the start of the reversed text.
  have hend : trimStart text =
      trim text ++ ((trimStart text).reverse.takeWhile isBlank).reverse := by
    have hsplit := List.takeWhile_append_dropWhile (p := isBlank) (l := (trimStart text).reverse)
    have hreverse := congrArg List.reverse hsplit
    rw [List.reverse_append, List.reverse_reverse] at hreverse
    exact hreverse.symm
  refine ⟨text.takeWhile isBlank, ((trimStart text).reverse.takeWhile isBlank).reverse, ?_,
    fun c => List.mem_takeWhile_imp, fun c hc => List.mem_takeWhile_imp (List.mem_reverse.mp hc),
    ?_, ?_⟩
  · rw [← hend]
    exact List.takeWhile_append_dropWhile.symm
  · -- The first character stays in front, as there is nothing before it to remove.
    intro c hc
    apply head?_dropWhile (p := isBlank)
    show c ∈ (trimStart text).head?
    rw [hend, List.head?_append, Option.mem_def.mp hc]
    rfl
  · intro c hc
    have hreverse : c ∈ ((trimStart text).reverse.dropWhile isBlank).head? := by
      simpa [trim, trimEnd] using hc
    exact head?_dropWhile c hreverse

/-! ## Classes without a common character -/

/-- Whether no range of one class meets a range of another class. -/
def CodeRanges.apart (a b : CodeRanges) : Bool :=
  a.all fun r => b.all fun s => r.2 < s.1 || s.2 < r.1

private theorem CodeRanges.contains_eq_false {a b : CodeRanges} (h : a.apart b = true) {c : Char}
    (hc : a.contains c = true) : b.contains c = false := by
  obtain ⟨r, hr, hin⟩ := List.any_eq_true.mp hc
  refine List.any_eq_false.mpr fun s hs hs' => ?_
  have hapart := List.all_eq_true.mp (List.all_eq_true.mp h r hr) s hs
  simp only [Bool.and_eq_true, Bool.or_eq_true, decide_eq_true_eq] at hin hs' hapart
  omega

/-- A decimal digit of any script is no white space. -/
theorem isBlank_of_isDecimalDigit {c : Char} (h : isDecimalDigit c) : isBlank c = false := by
  have hrange : decimalDigitRanges.contains c = true := by
    unfold isDecimalDigit at h
    split at h
    · -- The ASCII digits are the first of the ranges.
      have hdigit := toNat_of_isDigit h
      simp only [CodeRanges.contains, decimalDigitRanges, List.any_cons]
      simp [hdigit]
    · exact h
  exact CodeRanges.contains_eq_false (by decide +kernel) hrange

/-- White space is no digit. -/
theorem isDecimalDigit_of_isBlank {c : Char} (h : isBlank c) : isDecimalDigit c = false := by
  by_contra hdigit
  have hblank := isBlank_of_isDecimalDigit (Bool.of_not_eq_false hdigit)
  simp [h] at hblank

/-- The ASCII digits are decimal digits. -/
theorem isDecimalDigit_of_isDigit {c : Char} (h : c.isDigit) : isDecimalDigit c := by
  have hdigit := toNat_of_isDigit h
  rw [isDecimalDigit, if_pos (by omega)]
  exact h

end FieldQuery.Text
