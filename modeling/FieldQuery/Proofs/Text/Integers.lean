import FieldQuery.Proofs.Text.Digits

/-!
# Written integers

An integer has many spellings: with a sign or without one, and with zeros in front. All of them are
read as this integer if it has 64 bits. One of them is canonical, the text that the integer is
written as.
-/

namespace FieldQuery.Text

/-! ## Natural numbers -/

/-- A text is read as a number if it is made of ASCII digits, at least one. -/
theorem readNat?_eq_some_iff {run : List Char} {n : Nat} : readNat? run = some n ↔
    run ≠ [] ∧ (∀ c ∈ run, c.isDigit) ∧ Nat.ofDigitChars 10 run 0 = n := by
  have hdigits : (!run.isEmpty && run.all Char.isDigit) = true ↔
      run ≠ [] ∧ ∀ c ∈ run, c.isDigit := by simp
  unfold readNat?
  split
  · next hrun =>
    obtain ⟨hne, hall⟩ := hdigits.mp hrun
    exact ⟨fun h => ⟨hne, hall, Option.some.inj h⟩, fun h => congrArg some h.2.2⟩
  · next hrun => exact ⟨nofun, fun h => absurd (hdigits.mpr ⟨h.1, h.2.1⟩) hrun⟩

/-! ## Integers of 64 bits -/

/-- A whole number has a 64-bit integer exactly if that stands for it. -/
theorem toInt64?_eq_some_iff {n : ℤ} {k : Int64} : toInt64? n = some k ↔ k.toInt = n := by
  unfold toInt64?
  split
  · next hrange =>
    -- inside the range the conversion is a bijection
    rw [Option.some.injEq]
    constructor
    · rintro rfl
      exact Int64.toInt_ofInt_of_le hrange.1 hrange.2
    · rintro rfl
      exact Int64.ofInt_toInt k
  · next hrange =>
    refine ⟨nofun, ?_⟩
    rintro rfl
    exact absurd ⟨k.le_toInt, k.toInt_lt⟩ hrange

/-- A spelling of an integer: a sign or none, and ASCII digits. -/
inductive SpellsInt : List Char → ℤ → Prop
  | unsigned {digits : List Char} (h : digits ≠ [] ∧ ∀ c ∈ digits, c.isDigit) :
      SpellsInt digits (Nat.ofDigitChars 10 digits 0)
  | plus {digits : List Char} (h : digits ≠ [] ∧ ∀ c ∈ digits, c.isDigit) :
      SpellsInt ('+' :: digits) (Nat.ofDigitChars 10 digits 0)
  | minus {digits : List Char} (h : digits ≠ [] ∧ ∀ c ∈ digits, c.isDigit) :
      SpellsInt ('-' :: digits) (-(Nat.ofDigitChars 10 digits 0 : ℤ))

/-- The text of an integer spells it. -/
theorem spellsInt_intText (n : ℤ) : SpellsInt (intText n).toList n := by
  have hdigits : natDigits n.natAbs ≠ [] ∧ ∀ c ∈ natDigits n.natAbs, c.isDigit :=
    ⟨natDigits_ne_nil _, fun _ => isDigit_of_mem_natDigits⟩
  rw [intText, String.toList_ofList, intDigits]
  split
  · next hneg =>
    have hspells := SpellsInt.minus hdigits
    rwa [ofDigitChars_natDigits, Int.ofNat_natAbs_of_nonpos hneg.le, neg_neg] at hspells
  · next hnonneg =>
    have hspells := SpellsInt.unsigned hdigits
    rwa [ofDigitChars_natDigits, Int.natAbs_of_nonneg (not_lt.mp hnonneg)] at hspells

/-- The spellings of the integers with 64 bits are read, and nothing else. -/
theorem readInt64?_eq_some_iff {text : List Char} {k : Int64} :
    readInt64? text = some k ↔ SpellsInt text k.toInt := by
  constructor
  · intro h
    unfold readInt64? at h
    split at h
    all_goals
      obtain ⟨n, hn, hk⟩ := Option.bind_eq_some_iff.mp h
      obtain ⟨hne, hdigits, rfl⟩ := readNat?_eq_some_iff.mp hn
      rw [toInt64?_eq_some_iff.mp hk]
    · exact .minus ⟨hne, hdigits⟩
    · exact .plus ⟨hne, hdigits⟩
    · exact .unsigned ⟨hne, hdigits⟩
  · generalize hvalue : k.toInt = n
    intro h
    have hread {digits : List Char} (h : digits ≠ [] ∧ ∀ c ∈ digits, c.isDigit) :
        readNat? digits = some (Nat.ofDigitChars 10 digits 0) :=
      readNat?_eq_some_iff.mpr ⟨h.1, h.2, rfl⟩
    cases h with
    | unsigned h =>
      -- A digit is no sign.
      unfold readInt64?
      split
      · exact absurd (h.2 _ List.mem_cons_self) (by decide)
      · exact absurd (h.2 _ List.mem_cons_self) (by decide)
      · rwa [hread h, Option.bind_some, toInt64?_eq_some_iff]
    | plus h | minus h =>
      rwa [readInt64?, hread h, Option.bind_some, toInt64?_eq_some_iff]

/-- The canonical text of an integer is read back. -/
theorem readInt64?_intText (k : Int64) : readInt64? (intText k.toInt).toList = some k :=
  readInt64?_eq_some_iff.mpr (spellsInt_intText k.toInt)

end FieldQuery.Text
