import FieldQuery.Value.Duration
import FieldQuery.Proofs.Text.Trimming
import Mathlib.Data.List.Infix

/-!
# Amounts with units

A term of a duration is an amount with a unit. Where a term begins in a text, the longest one is read,
whichever spelling of a unit begins another; where none begins, a character is passed over. Main
statement: the terms that are found in a text are those of a scan by this rule, and of no other one.
-/

namespace FieldQuery.Value

open FieldQuery.Number FieldQuery.Text

/-! ## Spellings of units -/

/-- The small letter that a character is a form of. -/
def letterOf (c : Char) : Char :=
  if c = 'ſ' then 's' else c.toLower

/-- A word in any case, the long s included, is a spelling of a unit. -/
def Spells (word : List Char) (unit : DurationUnit) : Prop :=
  (String.ofList (word.map letterOf), unit) ∈ unitSpellings

instance (word : List Char) (unit : DurationUnit) : Decidable (Spells word unit) :=
  inferInstanceAs (Decidable (_ ∈ _))

private theorem isLower_of_mem_unitSpellings :
    ∀ e ∈ unitSpellings, ∀ c ∈ e.1.toList, c.isLower := by
  have hall : unitSpellings.all fun e => e.1.toList.all Char.isLower := by decide
  intro e he
  exact List.all_eq_true.mp (List.all_eq_true.mp hall e he)

private theorem ne_nil_of_mem_unitSpellings : ∀ e ∈ unitSpellings, e.1.toList ≠ [] := by
  decide

/-- Where one spelling begins another, the longer one comes first. -/
theorem unitSpellings_pairwise :
    unitSpellings.Pairwise fun a b => ¬ a.1.toList <+: b.1.toList := by
  decide

private theorem unit_unique : ∀ a ∈ unitSpellings, ∀ b ∈ unitSpellings, a.1 = b.1 → a.2 = b.2 := by
  decide

private theorem isFormOf_eq {letter : Char} (h : letter.isLower) (c : Char) :
    isFormOf letter c = (letter == letterOf c) := by
  unfold isFormOf letterOf
  by_cases hc : c = 'ſ'
  · -- The long s is no letter of a spelling itself.
    have hlong : letter ≠ 'ſ' := by
      rintro rfl
      exact absurd h (by decide)
    have hsame : 'ſ'.toLower = 'ſ' := by decide
    subst hc
    simp [hsame, hlong.symm, Bool.beq_eq_decide_eq]
  · simp [hc, Bool.beq_eq_decide_eq, eq_comm]

/-- A word begins a text if its letters are those that the first characters are forms of. -/
theorem afterWord?_eq {word : List Char} (h : ∀ c ∈ word, c.isLower) (text : List Char) :
    afterWord? word text =
      if word.isPrefixOf (text.map letterOf) then some (text.drop word.length) else none := by
  -- induction on the word: each of its letters is compared with one of the text
  induction word generalizing text with
  | nil => simp [afterWord?]
  | cons letter word ih =>
    cases text with
    | nil => simp [afterWord?]
    | cons c text =>
      have hletter := isFormOf_eq (h letter List.mem_cons_self) c
      have hrest := ih (fun d hd => h d (List.mem_cons_of_mem letter hd)) text
      simp only [afterWord?, hletter, hrest, List.map_cons, List.isPrefixOf_cons_cons,
        List.length_cons, List.drop_succ_cons]
      by_cases heq : letter = letterOf c <;> simp [heq]

/-- The unit of a text is that of the first spelling that begins it. -/
theorem readUnit?_eq (text : List Char) :
    readUnit? text =
      (unitSpellings.find? fun e => e.1.toList.isPrefixOf (text.map letterOf)).map
        fun e => (e.2, text.drop e.1.toList.length) := by
  have hfind : ∀ entries : List (String × DurationUnit),
      (∀ e ∈ entries, ∀ c ∈ e.1.toList, c.isLower) →
      (entries.findSome? fun e => (afterWord? e.1.toList text).map fun rest => (e.2, rest)) =
        (entries.find? fun e => e.1.toList.isPrefixOf (text.map letterOf)).map
          fun e => (e.2, text.drop e.1.toList.length) := by
    -- the entries are generalized, as the induction is over the table
    intro entries hentries
    induction entries with
    | nil => rfl
    | cons e entries ih =>
      have hrest := ih fun e' he' => hentries e' (List.mem_cons_of_mem e he')
      rw [List.findSome?_cons, List.find?_cons, hrest,
        afterWord?_eq (hentries e List.mem_cons_self)]
      cases e.1.toList.isPrefixOf (text.map letterOf) <;> rfl
  exact hfind unitSpellings isLower_of_mem_unitSpellings

/-- The first spelling that begins a text is the longest one. -/
theorem length_le_of_find? {letters : List Char} {e : String × DurationUnit}
    (h : (unitSpellings.find? fun e => e.1.toList.isPrefixOf letters) = some e) :
    ∀ e' ∈ unitSpellings, e'.1.toList <+: letters → e'.1.toList.length ≤ e.1.toList.length := by
  have hpairwise := unitSpellings_pairwise
  revert h hpairwise
  generalize unitSpellings = entries
  intro h hpairwise e' hmem hstart
  induction entries with
  | nil => exact absurd hmem List.not_mem_nil
  | cons a entries ih =>
    obtain ⟨hfirst, hpairwise⟩ := List.pairwise_cons.mp hpairwise
    rw [List.find?_cons] at h
    split at h
    · next hbegins =>
      obtain rfl := Option.some.inj h
      rcases List.mem_cons.mp hmem with rfl | hmem
      · exact le_rfl
      · -- A longer one that comes later would begin with the first.
        by_contra hlonger
        have hbegins := List.isPrefixOf_iff_prefix.mp hbegins
        exact hfirst e' hmem (List.prefix_of_prefix_length_le hbegins hstart (by omega))
    · next hbegins =>
      rcases List.mem_cons.mp hmem with rfl | hmem
      · rw [List.isPrefixOf_iff_prefix.mpr hstart] at hbegins
        cases hbegins
      · exact ih h hpairwise hmem

/-- A unit is spelled with a letter at least. -/
theorem Spells.ne_nil {word : List Char} {unit : DurationUnit} (h : Spells word unit) :
    word ≠ [] := by
  rintro rfl
  exact ne_nil_of_mem_unitSpellings _ h rfl

/-- The characters of a spelling are forms of letters. -/
theorem Spells.isLower {word : List Char} {unit : DurationUnit} (h : Spells word unit) :
    ∀ c ∈ word, (letterOf c).isLower := by
  intro c hc
  apply isLower_of_mem_unitSpellings _ h
  rw [String.toList_ofList]
  exact List.mem_map_of_mem hc

/-- A spelling begins a text if its letters do so. -/
theorem letters_begin {word text : List Char} (h : word <+: text) :
    (String.ofList (word.map letterOf)).toList <+: text.map letterOf := by
  rw [String.toList_ofList]
  exact h.map letterOf

/-- A word of a text that no other spelling of a unit goes beyond. -/
structure IsLongestWord (word text : List Char) (unit : DurationUnit) : Prop where
  spells : Spells word unit
  begins : word <+: text
  longest : ∀ word' unit', Spells word' unit' → word' <+: text → word'.length ≤ word.length

/-- There is at most one such word. -/
theorem IsLongestWord.unique {word word' text : List Char} {unit unit' : DurationUnit}
    (h : IsLongestWord word text unit) (h' : IsLongestWord word' text unit') :
    word = word' ∧ unit = unit' := by
  have hlength : word.length = word'.length :=
    le_antisymm (h'.longest _ _ h.spells h.begins) (h.longest _ _ h'.spells h'.begins)
  obtain rfl : word = word' :=
    (List.prefix_of_prefix_length_le h.begins h'.begins hlength.le).eq_of_length hlength
  exact ⟨rfl, unit_unique _ h.spells _ h'.spells rfl⟩

/-- The unit at the start of a text is read from its longest word. -/
theorem exists_of_readUnit? {text rest : List Char} {unit : DurationUnit}
    (h : readUnit? text = some (unit, rest)) :
    ∃ word, IsLongestWord word text unit ∧ text = word ++ rest := by
  rw [readUnit?_eq] at h
  obtain ⟨e, hfind, hresult⟩ := Option.map_eq_some_iff.mp h
  obtain ⟨rfl, rfl⟩ := Prod.mk.inj hresult
  -- the word read is the spelling up to case, cut off the text at its length
  have hletters : (text.take e.1.toList.length).map letterOf = e.1.toList := by
    have hbegins : e.1.toList.isPrefixOf (text.map letterOf) = true := by
      simpa using List.find?_some hfind
    rw [List.map_take]
    exact (List.prefix_iff_eq_take.mp (List.isPrefixOf_iff_prefix.mp hbegins)).symm
  refine ⟨text.take e.1.toList.length, ⟨?_, List.take_prefix _ _, ?_⟩,
    (List.take_append_drop _ _).symm⟩
  · rw [Spells, hletters, String.ofList_toList]
    exact List.mem_of_find?_eq_some hfind
  · intro word' unit' hspells hstart
    have hle := length_le_of_find? hfind _ hspells (letters_begin hstart)
    rw [← hletters] at hle
    simpa using hle

/-- A unit is read where a spelling begins. -/
theorem exists_readUnit?_eq_some {word text : List Char} {unit : DurationUnit}
    (h : Spells word unit) (hstart : word <+: text) :
    ∃ result, readUnit? text = some result := by
  apply Option.ne_none_iff_exists'.mp
  rw [readUnit?_eq]
  intro hnone
  rw [Option.map_eq_none_iff, List.find?_eq_none] at hnone
  apply hnone _ h
  exact List.isPrefixOf_iff_prefix.mpr (letters_begin hstart)

/-- The longest word for a unit is the one that is read. -/
theorem IsLongestWord.readUnit? {word rest : List Char} {unit : DurationUnit}
    (h : IsLongestWord word (word ++ rest) unit) :
    readUnit? (word ++ rest) = some (unit, rest) := by
  obtain ⟨⟨unit', rest'⟩, hread⟩ := exists_readUnit?_eq_some h.spells h.begins
  obtain ⟨word', hlongest, htext⟩ := exists_of_readUnit? hread
  obtain ⟨rfl, rfl⟩ := h.unique hlongest
  rw [hread, List.append_cancel_left htext]

/-! ## Written terms -/

/-- An amount with a unit as it is written: digits of any script, with a point and places or without,
white space, and a spelling of the unit. -/
structure WrittenTerm where
  whole : List Char
  places : List Char
  gap : List Char
  word : List Char
  unit : DurationUnit
  whole_ne_nil : whole ≠ []
  isDecimalDigit : ∀ c ∈ whole ++ places, isDecimalDigit c
  isBlank : ∀ c ∈ gap, isBlank c
  spells : Spells word unit

namespace WrittenTerm

/-- The digits of the amount, with a point if there are places. -/
def amount (t : WrittenTerm) : List Char :=
  t.whole ++ if t.places.isEmpty then [] else '.' :: t.places

/-- The characters of a term. -/
def text (t : WrittenTerm) : List Char :=
  t.amount ++ (t.gap ++ t.word)

/-- A term as it is found in a text. -/
def found (t : WrittenTerm) : DurationTerm where
  amount := t.amount
  unit := t.unit
  length := t.text.length

end WrittenTerm

/-! ## Where the parts of a term end -/

/-- A form of a letter is an ASCII letter or the long s. -/
theorem toNat_of_isLower_letterOf {c : Char} (h : (letterOf c).isLower) :
    65 ≤ c.toNat ∧ c.toNat ≤ 90 ∨ 97 ≤ c.toNat ∧ c.toNat ≤ 122 ∨ c = 'ſ' := by
  unfold letterOf at h
  split at h
  · next hlong => exact Or.inr (Or.inr hlong)
  · -- between the two cases of letters `toLower` changes nothing
    by_cases hupper : 65 ≤ c.toNat ∧ c.toNat ≤ 90
    · exact Or.inl hupper
    · have hsame : c.toLower = c := by
        apply dif_neg
        intro hcapital
        exact hupper ⟨UInt32.le_iff_toNat_le.mp hcapital.1, UInt32.le_iff_toNat_le.mp hcapital.2⟩
      rw [hsame] at h
      change (decide (97 ≤ c.val) && decide (c.val ≤ 122)) = true at h
      simp only [Bool.and_eq_true, decide_eq_true_eq, UInt32.le_iff_toNat_le] at h
      exact Or.inr (Or.inl h)

/-- A form of a letter is no digit, no white space and no point. -/
theorem class_of_isLower_letterOf {c : Char} (h : (letterOf c).isLower) :
    isDecimalDigit c = false ∧ isBlank c = false ∧ c ≠ '.' := by
  rcases toNat_of_isLower_letterOf h with hcode | hcode | rfl
  -- both cases of a letter are settled by the code, the long s by evaluation
  iterate 2
    · refine ⟨?_, ?_, ?_⟩
      · rw [isDecimalDigit, if_pos (by omega)]
        by_contra hdigit
        have hrange := toNat_of_isDigit (Bool.of_not_eq_false hdigit)
        omega
      · simp only [isBlank, blankRanges, CodeRanges.contains, List.any_cons, List.any_nil,
          Bool.or_eq_false_iff, Bool.and_eq_false_iff, decide_eq_false_iff_not, and_true]
        omega
      · rintro rfl
        revert hcode
        decide
  · decide +kernel

/-- The whole part of a number is followed by its places if a point and a digit follow. -/
theorem readAmount_run {whole rest : List Char} (hwhole : ∀ c ∈ whole, isDecimalDigit c)
    (hrest : ∀ c ∈ rest.head?, isDecimalDigit c = false ∧ c ≠ '.') :
    readAmount (whole ++ rest) = (whole, rest) := by
  have hstop : ∀ c ∈ rest.head?, isDecimalDigit c = false := fun c hc => (hrest c hc).1
  simp only [readAmount, takeWhile_run hwhole hstop, dropWhile_run hwhole hstop]
  split
  · exact absurd rfl (hrest '.' rfl).2
  · rfl

private theorem readAmount_places {whole places rest : List Char}
    (hwhole : ∀ c ∈ whole, isDecimalDigit c) (hne : places ≠ [])
    (hplaces : ∀ c ∈ places, isDecimalDigit c)
    (hrest : ∀ c ∈ rest.head?, isDecimalDigit c = false) :
    readAmount (whole ++ '.' :: (places ++ rest)) = (whole ++ '.' :: places, rest) := by
  -- the point ends the whole part
  have hpoint : ∀ c ∈ ('.' :: (places ++ rest)).head?, isDecimalDigit c = false := by
    intro c hc
    obtain rfl := Option.some.inj hc
    decide
  simp only [readAmount, takeWhile_run hwhole hpoint, dropWhile_run hwhole hpoint,
    takeWhile_run hplaces hrest, dropWhile_run hplaces hrest, List.isEmpty_iff, hne, if_false]

/-- The digits of a text and what follows them, in parts. -/
theorem exists_readAmount (text : List Char) : ∃ places,
    (∀ c ∈ text.takeWhile isDecimalDigit ++ places, isDecimalDigit c) ∧
      (readAmount text).1 = text.takeWhile isDecimalDigit ++
        (if places.isEmpty then [] else '.' :: places) ∧
      text = (readAmount text).1 ++ (readAmount text).2 := by
  have hwhole : ∀ c ∈ text.takeWhile isDecimalDigit, isDecimalDigit c :=
    fun c => List.mem_takeWhile_imp
  have hsplit := List.takeWhile_append_dropWhile (p := isDecimalDigit) (l := text)
  -- without a point or places behind it, the amount is the whole part
  have hnone : ∃ places : List Char,
      (∀ c ∈ text.takeWhile isDecimalDigit ++ places, isDecimalDigit c) ∧
        text.takeWhile isDecimalDigit = text.takeWhile isDecimalDigit ++
          (if places.isEmpty then [] else '.' :: places) ∧
        text = text.takeWhile isDecimalDigit ++ text.dropWhile isDecimalDigit :=
    ⟨[], by simpa using hwhole, by simp, hsplit.symm⟩
  simp only [readAmount]
  split
  · next places hpoint =>
    split
    · exact hnone
    · next hne =>
      refine ⟨places.takeWhile isDecimalDigit, ?_, ?_, ?_⟩
      · intro c hc
        exact (List.mem_append.mp hc).elim (hwhole c) List.mem_takeWhile_imp
      · simp [hne]
      · rw [List.append_assoc, List.cons_append, List.takeWhile_append_dropWhile, ← hpoint, hsplit]
  · exact hnone

namespace WrittenTerm

variable {t u : WrittenTerm} {text rest rest' : List Char}

/-- Behind the amount of a term comes white space or a letter. -/
theorem head_of_afterAmount (t : WrittenTerm) (rest : List Char) :
    ∀ c ∈ (t.gap ++ (t.word ++ rest)).head?,
      FieldQuery.Text.isDecimalDigit c = false ∧ c ≠ '.' := by
  intro c hc
  -- what follows an amount is a blank, or a letter of the unit
  rcases hgap : t.gap with _ | ⟨blank, gap⟩
  · obtain ⟨letter, word, hword⟩ := List.exists_cons_of_ne_nil t.spells.ne_nil
    rw [hgap, hword] at hc
    obtain rfl := Option.some.inj hc
    obtain ⟨hdigit, -, hpoint⟩ := class_of_isLower_letterOf
      (t.spells.isLower letter (hword ▸ List.mem_cons_self))
    exact ⟨hdigit, hpoint⟩
  · rw [hgap] at hc
    obtain rfl := Option.some.inj hc
    have hblank := t.isBlank blank (hgap ▸ List.mem_cons_self)
    refine ⟨isDecimalDigit_of_isBlank hblank, ?_⟩
    rintro rfl
    revert hblank
    decide

private theorem readAmount_text (t : WrittenTerm) (rest : List Char) :
    readAmount (t.text ++ rest) = (t.amount, t.gap ++ (t.word ++ rest)) := by
  have hwhole : ∀ c ∈ t.whole, FieldQuery.Text.isDecimalDigit c :=
    fun c hc => t.isDecimalDigit c (List.mem_append_left _ hc)
  have hplaces : ∀ c ∈ t.places, FieldQuery.Text.isDecimalDigit c :=
    fun c hc => t.isDecimalDigit c (List.mem_append_right _ hc)
  have hhead := t.head_of_afterAmount rest
  simp only [WrittenTerm.text, amount, List.append_assoc]
  split
  · simpa using readAmount_run hwhole hhead
  · next hne =>
    rw [List.cons_append]
    exact readAmount_places hwhole (by simpa using hne) hplaces fun c hc => (hhead c hc).1

private theorem trimStart_gap (t : WrittenTerm) (rest : List Char) :
    trimStart (t.gap ++ (t.word ++ rest)) = t.word ++ rest := by
  apply dropWhile_run t.isBlank
  intro c hc
  obtain ⟨letter, word, hword⟩ := List.exists_cons_of_ne_nil t.spells.ne_nil
  rw [hword] at hc
  obtain rfl := Option.some.inj hc
  exact (class_of_isLower_letterOf (t.spells.isLower letter (hword ▸ List.mem_cons_self))).2.1

/-- The parts of a term are found in a text in one way, up to the end of the word. -/
theorem parts_unique (h : t.text ++ rest = u.text ++ rest') :
    t.amount = u.amount ∧ t.gap = u.gap ∧ t.word ++ rest = u.word ++ rest' := by
  have hamount := (t.readAmount_text rest).symm.trans (h ▸ u.readAmount_text rest')
  obtain ⟨hamount, hafter⟩ := Prod.mk.inj hamount
  have hword : t.word ++ rest = u.word ++ rest' := by
    rw [← t.trimStart_gap, hafter, u.trimStart_gap]
  rw [hword] at hafter
  exact ⟨hamount, List.append_cancel_right hafter, hword⟩

/-! ## Reading a term -/

private theorem readTerm?_text (t : WrittenTerm) (rest : List Char) :
    readTerm? (t.text ++ rest) = (readUnit? (t.word ++ rest)).map fun result =>
      { amount := t.amount, unit := result.1,
        length := (t.text ++ rest).length - result.2.length } := by
  obtain ⟨c, whole, hwhole⟩ := List.exists_cons_of_ne_nil t.whole_ne_nil
  have hdigit := t.isDecimalDigit c (by simp [hwhole])
  have hdigits : ((t.text ++ rest).takeWhile FieldQuery.Text.isDecimalDigit).isEmpty = false := by
    simp [WrittenTerm.text, amount, hwhole, hdigit]
  simp only [readTerm?, hdigits, t.readAmount_text, t.trimStart_gap]
  rfl

/-- A term that no other one at the start of a text goes beyond. -/
structure IsLongest (t : WrittenTerm) (text : List Char) : Prop where
  begins : t.text <+: text
  longest : ∀ u : WrittenTerm, u.text <+: text → u.text.length ≤ t.text.length

/-- The longest term ends in the longest word. -/
theorem isLongest_iff (t : WrittenTerm) (rest : List Char) :
    t.IsLongest (t.text ++ rest) ↔ IsLongestWord t.word (t.word ++ rest) t.unit := by
  constructor
  · intro h
    refine ⟨t.spells, List.prefix_append _ _, ?_⟩
    intro word unit hspells hstart
    -- With another word in its place it would be another term.
    let u : WrittenTerm := { t with word, unit, spells := hspells }
    have htext : u.text <+: t.text ++ rest := by
      obtain ⟨rest', hrest'⟩ := hstart
      refine ⟨rest', ?_⟩
      simp only [WrittenTerm.text, List.append_assoc, ← hrest']
      rfl
    have hlength := h.longest u htext
    simp only [WrittenTerm.text, List.length_append] at hlength
    have hamount : u.amount = t.amount := rfl
    have hgap : u.gap = t.gap := rfl
    rw [hamount, hgap] at hlength
    show u.word.length ≤ _
    omega
  · intro h
    refine ⟨List.prefix_append _ _, ?_⟩
    rintro u ⟨rest', hu⟩
    obtain ⟨hamount, hgap, hword⟩ := parts_unique hu
    have hlength := h.longest u.word u.unit u.spells ⟨rest', hword⟩
    simp only [WrittenTerm.text, List.length_append, hamount, hgap]
    omega

/-- The longest term is read. -/
theorem IsLongest.readTerm? (h : t.IsLongest (t.text ++ rest)) :
    readTerm? (t.text ++ rest) = some t.found := by
  rw [readTerm?_text, ((t.isLongest_iff rest).mp h).readUnit?]
  simp [found]

end WrittenTerm

/-- What is read at the start of a text is a term, and the longest one. -/
theorem exists_of_readTerm? {text : List Char} {term : DurationTerm}
    (h : readTerm? text = some term) :
    ∃ (t : WrittenTerm) (rest : List Char), text = t.text ++ rest ∧ t.IsLongest text ∧
      term = t.found := by
  unfold readTerm? at h
  split at h
  · cases h
  next hdigits =>
  obtain ⟨places, hplaces, hamount, htext⟩ := exists_readAmount text
  -- the amount and what follows it are fixed here, so that the reading is not opened again
  revert h hamount htext
  generalize readAmount text = parts
  intro h hamount htext
  obtain ⟨⟨unit, rest⟩, hunit, rfl⟩ := Option.map_eq_some_iff.mp h
  obtain ⟨word, hlongest, hword⟩ := exists_of_readUnit? hunit
  let t : WrittenTerm := {
    whole := text.takeWhile isDecimalDigit
    places := places
    gap := parts.2.takeWhile isBlank
    word := word
    unit := unit
    whole_ne_nil := by simpa using hdigits
    isDecimalDigit := hplaces
    isBlank := fun c => List.mem_takeWhile_imp
    spells := hlongest.spells }
  have hsplit : text = t.text ++ rest := by
    calc text = parts.1 ++ parts.2 := htext
      _ = t.amount ++ (t.gap ++ trimStart parts.2) := by
        rw [hamount, trimStart, List.takeWhile_append_dropWhile]
        rfl
      _ = t.text ++ rest := by
        rw [hword]
        simp only [WrittenTerm.text, List.append_assoc]
        rfl
  refine ⟨t, rest, hsplit, ?_, ?_⟩
  · rw [hsplit]
    exact (t.isLongest_iff rest).mpr (hword ▸ hlongest)
  · have hlength : text.length - rest.length = t.text.length := by
      rw [hsplit]
      simp
    rw [WrittenTerm.found, ← hlength]
    simp only [hamount]
    rfl

/-- A term is read wherever one begins. -/
theorem readTerm?_eq_none_iff {text : List Char} :
    readTerm? text = none ↔ ∀ t : WrittenTerm, ¬ t.text <+: text := by
  constructor
  · rintro h t ⟨rest, rfl⟩
    -- The word of the term may not be the longest, but there is a longest one.
    obtain ⟨result, hunit⟩ := exists_readUnit?_eq_some t.spells (List.prefix_append _ rest)
    rw [t.readTerm?_text, hunit] at h
    cases h
  · intro h
    cases hread : readTerm? text with
    | none => rfl
    | some term =>
      obtain ⟨t, rest, htext, -, -⟩ := exists_of_readTerm? hread
      exact absurd ⟨rest, htext.symm⟩ (h t)

/-! ## Scanning a text -/

/-- The terms of a text from left to right: where a term begins, the longest one is taken; a character
with which none begins is passed over, which may be restricted to some characters. -/
inductive Scans (passed : Char → Prop) : List Char → List WrittenTerm → Prop where
  | nil : Scans passed [] []
  | pass (c : Char) (text : List Char) (terms : List WrittenTerm) (hpassed : passed c)
      (hnone : ∀ t : WrittenTerm, ¬ t.text <+: c :: text) :
      Scans passed text terms → Scans passed (c :: text) terms
  | take (t : WrittenTerm) (rest : List Char) (terms : List WrittenTerm)
      (hlongest : t.IsLongest (t.text ++ rest)) :
      Scans passed rest terms → Scans passed (t.text ++ rest) (t :: terms)

private theorem durationTermsFrom_eq (skip : ℕ) (text : List Char) :
    durationTermsFrom skip text = durationTerms (text.drop skip) := by
  induction text generalizing skip with
  | nil => simp [durationTerms, durationTermsFrom]
  | cons c text ih =>
    cases skip with
    | zero => rfl
    | succ skip => simpa [durationTermsFrom] using ih skip

private theorem durationTerms_pass {c : Char} {text : List Char} (h : readTerm? (c :: text) = none) :
    durationTerms (c :: text) = durationTerms text := by
  simp [durationTerms, durationTermsFrom, h]

namespace WrittenTerm

private theorem text_ne_nil (t : WrittenTerm) : t.text ≠ [] := by
  obtain ⟨c, whole, hwhole⟩ := List.exists_cons_of_ne_nil t.whole_ne_nil
  simp [WrittenTerm.text, amount, hwhole]

/-- A term that cannot be read longer is found, and the search goes on behind it. -/
theorem IsLongest.durationTerms {t : WrittenTerm} {rest : List Char}
    (h : t.IsLongest (t.text ++ rest)) :
    durationTerms (t.text ++ rest) = t.found :: durationTerms rest := by
  obtain ⟨c, text, htext⟩ := List.exists_cons_of_ne_nil t.text_ne_nil
  have hread := h.readTerm?
  have hlength : t.found.length - 1 = text.length := by
    simp [found, htext]
  rw [htext, List.cons_append] at hread ⊢
  simp only [Value.durationTerms, durationTermsFrom, hread]
  rw [durationTermsFrom_eq, hlength, List.drop_left]
  rfl

end WrittenTerm

/-- The terms of a scan are those that are found. -/
theorem Scans.durationTerms {passed : Char → Prop} {text : List Char} {terms : List WrittenTerm}
    (h : Scans passed text terms) :
    durationTerms text = terms.map WrittenTerm.found := by
  induction h with
  | nil => rfl
  | pass c text terms _ hnone _ ih => rw [durationTerms_pass (readTerm?_eq_none_iff.mpr hnone), ih]
  | take t rest terms hlongest _ ih => rw [hlongest.durationTerms, ih, List.map_cons]

/-- A term begins with a digit. -/
theorem WrittenTerm.isDecimalDigit_of_begins {t : WrittenTerm} {c : Char} {text : List Char}
    (h : t.text <+: c :: text) : FieldQuery.Text.isDecimalDigit c := by
  obtain ⟨d, whole, hwhole⟩ := List.exists_cons_of_ne_nil t.whole_ne_nil
  obtain ⟨rest, hrest⟩ := h
  have hhead : d = c := by
    rw [WrittenTerm.text, amount, hwhole] at hrest
    exact (List.cons.inj hrest).1
  exact hhead ▸ t.isDecimalDigit d (by simp [hwhole])

/-- No term is longer than one that is followed by no letter. -/
theorem WrittenTerm.isLongest_append (t : WrittenTerm) {rest : List Char}
    (h : ∀ c ∈ rest.head?, (letterOf c).isLower = false) : t.IsLongest (t.text ++ rest) := by
  refine (t.isLongest_iff rest).mpr ⟨t.spells, List.prefix_append _ _, ?_⟩
  intro word unit hspells hstart
  by_contra hlonger
  -- A longer word would go on with the first character of the rest.
  obtain ⟨more, rfl⟩ := List.prefix_of_prefix_length_le (List.prefix_append t.word rest) hstart
    (by omega)
  cases more with
  | nil => simp at hlonger
  | cons c more =>
    have hhead : c ∈ rest.head? := by
      obtain ⟨rest', hrest'⟩ := List.prefix_append_right_inj t.word |>.mp hstart
      rw [← hrest']
      rfl
    have hletter := hspells.isLower c (by simp)
    rw [h c hhead] at hletter
    cases hletter

/-- White space in front of a text is passed over. -/
theorem Scans.append_blank {passed : Char → Prop} {gap text : List Char} {terms : List WrittenTerm}
    (hgap : ∀ c ∈ gap, isBlank c ∧ passed c) (h : Scans passed text terms) :
    Scans passed (gap ++ text) terms := by
  -- induction on the gap: no term begins with a blank
  induction gap with
  | nil => exact h
  | cons c gap ih =>
    obtain ⟨hblank, hpassed⟩ := hgap c List.mem_cons_self
    refine .pass c _ terms hpassed ?_ (ih fun d hd => hgap d (List.mem_cons_of_mem c hd))
    intro t hstart
    have hdigit := WrittenTerm.isDecimalDigit_of_begins hstart
    rw [isDecimalDigit_of_isBlank hblank] at hdigit
    cases hdigit

/-- Every text can be scanned if any character may be passed over. -/
theorem exists_scans (text : List Char) : ∃ terms, Scans (fun _ => True) text terms := by
  -- On the length of the text, because a term takes several characters away.
  induction hlength : text.length using Nat.strongRecOn generalizing text with
  | ind n ih =>
    subst hlength
    cases text with
    | nil => exact ⟨[], .nil⟩
    | cons c text =>
      cases hread : readTerm? (c :: text) with
      | none =>
        obtain ⟨terms, hscans⟩ := ih text.length (by simp) text rfl
        exact ⟨terms, .pass c text terms trivial (readTerm?_eq_none_iff.mp hread) hscans⟩
      | some term =>
        obtain ⟨t, rest, htext, hlongest, -⟩ := exists_of_readTerm? hread
        have hpos := List.length_pos_iff.mpr t.text_ne_nil
        obtain ⟨terms, hscans⟩ := ih rest.length (by rw [htext, List.length_append]; omega) rest rfl
        rw [htext] at hlongest ⊢
        exact ⟨t :: terms, .take t rest terms hlongest hscans⟩

end FieldQuery.Value
