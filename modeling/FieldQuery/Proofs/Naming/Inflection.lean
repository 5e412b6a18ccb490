import FieldQuery.Proofs.Naming.ReadBack

/-!
# Singulars

Only the last word of an identifier is inflected. The singular of a word in `s` is told by what
stands before the `s`, and what the endings make of a word is a singular as they see it. Main
statement: a singular is its own singular, unless it is the irregular plural of yet another word, as
`people` is, the singular of `peoples`.
-/

namespace FieldQuery.Naming

open FieldQuery.Text

/-! ## Texts without capitals -/

/-- A text without ASCII capitals. -/
def IsSmall (text : List Char) : Prop :=
  ∀ c ∈ text, c.toLower = c

instance (text : List Char) : Decidable (IsSmall text) :=
  List.decidableBAll _ text

/-- Small letters stay as they are. -/
theorem IsSmall.asciiLower_eq {text : List Char} (h : IsSmall text) : asciiLower text = text :=
  (List.map_congr_left h).trans (List.map_id _)

/-- A text is in small letters exactly if both of its parts are. -/
theorem isSmall_append {a b : List Char} : IsSmall (a ++ b) ↔ IsSmall a ∧ IsSmall b :=
  List.forall_mem_append

/-- A shorter word has small letters as the whole one. -/
theorem IsSmall.cut {text : List Char} (h : IsSmall text) (n : Nat) : IsSmall (cut n text) :=
  fun c hc => h c (List.mem_of_mem_take hc)

/-- Cutting nothing off leaves a word as it is. -/
@[simp]
theorem cut_zero (word : List Char) : cut 0 word = word := by
  simp [cut]

/-- The first character that is cut off is the last one. -/
@[simp]
theorem cut_succ_concat (n : Nat) (stem : List Char) (c : Char) :
    cut (n + 1) (stem ++ [c]) = cut n stem := by
  have hlength : (stem ++ [c]).length - (n + 1) = stem.length - n := by simp
  rw [cut, hlength, List.take_append_of_le_length (Nat.sub_le _ _), cut]

/-! ## Endings -/

/-- A word has one of the endings exactly if one of them is a suffix. -/
theorem endsWithAny_iff {endings : List String} {word : List Char} :
    endsWithAny endings word ↔ ∃ ending ∈ endings, ending.toList <:+ word := by
  simp [endsWithAny]

/-- Endings in one character do not fit a word in another one. -/
theorem endsWithAny_eq_false {endings : List String} {word : List Char} (c : Char)
    (hendings : ∀ ending ∈ endings, ending.toList.getLast? = some c)
    (hword : word.getLast? ≠ some c) : endsWithAny endings word = false := by
  refine Bool.eq_false_iff.mpr fun h => hword ?_
  obtain ⟨ending, hmem, stem, rfl⟩ := endsWithAny_iff.mp h
  rw [List.getLast?_append, hendings ending hmem]
  rfl

/-- A last character that the endings share may be left out. -/
theorem endsWithAny_concat (endings : List String) (stem : List Char) (c : Char) :
    endsWithAny (endings.map fun ending => ending.push c) (stem ++ [c]) =
      endsWithAny endings stem := by
  simp only [endsWithAny, List.any_map]
  refine congrArg (List.any endings) (funext fun ending => ?_)
  simp [List.isSuffixOf]

/-! ## The regular singular -/

/-- A word that does not end in `s` is a singular. -/
theorem regularSingular_of_getLast? {word : List Char} (hsmall : IsSmall word)
    (h : word.getLast? ≠ some 's') : regularSingular word = word := by
  unfold regularSingular
  simp only [hsmall.asciiLower_eq]
  -- All endings of the rules are in `s`.
  rw [endsWithAny_eq_false 's' (by decide) h, endsWithAny_eq_false 's' (by decide) h,
    endsWithAny_eq_false 's' (by decide) h, endsWithAny_eq_false 's' (by decide) h]
  rfl

/-- The singular of a word in `s`, told by what stands before the `s`. -/
theorem regularSingular_concat_s {stem : List Char} (hsmall : IsSmall stem) (hne : stem ≠ []) :
    regularSingular (stem ++ ['s']) =
      if endsWithAny ["ie"] stem && 2 < stem.length then cut 2 stem ++ ['y']
      else if endsWithAny ["sse", "she", "che", "xe", "zze", "use"] stem then cut 1 stem
      else if endsWithAny ["s", "u", "i"] stem then stem ++ ['s']
      else stem := by
  have hlower : asciiLower (stem ++ ['s']) = stem ++ ['s'] :=
    (isSmall_append.mpr ⟨hsmall, by decide⟩).asciiLower_eq
  have hies : endsWithAny ["ies"] (stem ++ ['s']) = endsWithAny ["ie"] stem :=
    endsWithAny_concat ["ie"] stem 's'
  have hes : endsWithAny ["sses", "shes", "ches", "xes", "zzes", "uses"] (stem ++ ['s']) =
      endsWithAny ["sse", "she", "che", "xe", "zze", "use"] stem :=
    endsWithAny_concat ["sse", "she", "che", "xe", "zze", "use"] stem 's'
  have hsame : endsWithAny ["ss", "us", "is"] (stem ++ ['s']) = endsWithAny ["s", "u", "i"] stem :=
    endsWithAny_concat ["s", "u", "i"] stem 's'
  have hs : endsWithAny ["s"] (stem ++ ['s']) = true :=
    endsWithAny_iff.mpr ⟨"s", by simp, stem, rfl⟩
  -- The lengths are those of the whole word.
  have hlong : (3 < stem.length + 1) = (2 < stem.length) := propext (by omega)
  have hshort : (1 < stem.length + 1) = True := by
    simpa [List.length_pos_iff] using hne
  unfold regularSingular
  simp only [hlower, hies, hes, hsame, hs, hlong, hshort, List.length_append,
    List.length_singleton, cut_succ_concat, cut_zero, decide_true, Bool.and_self, if_true]

/-- A word in `ss`, `us` or `is` is a singular. -/
theorem regularSingular_of_endsWithAny {stem : List Char} (hsmall : IsSmall stem)
    (h : endsWithAny ["s", "u", "i"] stem) : regularSingular (stem ++ ['s']) = stem ++ ['s'] := by
  obtain ⟨ending, hmem, hsuffix⟩ := endsWithAny_iff.mp h
  -- `es` is cut off under conditions of its own, which a stem without a final `e` never meets
  have hlast : stem.getLast? ≠ some 'e' := by
    obtain ⟨start, rfl⟩ := hsuffix
    simp only [List.mem_cons, List.not_mem_nil, or_false] at hmem
    rcases hmem with rfl | rfl | rfl <;> simp
  have hne : stem ≠ [] := by
    rintro rfl
    revert h
    decide
  rw [regularSingular_concat_s hsmall hne, endsWithAny_eq_false 'e' (by decide) hlast,
    endsWithAny_eq_false 'e' (by decide) hlast]
  simp [h]

/-- The stems that take `es` in the plural and lose both letters again. -/
def sibilants : List String := ["ss", "sh", "ch", "x", "zz", "us"]

/-- The endings before a final `es` are the sibilants with an `e`. -/
theorem endsWithAny_sibilants_concat_e (stem : List Char) :
    endsWithAny ["sse", "she", "che", "xe", "zze", "use"] (stem ++ ['e']) =
      endsWithAny sibilants stem :=
  endsWithAny_concat sibilants stem 'e'

private theorem regularSingular_of_sibilant {stem : List Char} (hsmall : IsSmall stem)
    (h : endsWithAny sibilants stem) : regularSingular stem = stem := by
  obtain ⟨ending, hmem, start, rfl⟩ := endsWithAny_iff.mp h
  -- `ss` and `us` end in `s` themselves, so they are kept by a rule of their own.
  have hdouble : ∀ c : Char, (c = 's' ∨ c = 'u') → ending.toList = [c, 's'] →
      regularSingular (start ++ ending.toList) = start ++ ending.toList := by
    rintro c hc hending
    have hsplit : start ++ ending.toList = start ++ [c] ++ ['s'] := by simp [hending]
    rw [hsplit] at hsmall ⊢
    refine regularSingular_of_endsWithAny (isSmall_append.mp hsmall).1 (endsWithAny_iff.mpr ?_)
    rcases hc with rfl | rfl
    · exact ⟨"s", by simp, start, rfl⟩
    · exact ⟨"u", by simp, start, rfl⟩
  simp only [sibilants, List.mem_cons, List.not_mem_nil, or_false] at hmem
  rcases hmem with rfl | rfl | rfl | rfl | rfl | rfl
  · exact hdouble 's' (.inl rfl) rfl
  · exact regularSingular_of_getLast? hsmall (by simp)
  · exact regularSingular_of_getLast? hsmall (by simp)
  · exact regularSingular_of_getLast? hsmall (by simp)
  · exact regularSingular_of_getLast? hsmall (by simp)
  · exact hdouble 'u' (.inr rfl) rfl

/-- The regular singular is a singular. -/
theorem regularSingular_regularSingular {word : List Char} (hsmall : IsSmall word) :
    regularSingular (regularSingular word) = regularSingular word := by
  by_cases hlast : word.getLast? = some 's'
  case neg => rw [regularSingular_of_getLast? hsmall hlast, regularSingular_of_getLast? hsmall hlast]
  obtain ⟨stem, rfl⟩ := List.getLast?_eq_some_iff.mp hlast
  obtain ⟨hstem, -⟩ := isSmall_append.mp hsmall
  by_cases hne : stem = []
  · subst hne
    decide
  rw [regularSingular_concat_s hstem hne]
  split
  · -- `ies` has become `y`.
    have hy : IsSmall (cut 2 stem ++ ['y']) := isSmall_append.mpr ⟨hstem.cut 2, by decide⟩
    exact regularSingular_of_getLast? hy (by simp)
  split
  · next hes =>
    -- `es` has been taken from a sibilant.
    obtain ⟨start, rfl⟩ : ∃ start, stem = start ++ ['e'] := by
      refine List.getLast?_eq_some_iff.mp (Classical.not_not.mp fun hlast => ?_)
      rw [endsWithAny_eq_false 'e' (by decide) hlast] at hes
      cases hes
    rw [endsWithAny_sibilants_concat_e] at hes
    rw [cut_succ_concat, cut_zero]
    exact regularSingular_of_sibilant (isSmall_append.mp hstem).1 hes
  split
  · next hsame => exact regularSingular_of_endsWithAny hstem hsame
  · next hsame =>
    -- The `s` has been taken away, and no other one stood before it.
    refine regularSingular_of_getLast? hstem fun hs => hsame ?_
    obtain ⟨start, rfl⟩ := List.getLast?_eq_some_iff.mp hs
    exact endsWithAny_iff.mpr ⟨"s", by simp, start, rfl⟩

/-! ## The last word of an identifier -/

/-- What may stand before the last word of an identifier. -/
def IsHead (head : List Char) : Prop :=
  head = [] ∨ head.getLast? = some '_'

/-- A head and a last word are what an identifier is cut into. -/
theorem lastWord_append {head last : List Char} (hhead : IsHead head) (hlast : '_' ∉ last) :
    lastWord (head ++ last) = (head, last) := by
  have hkeep : ∀ c ∈ last.reverse, (c != '_') = true := by
    intro c hc
    simpa using fun heq : c = '_' => hlast (heq ▸ List.mem_reverse.mp hc)
  -- the last word is the run without an underscore at the end
  have htake : (head ++ last).reverse.takeWhile (· != '_') = last.reverse := by
    rw [List.reverse_append, List.takeWhile_append_of_pos hkeep]
    rcases hhead with rfl | hhead
    · simp
    · obtain ⟨start, rfl⟩ := List.getLast?_eq_some_iff.mp hhead
      simp
  have hcut : (head ++ last).length - last.length = head.length := by simp
  rw [lastWord, htake, List.reverse_reverse, hcut, List.take_left]

/-- Without an underscore the whole identifier is the last word. -/
theorem lastWord_of_not_mem {word : List Char} (h : '_' ∉ word) : lastWord word = ([], word) :=
  lastWord_append (.inl rfl) h

/-- Only the last word of an identifier is changed. -/
theorem singularized_append {head last : List Char} (hhead : IsHead head) (hlast : '_' ∉ last) :
    singularized (head ++ last) = head ++ singularized last := by
  simp only [singularized, lastWord_append hhead hlast, lastWord_of_not_mem hlast]
  split
  · rfl
  · cases irregularSingular? (asciiLower last) with
    | some singular => rfl
    | none => simp only [List.nil_append]; split <;> rfl

/-- The singular of a word in small letters. -/
theorem singularized_word {word : List Char} (hsmall : IsSmall word) (hword : '_' ∉ word) :
    singularized word =
      if word.isEmpty || isUncountable word then word
      else (irregularSingular? word).getD
        (if (irregularPlural? word).isSome then word else regularSingular word) := by
  simp only [singularized, lastWord_of_not_mem hword, hsmall.asciiLower_eq, List.nil_append]
  cases irregularSingular? word <;> rfl

/-- The plural of a word in small letters. -/
theorem pluralized_word {word : List Char} (hsmall : IsSmall word) (hword : '_' ∉ word) :
    pluralized word =
      if word.isEmpty || isUncountable word then word
      else (irregularPlural? word).getD
        (if (irregularSingular? word).isSome then word else regularPlural word) := by
  simp only [pluralized, lastWord_of_not_mem hword, hsmall.asciiLower_eq, List.nil_append]
  cases irregularPlural? word <;> rfl

/-! ## The singular of a singular -/

/-- An irregular singular stands in the table of pairs. -/
theorem mem_of_irregularSingular? {word singular : List Char}
    (h : irregularSingular? word = some singular) :
    ∃ p ∈ irregular, p.2.toList = word ∧ p.1.toList = singular := by
  obtain ⟨p, hp, rfl⟩ := Option.map_eq_some_iff.mp h
  have hword := List.find?_some hp
  exact ⟨p, List.mem_of_find?_eq_some hp, eq_of_beq hword, rfl⟩

/-- An irregular plural stands in the table of pairs. -/
theorem mem_of_irregularPlural? {word plural : List Char}
    (h : irregularPlural? word = some plural) :
    ∃ p ∈ irregular, p.1.toList = word ∧ p.2.toList = plural := by
  obtain ⟨p, hp, rfl⟩ := Option.map_eq_some_iff.mp h
  have hword := List.find?_some hp
  exact ⟨p, List.mem_of_find?_eq_some hp, eq_of_beq hword, rfl⟩

/-- Each irregular pair is read in both directions. -/
theorem irregular_pairs : ∀ p ∈ irregular,
    singularized p.1.toList = p.1.toList ∧ singularized p.2.toList = p.1.toList ∧
      pluralized p.1.toList = p.2.toList ∧ p.1.toList ≠ p.2.toList := by
  decide +kernel

private theorem isSmall_regularSingular {word : List Char} (h : IsSmall word) :
    IsSmall (regularSingular word) := by
  unfold regularSingular
  dsimp only
  split
  · exact isSmall_append.mpr ⟨h.cut 3, by decide⟩
  split
  · exact h.cut 2
  split
  · exact h
  split
  · exact h.cut 1
  · exact h

/-- A regular singular is made of the characters of the word, and perhaps a `y`. -/
theorem mem_of_mem_regularSingular {word : List Char} {c : Char} (h : c ∈ regularSingular word) :
    c ∈ word ∨ c = 'y' := by
  -- every branch takes letters off the end, and one puts a `y` there
  have hcut : ∀ {n : Nat}, c ∈ cut n word → c ∈ word := List.mem_of_mem_take
  unfold regularSingular at h
  dsimp only at h
  split at h
  · exact (List.mem_append.mp h).imp hcut List.mem_singleton.mp
  split at h
  · exact .inl (hcut h)
  split at h
  · exact .inl h
  split at h
  · exact .inl (hcut h)
  · exact .inl h

/-- A singular is its own singular, unless it is the irregular plural of another word. -/
theorem singularized_singularized {word : List Char} (hsmall : IsSmall word) (hword : '_' ∉ word) :
    singularized (singularized word) = singularized word ↔
      irregularSingular? (singularized word) = none := by
  constructor
  · -- the singular that is itself an irregular plural would be read once more, to something else
    intro h
    cases hirregular : irregularSingular? (singularized word) with
    | none => rfl
    | some singular =>
      obtain ⟨p, hp, hplural, -⟩ := mem_of_irregularSingular? hirregular
      obtain ⟨-, hback, -, hne⟩ := irregular_pairs p hp
      rw [← hplural, hback] at h
      exact absurd h hne
  · intro h
    rw [singularized_word hsmall hword] at h ⊢
    split
    · next hfixed => rw [singularized_word hsmall hword, if_pos hfixed]
    next hchanges =>
    rw [if_neg hchanges] at h
    -- the word itself may be irregular, in which case its singular is fixed already
    cases hirregular : irregularSingular? word with
    | some singular =>
      obtain ⟨p, hp, -, rfl⟩ := mem_of_irregularSingular? hirregular
      exact (irregular_pairs p hp).1
    | none =>
      rw [hirregular] at h
      simp only [Option.getD_none] at h ⊢
      split
      · next hplural =>
        rw [singularized_word hsmall hword, if_neg hchanges, hirregular, Option.getD_none,
          if_pos hplural]
      · next hplural =>
        rw [if_neg hplural] at h
        have hword' : '_' ∉ regularSingular word := fun hmem =>
          (mem_of_mem_regularSingular hmem).elim hword (by decide)
        rw [singularized_word (isSmall_regularSingular hsmall) hword', h, Option.getD_none,
          regularSingular_regularSingular hsmall, ite_self, ite_self]

end FieldQuery.Naming
