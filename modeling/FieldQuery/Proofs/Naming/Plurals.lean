import FieldQuery.Catalog.Description
import FieldQuery.Proofs.Naming.TypeNames

/-!
# Plurals that are read back

A word and its plural are meant to name the same entity. The irregular plurals are kept for both
directions and are read back, but the endings are not: `houses` ends like `buses`, `caches` like
`boxes` with a sibilant before it, `movies` like `cities`, and `menus` and `taxis` are taken for
singulars. Main statement: the singulars that are read back from their plurals are those that are
irregular or have no such ending, and apart from a few words such as `new`, whose plural is a word of
its own, these are all. The name of such a word is the same in both numbers, and links to many rows
find the entity that is registered for it.
-/

namespace FieldQuery.Naming

open FieldQuery.Text

/-! ## Endings that exclude each other -/

/-- A word has no ending of the one list if it has one of the other, and none of them ends in
another. -/
theorem endsWithAny_eq_false_of {these those : List String} {word : List Char}
    (happart : ∀ a ∈ these, ∀ b ∈ those, ¬ a.toList <:+ b.toList ∧ ¬ b.toList <:+ a.toList)
    (h : endsWithAny these word) : endsWithAny those word = false := by
  refine Bool.eq_false_iff.mpr fun hother => ?_
  obtain ⟨a, ha, hsuffix⟩ := endsWithAny_iff.mp h
  obtain ⟨b, hb, hsuffix'⟩ := endsWithAny_iff.mp hother
  rcases List.suffix_or_suffix_of_suffix hsuffix hsuffix' with hab | hba
  · exact (happart a ha b hb).1 hab
  · exact (happart a ha b hb).2 hba

private theorem endsWithAny_append (these those : List String) (word : List Char) :
    endsWithAny (these ++ those) word = (endsWithAny these word || endsWithAny those word) :=
  List.any_append

/-- Whether a word is one of a list. -/
def isOneOf (listed : List String) (word : List Char) : Bool :=
  listed.any fun w => w.toList == word

private theorem isOneOf_iff {listed : List String} {word : List Char} :
    isOneOf listed word ↔ ∃ w ∈ listed, w.toList = word := by
  simp [isOneOf]

/-- What holds of the listed words holds of a word among them. -/
theorem of_isOneOf {listed : List String} {word : List Char} {p : List Char → Prop}
    (hp : ∀ w ∈ listed, p w.toList) (h : isOneOf listed word) : p word := by
  obtain ⟨w, hw, rfl⟩ := isOneOf_iff.mp h
  exact hp w hw

/-- A word with a property that no listed word has is not among them. -/
theorem isOneOf_eq_false {listed : List String} {word : List Char} {p : List Char → Bool}
    (hp : ∀ w ∈ listed, p w.toList = false) (h : p word) : isOneOf listed word = false := by
  refine Bool.eq_false_iff.mpr fun hone => ?_
  rw [of_isOneOf (p := fun w => p w = false) hp hone] at h
  cases h

/-! ## Words whose plural is that of another one -/

/-- The words that are taken for an irregular plural or for an uncountable word when an `s` stands
behind them. -/
def taken : List String :=
  ["specie", "serie", "new", "leave", "live", "wive", "knive", "halve"]

/-- Single words whose regular plural is read as that of another word. -/
def misreadWords : List String :=
  ["y", "specy", "sery", "new", "leave", "live", "wive", "knive", "halve"]

/-- The endings before a plural `s` that are taken for a part of the plural ending. -/
def misreadEndings : List String :=
  ["sse", "she", "che", "xe", "zze", "use"] ++ ["u", "i"]

/-- Whether the plural that the ending of a word calls for is that of another word. -/
def hasMisreadEnding (word : List Char) : Bool :=
  (endsWithAny ["s", "z"] word && !endsWithAny ["ss", "us", "zz"] word) ||
    isOneOf misreadWords word || endsWithAny misreadEndings word ||
    (endsWithAny ["ie"] word && 2 < word.length)

/-- Whether the plural of a word is made by its ending. -/
def isRegular (word : List Char) : Bool :=
  !isUncountable word && (irregularPlural? word).isNone

/-- Whether the plural of a word is that of another word, so that the word is not found by it. -/
def isMisread (word : List Char) : Bool :=
  isRegular word && hasMisreadEnding word

/-- A word in `s` that is no irregular or uncountable one loses its ending by rule. -/
theorem singularized_concat_s {stem : List Char} (hsmall : IsSmall stem) (hstem : '_' ∉ stem)
    (htaken : isOneOf taken stem = false) :
    singularized (stem ++ ['s']) = regularSingular (stem ++ ['s']) := by
  have hword : '_' ∉ stem ++ ['s'] := by simp [hstem]
  -- Every listed word in `s` is one of `taken` with an `s` behind it.
  have hread : ∀ listed : List String,
      (∀ w ∈ listed, w.toList.getLast? = some 's' → isOneOf taken w.toList.dropLast) →
      ∀ w ∈ listed, w.toList ≠ stem ++ ['s'] := by
    intro listed hlisted w hw heq
    have hone := hlisted w hw (by simp [heq])
    rw [heq, List.dropLast_concat, htaken] at hone
    cases hone
  have huncountable : isUncountable (stem ++ ['s']) = false := by
    refine Bool.eq_false_iff.mpr fun h => ?_
    obtain ⟨w, hw, heq⟩ := List.any_eq_true.mp h
    exact hread uncountable (by decide) w hw (eq_of_beq heq)
  have hsingular : irregularSingular? (stem ++ ['s']) = none := by
    refine Option.eq_none_iff_forall_ne_some.mpr fun singular h => ?_
    obtain ⟨p, hp, heq, -⟩ := mem_of_irregularSingular? h
    exact hread (irregular.map (·.2)) (by decide) p.2 (List.mem_map_of_mem hp) heq
  have hplural : irregularPlural? (stem ++ ['s']) = none := by
    refine Option.eq_none_iff_forall_ne_some.mpr fun plural h => ?_
    obtain ⟨p, hp, heq, -⟩ := mem_of_irregularPlural? h
    exact hread (irregular.map (·.1)) (by decide) p.1 (List.mem_map_of_mem hp) heq
  have hsmall' : IsSmall (stem ++ ['s']) := isSmall_append.mpr ⟨hsmall, by decide⟩
  rw [singularized_word hsmall' hword, huncountable, hsingular, hplural]
  simp

/-! ## The three rules of the plural -/

variable {word : List Char}

/-- The endings that take `es`. -/
def hissing : List String := ["s", "z"] ++ ["x", "ch", "sh"]

private theorem endsWithAny_sibilants (h : endsWithAny hissing word) :
    endsWithAny sibilants word =
      !(endsWithAny ["s", "z"] word && !endsWithAny ["ss", "us", "zz"] word) := by
  -- the sibilants fall into the endings that the last letter tells apart and those it does not
  have hsibilants : endsWithAny sibilants word =
      (endsWithAny ["ss", "us", "zz"] word || endsWithAny ["x", "ch", "sh"] word) := by
    rw [← endsWithAny_append]
    simp only [endsWithAny, sibilants, List.any_cons, List.any_nil, List.cons_append,
      List.nil_append, Bool.or_false]
    ac_rfl
  rw [hsibilants]
  rw [hissing, endsWithAny_append, Bool.or_eq_true] at h
  rcases h with h | h
  · have hother : endsWithAny ["x", "ch", "sh"] word = false :=
      endsWithAny_eq_false_of (by decide) h
    simp [h, hother]
  · have hother : endsWithAny ["s", "z"] word = false := endsWithAny_eq_false_of (by decide) h
    simp [h, hother]

/-- A word that takes `es` is read back if both letters are taken away again, and has one letter too
many otherwise. -/
theorem singularized_append_es (hsmall : IsSmall word) (hword : '_' ∉ word)
    (h : endsWithAny hissing word) :
    singularized (word ++ ['e', 's']) = word ↔ hasMisreadEnding word = false := by
  have hstem : IsSmall (word ++ ['e']) := isSmall_append.mpr ⟨hsmall, by decide⟩
  have he : endsWithAny ["e"] (word ++ ['e']) := endsWithAny_iff.mpr ⟨"e", by simp, word, rfl⟩
  have htaken : isOneOf taken (word ++ ['e']) = false :=
    isOneOf_eq_false (p := endsWithAny ["se", "ze", "xe", "che", "she"]) (by decide)
      ((endsWithAny_concat hissing word 'e').trans h)
  have hie : endsWithAny ["ie"] (word ++ ['e']) = false := by
    have hi : endsWithAny ["i"] word = false := endsWithAny_eq_false_of (by decide) h
    exact (endsWithAny_concat ["i"] word 'e').trans hi
  have hsingular : singularized (word ++ ['e', 's']) =
      if endsWithAny sibilants word then word else word ++ ['e'] := by
    have hsplit : word ++ ['e', 's'] = word ++ ['e'] ++ ['s'] := by simp
    have hkeeps : endsWithAny ["s", "u", "i"] (word ++ ['e']) = false :=
      endsWithAny_eq_false_of (by decide) he
    rw [hsplit, singularized_concat_s hstem (by simp [hword]) htaken,
      regularSingular_concat_s hstem (by simp), hie, endsWithAny_sibilants_concat_e, hkeeps]
    simp
  have hmisread : hasMisreadEnding word =
      (endsWithAny ["s", "z"] word && !endsWithAny ["ss", "us", "zz"] word) := by
    -- Of the ways in which a plural is misread a hissing word has only the first one.
    have hone : isOneOf misreadWords word = false :=
      isOneOf_eq_false (p := endsWithAny hissing) (by decide) h
    have hending : endsWithAny misreadEndings word = false :=
      endsWithAny_eq_false_of (by decide) h
    have hie : endsWithAny ["ie"] word = false := endsWithAny_eq_false_of (by decide) h
    rw [hasMisreadEnding, hone, hending, hie]
    simp
  rw [hsingular, hmisread, endsWithAny_sibilants h]
  cases endsWithAny ["s", "z"] word && !endsWithAny ["ss", "us", "zz"] word <;> simp

/-- A word that takes `ies` is read back, apart from three. -/
theorem singularized_append_ies {stem : List Char} (hsmall : IsSmall stem) (hstem : '_' ∉ stem) :
    singularized (stem ++ ['i', 'e', 's']) = stem ++ ['y'] ↔
      hasMisreadEnding (stem ++ ['y']) = false := by
  by_cases hone : isOneOf ["y", "specy", "sery"] (stem ++ ['y'])
  · -- `ies` is too short to lose its ending, and `species` and `series` are uncountable.
    have hbad : ∀ w ∈ ["y", "specy", "sery"], hasMisreadEnding w.toList ∧
        singularized (w.toList.dropLast ++ ['i', 'e', 's']) ≠ w.toList := by
      decide +kernel
    obtain ⟨hmisread, hsingular⟩ := of_isOneOf
      (p := fun w => hasMisreadEnding w ∧ singularized (w.dropLast ++ ['i', 'e', 's']) ≠ w) hbad hone
    rw [List.dropLast_concat] at hsingular
    simp [hmisread, hsingular]
  have hy : endsWithAny ["y"] (stem ++ ['y']) := endsWithAny_iff.mpr ⟨"y", by simp, stem, rfl⟩
  have hmisread : hasMisreadEnding (stem ++ ['y']) = false := by
    have hword : isOneOf misreadWords (stem ++ ['y']) = false :=
      isOneOf_eq_false (p := fun w => endsWithAny ["y"] w && !isOneOf ["y", "specy", "sery"] w)
        (by decide) (by simp [hy, hone])
    have hhiss : endsWithAny ["s", "z"] (stem ++ ['y']) = false :=
      endsWithAny_eq_false_of (by decide) hy
    have hending : endsWithAny misreadEndings (stem ++ ['y']) = false :=
      endsWithAny_eq_false_of (by decide) hy
    have hie : endsWithAny ["ie"] (stem ++ ['y']) = false :=
      endsWithAny_eq_false_of (by decide) hy
    rw [hasMisreadEnding, hword, hhiss, hending, hie]
    rfl
  have hlong : stem ≠ [] := by
    rintro rfl
    exact hone (by decide)
  have hie : endsWithAny ["ie"] (stem ++ ['i', 'e']) :=
    endsWithAny_iff.mpr ⟨"ie", by simp, stem, rfl⟩
  have htaken : isOneOf taken (stem ++ ['i', 'e']) = false :=
    isOneOf_eq_false (p := fun w => endsWithAny ["ie"] w &&
      !isOneOf ["y", "specy", "sery"] (w.dropLast.dropLast ++ ['y'])) (by decide)
      (by simp [hie, hone, List.dropLast_append_of_ne_nil])
  have hsplit : stem ++ ['i', 'e', 's'] = stem ++ ['i', 'e'] ++ ['s'] := by simp
  have hstem' : IsSmall (stem ++ ['i', 'e']) := isSmall_append.mpr ⟨hsmall, by decide⟩
  have hlength : 2 < (stem ++ ['i', 'e']).length := by
    have := List.length_pos_iff.mpr hlong
    simp
    omega
  rw [hsplit, singularized_concat_s hstem' (by simp [hstem]) htaken,
    regularSingular_concat_s hstem' (by simp), hie, hmisread]
  simp [hlong, cut]

/-- A word that takes `s` is read back if this is what is taken away again. -/
theorem singularized_append_s (hsmall : IsSmall word) (hword : '_' ∉ word) (hne : word ≠ [])
    (hhiss : endsWithAny hissing word = false)
    (hy : isOneOf ["y", "specy", "sery"] word = false) :
    singularized (word ++ ['s']) = word ↔ hasMisreadEnding word = false := by
  cases htaken : isOneOf taken word with
  | true =>
    -- The plural is listed, so no ending is taken away.
    have hbad : ∀ w ∈ taken, hasMisreadEnding w.toList ∧ singularized (w.toList ++ ['s']) ≠ w.toList := by
      decide +kernel
    obtain ⟨hmisread, hsingular⟩ :=
      of_isOneOf (p := fun w => hasMisreadEnding w ∧ singularized (w ++ ['s']) ≠ w) hbad htaken
    simp [hmisread, hsingular]
  | false =>
    have hlisted : isOneOf misreadWords word = false :=
      isOneOf_eq_false (p := fun w => !isOneOf ["y", "specy", "sery"] w && !isOneOf taken w)
        (by decide) (by simp [hy, htaken])
    have hend : endsWithAny ["s", "z"] word = false := by
      rw [hissing, endsWithAny_append, Bool.or_eq_false_iff] at hhiss
      exact hhiss.1
    have hs : endsWithAny ["s", "u", "i"] word = endsWithAny ["u", "i"] word := by
      have hsplit := endsWithAny_append ["s"] ["z"] word
      rw [List.singleton_append, hend, eq_comm, Bool.or_eq_false_iff] at hsplit
      simpa [hsplit.1] using endsWithAny_append ["s"] ["u", "i"] word
    have hmisread : hasMisreadEnding word =
        (endsWithAny ["sse", "she", "che", "xe", "zze", "use"] word ||
          endsWithAny ["u", "i"] word || (endsWithAny ["ie"] word && 2 < word.length)) := by
      rw [hasMisreadEnding, hlisted, hend, misreadEndings, endsWithAny_append]
      simp
    -- What the singular takes away or keeps otherwise, is not the one letter that was added: a word in
    -- `ie` does not end in `y`, and a word without its last letter is shorter.
    have hy : cut 2 word ++ ['y'] ≠ word ∨ endsWithAny ["ie"] word = false := by
      refine or_iff_not_imp_right.mpr fun hie heq => ?_
      obtain ⟨stem, rfl⟩ : ∃ stem, word = stem ++ ['i', 'e'] := by
        obtain ⟨ending, hmem, stem, rfl⟩ := endsWithAny_iff.mp (Bool.not_eq_false _ ▸ hie)
        exact ⟨stem, by simp [List.mem_singleton.mp hmem]⟩
      have hlast := congrArg List.getLast? heq
      simp at hlast
    have hcut : cut 1 word ≠ word := by
      intro heq
      have hlength := congrArg List.length heq
      have hpos := List.length_pos_iff.mpr hne
      simp only [cut, List.length_take] at hlength
      omega
    rw [singularized_concat_s hsmall hword htaken, regularSingular_concat_s hsmall hne, hs,
      hmisread]
    cases hie : endsWithAny ["ie"] word && decide (2 < word.length) with
    | true =>
      have hchanged : cut 2 word ++ ['y'] ≠ word := by
        refine hy.resolve_right fun hnot => ?_
        simp [hnot] at hie
      simp [hchanged]
    | false =>
      cases endsWithAny ["sse", "she", "che", "xe", "zze", "use"] word
      · cases endsWithAny ["u", "i"] word <;> simp
      · simp [hcut]

/-! ## Plurals that are read back -/

/-- The regular plural of a word is read back unless it is that of another one. -/
theorem singularized_regularPlural (hsmall : IsSmall word) (hword : '_' ∉ word)
    (hne : word ≠ []) :
    singularized (regularPlural word) = word ↔ hasMisreadEnding word = false := by
  have hhissing : endsWithAny ["s", "x", "z", "ch", "sh"] word = endsWithAny hissing word := by
    simp only [endsWithAny, hissing, List.any_cons, List.any_nil, List.cons_append,
      List.nil_append]
    ac_rfl
  rw [regularPlural]
  simp only [hsmall.asciiLower_eq, hhissing]
  split
  · next h => exact singularized_append_es hsmall hword h
  next hhiss =>
  split
  · next h =>
    obtain ⟨hy, -⟩ := (Bool.and_eq_true _ _).mp h
    obtain ⟨ending, hmem, stem, rfl⟩ := endsWithAny_iff.mp hy
    obtain rfl := List.mem_singleton.mp hmem
    have hcut : cut 1 (stem ++ ['y']) = stem := by simp [cut]
    change singularized (cut 1 (stem ++ ['y']) ++ ['i', 'e', 's']) = stem ++ ['y'] ↔ _
    rw [hcut]
    exact singularized_append_ies (isSmall_append.mp hsmall).1 fun hmem => hword (by simp [hmem])
  · next h =>
    refine singularized_append_s hsmall hword hne (Bool.eq_false_iff.mpr hhiss) ?_
    -- A word of these three would have taken `ies`.
    exact isOneOf_eq_false (p := fun w => !(endsWithAny ["y"] w && !vowelBeforeLast w)) (by decide)
      ((Bool.not_eq_true' _).mpr (Bool.eq_false_iff.mpr h))

/-- A singular is read back from its plural, unless the plural is made by the ending and is that of
another word. -/
theorem singularized_pluralized (hsmall : IsSmall word) (hword : '_' ∉ word)
    (hsingular : singularized word = word) :
    singularized (pluralized word) = word ↔ isMisread word = false := by
  rw [pluralized_word hsmall hword]
  split
  · next hfixed =>
    rw [Bool.or_eq_true, List.isEmpty_iff] at hfixed
    rcases hfixed with rfl | hfixed
    · decide
    · simp [hsingular, isMisread, isRegular, hfixed]
  next hchanges =>
  obtain ⟨hne, huncountable⟩ := Bool.or_eq_false_iff.mp (Bool.eq_false_iff.mpr hchanges)
  cases hplural : irregularPlural? word with
  | some plural =>
    obtain ⟨p, hp, rfl, rfl⟩ := mem_of_irregularPlural? hplural
    simp [isMisread, isRegular, hplural, (irregular_pairs p hp).2.1]
  | none =>
    -- A singular is no irregular plural, since it would have another singular then.
    have hirregular : irregularSingular? word = none := by
      have h := (singularized_singularized hsmall hword).mp (congrArg singularized hsingular)
      rwa [hsingular] at h
    have hregular : isRegular word = true := by simp [isRegular, huncountable, hplural]
    rw [Option.getD_none, hirregular, isMisread, hregular, Bool.true_and]
    exact singularized_regularPlural hsmall hword (by simpa using hne)

/-! ## Names of one word -/

private theorem isLetters_regularPlural (h : IsLetters word) : IsLetters (regularPlural word) := by
  have happend : ∀ {stem ending : List Char}, (∀ c ∈ stem, c.isLower) → IsLetters ending →
      IsLetters (stem ++ ending) := by
    intro stem ending hstem hending
    exact ⟨by simp [hending.1], List.forall_mem_append.mpr ⟨hstem, hending.2⟩⟩
  unfold regularPlural
  dsimp only
  split
  · exact happend h.2 (by decide)
  split
  · exact happend (fun c hc => h.2 c (List.mem_of_mem_take hc)) (by decide)
  · exact happend h.2 (by decide)

private theorem isLetters_pluralized (h : IsLetters word) : IsLetters (pluralized word) := by
  have hword : IsWord word := .inl h
  rw [pluralized_word hword.isSmall hword.not_mem]
  split
  · exact h
  -- irregular words are spelled with letters in both columns
  cases hirregular : irregularPlural? word with
  | some plural =>
    have hall : ∀ p ∈ irregular, IsLetters p.2.toList := by decide
    obtain ⟨p, hp, -, rfl⟩ := mem_of_irregularPlural? hirregular
    exact hall p hp
  | none =>
    rw [Option.getD_none]
    split
    · exact h
    · exact isLetters_regularPlural h

private theorem underscored_of_isLetters (h : IsLetters word) : underscored word = word := by
  have hword : IsWord word := .inl h
  have hwords := smallWords_joined (List.forall_mem_singleton.mpr hword)
  have hsame : joined ['_'] [word] = word := by simp [joined]
  rw [hsame] at hwords
  rw [underscored_plain fun c hc => hword.isNameChar hc, hwords, hsame]

/-- Words differ also when they are written with a capital. -/
theorem camelized_inj {a b : List Char} (ha : IsLetters a) (hb : IsLetters b) :
    camelized a = camelized b ↔ a = b := by
  refine ⟨fun heq => ?_, congrArg camelized⟩
  -- The word is read back from its form with a capital.
  have hread : ∀ {w : List Char}, IsLetters w → smallWords (camelized w) = [w] := by
    intro w hw
    have hwords : ∀ v ∈ [w], IsWord v := List.forall_mem_singleton.mpr (.inl hw)
    have hcamelized := EntityName.camelized_joined hwords
    rw [show joined ['_'] [w] = w by simp [joined]] at hcamelized
    rw [hcamelized, smallWords_flatMap_capital hwords]
    rfl
  exact List.singleton_inj.mp (by rw [← hread ha, heq, hread hb])

namespace EntityName

private theorem parse?_of_isLetters (h : IsLetters word) :
    parse? (String.ofList word) = some (ofSegments [] word) := by
  -- a word of letters is one segment, having no separator in it
  have hsegments : segments (joined separator [word]) = [word] := by
    rw [segments_joined]
    · simp [h.1]
    · intro part hpart c hc
      rw [List.mem_singleton.mp hpart] at hc
      have hchar : isWordChar c := isWordChar_of_isLower (h.2 c hc)
      exact ((ordinary_of_isWordChar hchar).wordChar hchar).2.1
  rw [show joined separator [word] = word by simp [joined]] at hsegments
  exact parse?_eq_some_iff.mpr ⟨[], word, by rw [String.toList_ofList, hsegments]; rfl, rfl⟩

/-- The name that a singular of small letters spells. -/
theorem ofSegments_of_isLetters (h : IsLetters word) (hsingular : singularized word = word) :
    ofSegments [] word =
      { singular := String.ofList word
        plural := String.ofList (pluralized word)
        typeName := String.ofList (camelized word)
        namespaces := []
        human := String.ofList (replaceAll separator [' '] (camelized word)) } := by
  have htype : joined separator (([] ++ [word]).map camelized) = camelized word := by
    simp [joined]
  unfold ofSegments
  simp only [underscored_of_isLetters h, hsingular, List.map_nil, htype]

/-- A singular of small letters is read back from its type name. -/
theorem parse?_typeName_of_isLetters (h : IsLetters word) (hsingular : singularized word = word) :
    parse? (ofSegments [] word).typeName = some (ofSegments [] word) := by
  have hword : IsWord word := .inl h
  have hplain : ∀ c ∈ (String.ofList word).toList, isPathChar c := by
    intro c hc
    rw [String.toList_ofList] at hc
    simp [isPathChar, hword.isNameChar hc]
  -- the singular is stable, so no irregular plural is read out of it
  have hirregular : irregularSingular? word = none := by
    have hiff := (singularized_singularized hword.isSmall hword.not_mem).mp
      (congrArg singularized hsingular)
    rwa [hsingular] at hiff
  refine (parse?_typeName_eq_self_iff hplain (parse?_of_isLetters h)).mpr ⟨?_, ?_⟩
  · rw [ofSegments_of_isLetters h hsingular]
    have hseparable := (separable_joined (List.forall_mem_singleton.mpr hword)).mpr
      ⟨List.cons_ne_nil _ _, List.isChain_singleton _⟩
    simpa [joined] using hseparable
  · rw [ofSegments_of_isLetters h hsingular, String.toList_ofList,
      lastWord_of_not_mem hword.not_mem]
    exact hirregular

end EntityName

/-! ## Plurals that are read back -/

open EntityName in
/-- The plural of a singular is read as that singular, as its name and as its type exactly if it is
not the plural that the ending of the word shares with another one. Then a link to many rows that is
named by the plural leads to the entity that is registered for the singular. -/
theorem singularize_pluralize_iff (provider : Schema.Provider) {word : String}
    (hletters : ∀ c ∈ word.toList, c.isLower) (hsingular : singularize word = word) :
    (singularize (pluralize word) = word ↔ isMisread word.toList = false) ∧
      (word ≠ "" → ∃ name, parse? word = some name ∧ name.singular = word ∧
        name.plural = pluralize word ∧
        (parse? name.plural = some name ↔ isMisread word.toList = false) ∧
        (classify name.plural = name.typeName ↔ isMisread word.toList = false) ∧
        (isMisread word.toList = false → ∀ owner schema d,
          provider.schema? name.typeName = some schema → d.kind = .hasMany →
          d.className = none → d.name = name.plural →
          (Catalog.describe provider owner d).target? =
            some ⟨name, schema.tableFor name, schema.primaryKey⟩)) := by
  have hsmall : IsSmall word.toList := fun c hc =>
    toLower_of_isWordChar (isWordChar_of_isLower (hletters c hc))
  have hnot : '_' ∉ word.toList := fun hmem => absurd (hletters '_' hmem) (by decide)
  have hfixed : singularized word.toList = word.toList := by
    rw [← String.toList_ofList (l := singularized word.toList)]
    exact congrArg String.toList hsingular
  have hiff : singularized (pluralized word.toList) = word.toList ↔
      isMisread word.toList = false := singularized_pluralized hsmall hnot hfixed
  refine ⟨?_, fun hne => ?_⟩
  · rw [← hiff, singularize, pluralize, String.toList_ofList, ← String.toList_inj,
      String.toList_ofList]
  have hword : IsLetters word.toList :=
    ⟨fun hnil => hne (String.toList_eq_nil_iff.mp hnil), hletters⟩
  have hplural := isLetters_pluralized hword
  have hname := ofSegments_of_isLetters hword hfixed
  have hpluralForm : (ofSegments [] word.toList).plural = String.ofList (pluralized word.toList) := by
    rw [hname]
  have htype := parse?_typeName_of_isLetters hword hfixed
  have hclassify : classify (pluralize word) = String.ofList (camelized word.toList) ↔
      isMisread word.toList = false := by
    rw [← hiff, classify, pluralize, String.toList_ofList, classified,
      underscored_of_isLetters hplural, String.ofList_inj,
      camelized_inj (isLetters_singularized hplural) hword]
  refine ⟨ofSegments [] word.toList, ?_, ?_, ?_, ?_, ?_, ?_⟩
  · rw [← parse?_of_isLetters hword, String.ofList_toList]
  · rw [hname, String.ofList_toList]
  · rw [hname]
    rfl
  · rw [hpluralForm, ← hiff, parse?_of_isLetters hplural, Option.some_inj, ofSegments_eq_iff,
      underscored_of_isLetters hplural, underscored_of_isLetters hword, hfixed]
    exact and_iff_right rfl
  · rw [hname]
    exact hclassify
  · intro hread owner schema d hschema hkind hclass hd
    have hfound : Catalog.findSchema? provider (ofSegments [] word.toList).typeName =
        some (ofSegments [] word.toList, schema) := by
      simp [Catalog.findSchema?, htype, hschema]
    have hclass' : classify d.name = (ofSegments [] word.toList).typeName := by
      rw [hd, hname]
      exact hclassify.mpr hread
    -- The type is registered at the top level, so it is not looked for in the namespace.
    have htarget : Catalog.targetFor provider owner (classify d.name) =
        ⟨ofSegments [] word.toList, schema.tableFor (ofSegments [] word.toList),
          schema.primaryKey⟩ := by
      simp only [Catalog.targetFor, Catalog.targetCandidates, hclass', List.findSome?_cons, hfound]
    simp [Catalog.describe, hkind, hclass, Catalog.Link.target?, htarget]

/-- A registry in which authors are registered in the singular. -/
def authors : Schema.Provider :=
  (Schema.Registry.ofList [{ typeName := "Author", tableName := some "writers" }]).provider
    fun _ _ => none

open EntityName in
/-- Both spellings of `author` are the same name, and a link named `authors` leads to the entity
that is registered as `Author`. -/
theorem singularize_pluralize_author :
    (∀ c ∈ "author".toList, c.isLower) ∧ singularize "author" = "author" ∧
      singularize (pluralize "author") = "author" ∧
      ∃ name, parse? "author" = some name ∧ parse? name.plural = some name ∧
        (Catalog.describe authors name { name := name.plural, kind := .hasMany }).target? =
          some ⟨name, "writers", "id"⟩ := by
  have hletters : ∀ c ∈ "author".toList, c.isLower := List.all_eq_true.mp (by decide +kernel)
  have hsingular : singularize "author" = "author" := by decide +kernel
  have hread : isMisread "author".toList = false := by decide +kernel
  obtain ⟨hplural, hnames⟩ := singularize_pluralize_iff authors hletters hsingular
  obtain ⟨name, hname, -, -, hparse, -, htarget⟩ := hnames (by decide)
  -- the name is known only through its parse, so its type is read off there
  have htype : name.typeName = "Author" := by
    have hsome : (parse? "author").map EntityName.typeName = some "Author" := by decide +kernel
    rw [hname] at hsome
    exact Option.some.inj hsome
  have hschema : authors.schema? name.typeName =
      some { typeName := "Author", tableName := some "writers" } := by
    rw [htype]
    decide +kernel
  exact ⟨hletters, hsingular, hplural.mpr hread, name, hname, hparse.mpr hread,
    htarget hread name _ _ hschema rfl rfl rfl⟩

/-- The plural of `house` is read as that of `hous`. -/
theorem exists_singularize_pluralize_ne :
    ¬ ∀ word : String, (∀ c ∈ word.toList, c.isLower) → singularize word = word →
      singularize (pluralize word) = word := by
  intro hall
  have hread := hall "house" (List.all_eq_true.mp (by decide +kernel)) (by decide +kernel)
  revert hread
  decide +kernel

end FieldQuery.Naming
