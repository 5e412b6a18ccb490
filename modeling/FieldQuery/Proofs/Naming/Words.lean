import FieldQuery.Naming.EntityName
import Mathlib.Tactic.MkIffOfInductiveProp

/-!
# Words of plain identifiers

An identifier in ASCII letters and digits, with underscores, hyphens or spaces between its words, is
cut into words that are all letters or all digits, since a word ends where the one meets the other.
Both forms of the identifier are made of these words in small letters.
-/

namespace FieldQuery.Naming

open FieldQuery.Text

/-! ## Characters of plain identifiers -/

/-- A character of a plain identifier, apart from the separators of a path. -/
def isNameChar (c : Char) : Bool :=
  c.isAlphanum || c == '_' || c == '-' || c == ' '

/-- A small letter or a digit, as in words written with underscores. -/
def isWordChar (c : Char) : Bool :=
  c.isLower || c.isDigit

private theorem toNat_lt_of_isNameChar {c : Char} (h : isNameChar c) : c.toNat < 128 := by
  change (((((decide (65 ≤ c.val ∧ c.val ≤ 90)) ||
    (decide (97 ≤ c.val) && decide (c.val ≤ 122))) ||
    (decide (48 ≤ c.val) && decide (c.val ≤ 57))) || c == '_') || c == '-' || c == ' ') = true at h
  simp only [Bool.or_eq_true, Bool.and_eq_true, decide_eq_true_eq, beq_iff_eq,
    UInt32.le_iff_toNat_le] at h
  change (((((65 ≤ c.toNat ∧ c.toNat ≤ 90) ∨ (97 ≤ c.toNat ∧ c.toNat ≤ 122)) ∨
    (48 ≤ c.toNat ∧ c.toNat ≤ 57)) ∨ c = '_') ∨ c = '-') ∨ c = ' ' at h
  -- letters of both cases and digits by their ranges, the three signs by evaluation
  rcases h with ((((h | h) | h) | rfl) | rfl) | rfl
  · omega
  · omega
  · omega
  all_goals decide

/-- What holds of all characters of plain identifiers up to the last of ASCII, holds of all. -/
theorem of_isNameChar {p : Char → Prop} (h : ∀ n < 128, isNameChar (.ofNat n) → p (.ofNat n))
    {c : Char} (hc : isNameChar c) : p c := by
  have hp := h c.toNat (toNat_lt_of_isNameChar hc)
  rw [Char.ofNat_toNat] at hp
  exact hp hc

/-- The characters of words are those of plain identifiers. -/
theorem isNameChar_of_isWordChar {c : Char} (h : isWordChar c) : isNameChar c := by
  simp only [isWordChar, Bool.or_eq_true] at h
  show ((((c.isUpper || c.isLower) || c.isDigit) || c == '_') || c == '-' || c == ' ') = true
  rcases h with h | h <;> simp [h]

/-- What the tables of cases, marks and shapes say of a character of plain identifiers. -/
@[mk_iff]
structure Ordinary (c : Char) : Prop where
  upperOf_eq : upperOf c = [c.toUpper]
  lowerOf_eq : lowerOf c = [c.toLower]
  ne_sigma : c ≠ 'Σ'
  toUpper_toLower : c.toLower.toUpper = c.toUpper
  toLower_toUpper : c.toUpper.toLower = c.toLower
  isNameChar_toUpper : isNameChar c.toUpper
  isControl_eq : isControl c = false
  isExtending_eq : isExtending c = false
  prepended_eq : prependedRanges.contains c = false
  ne_return : c ≠ '\r'
  letterOrDigit : c.isAlphanum → c ≠ '/' ∧ c ≠ ':' ∧ isBlank c = false
  wordChar : isWordChar c → c.toLower = c ∧ c.isAlphanum ∧ c.toUpper.isAlphanum
  small : c.isLower → c.isDigit = false ∧ shapeOf [c] = .small ∧ shapeOf [c.toUpper] = .capital
  digit : c.isDigit → c.toUpper = c ∧ shapeOf [c] = .digit
  /-- The characters of a plain identifier are gaps, digits and letters. -/
  shape : shapeOf [c] = .gap ∨ shapeOf [c] = .digit ∧ c.toLower.isDigit ∨
    (shapeOf [c] = .small ∨ shapeOf [c] = .capital) ∧ c.toLower.isLower

instance (c : Char) : Decidable (Ordinary c) :=
  decidable_of_iff' _ (ordinary_iff c)

/-- All these characters are looked up at once. -/
theorem ordinary {c : Char} (h : isNameChar c) : Ordinary c :=
  of_isNameChar (p := Ordinary) (by decide +kernel) h

section

variable {c : Char}

/-- The tables say of a character of a word what they say of plain identifiers. -/
theorem ordinary_of_isWordChar (h : isWordChar c) : Ordinary c :=
  ordinary (isNameChar_of_isWordChar h)

theorem isWordChar_of_isLower (h : c.isLower) : isWordChar c := by
  simp [isWordChar, h]

theorem isWordChar_of_isDigit (h : c.isDigit) : isWordChar c := by
  simp [isWordChar, h]

/-- A character of a word is in lower case already. -/
theorem toLower_of_isWordChar (h : isWordChar c) : c.toLower = c :=
  ((ordinary_of_isWordChar h).wordChar h).1

/-- No character of a plain identifier is a mark on the one before it. -/
theorem joinsCluster_of_isNameChar {d : Char} (hc : isNameChar c) (hd : isNameChar d) :
    joinsCluster [c] d = false := by
  have hfirst := ordinary hc
  have hsecond := ordinary hd
  simp [joinsCluster, hfirst.isControl_eq, hfirst.prepended_eq, hfirst.ne_return,
    hsecond.isControl_eq, hsecond.isExtending_eq]

/-- A small letter has the shape of one. -/
theorem shapeOf_of_isLower (h : c.isLower) : shapeOf [c] = .small :=
  ((ordinary_of_isWordChar (isWordChar_of_isLower h)).small h).2.1

/-- The upper case of a small letter has the shape of a capital. -/
theorem shapeOf_toUpper_of_isLower (h : c.isLower) : shapeOf [c.toUpper] = .capital :=
  ((ordinary_of_isWordChar (isWordChar_of_isLower h)).small h).2.2

/-- A digit has the shape of one. -/
theorem shapeOf_of_isDigit (h : c.isDigit) : shapeOf [c] = .digit :=
  ((ordinary_of_isWordChar (isWordChar_of_isDigit h)).digit h).2

theorem not_isDigit_of_isLower (h : c.isLower) : ¬ c.isDigit := by
  simp [((ordinary_of_isWordChar (isWordChar_of_isLower h)).small h).1]

/-- An underscore stands between words. -/
theorem shapeOf_underscore : shapeOf ['_'] = .gap :=
  rfl

end

/-! ## Cutting into words -/

/-- The clusters of a text without marks. -/
def singles (text : List Char) : List (List Char) :=
  text.map fun c => [c]

@[simp]
theorem singles_cons (c : Char) (text : List Char) : singles (c :: text) = [c] :: singles text :=
  rfl

@[simp]
theorem singles_append (a b : List Char) : singles (a ++ b) = singles a ++ singles b :=
  List.map_append

/-- The clusters of a text without marks are its characters. -/
@[simp]
theorem flatten_singles (text : List Char) : (singles text).flatten = text := by
  induction text with
  | nil => rfl
  | cons c rest ih => simp [ih]

private theorem clustersFrom_plain {c : Char} {text : List Char} (hc : isNameChar c)
    (htext : ∀ d ∈ text, isNameChar d) : clustersFrom [c] text = singles (c :: text) := by
  induction text generalizing c with
  | nil => rfl
  -- neither character belongs to a cluster of several, so each is one of its own
  | cons d rest ih =>
    obtain ⟨hd, hrest⟩ := List.forall_mem_cons.mp htext
    simp [clustersFrom, joinsCluster_of_isNameChar hc hd, ih hd hrest]

/-- A plain identifier has no marks, so each of its characters is a cluster. -/
theorem clusters_plain {text : List Char} (htext : ∀ c ∈ text, isNameChar c) :
    clusters text = singles text := by
  cases text with
  | nil => rfl
  | cons c rest =>
    obtain ⟨hc, hrest⟩ := List.forall_mem_cons.mp htext
    exact clustersFrom_plain hc hrest

private theorem lowercaseAfter_plain {before text : List Char} (htext : ∀ c ∈ text, isNameChar c) :
    lowercaseAfter before text = text.map Char.toLower := by
  induction text generalizing before with
  | nil => rfl
  | cons c rest ih =>
    obtain ⟨hc, hrest⟩ := List.forall_mem_cons.mp htext
    have hlower := (ordinary hc).lowerOf_eq
    have hsigma := (ordinary hc).ne_sigma
    simp [lowercaseAfter, hsigma, hlower, ih hrest]

private theorem lowercase_plain {text : List Char} (htext : ∀ c ∈ text, isNameChar c) :
    lowercase text = text.map Char.toLower :=
  lowercaseAfter_plain htext

section

variable {current : Word} {cluster : List Char} {rest : List (List Char)}

/-- A gap ends the word before it and is left out. -/
theorem splitFrom_of_gap (h : shapeOf cluster = .gap) :
    splitFrom current (cluster :: rest) = keep current ++ splitFrom [] rest := by
  simp [splitFrom, h]

/-- A cluster at which a word ends is the last one of the word. -/
theorem splitFrom_of_ends (h : endsWord (shapeOf cluster) ((rest.take 2).map shapeOf) = true) :
    splitFrom current (cluster :: rest) = (current ++ [cluster]) :: splitFrom [] rest := by
  -- a gap ends no word, as it is in none
  have hgap : shapeOf cluster ≠ .gap := by
    intro hgap
    simp [hgap, endsWord] at h
  rw [splitFrom]
  simp only [hgap, h, if_true, if_false]
  simp [keep]

/-- A cluster at which no word ends is put behind the word. -/
theorem splitFrom_of_goes_on (hgap : shapeOf cluster ≠ .gap)
    (h : endsWord (shapeOf cluster) ((rest.take 2).map shapeOf) = false) :
    splitFrom current (cluster :: rest) = splitFrom (current ++ [cluster]) rest := by
  rw [splitFrom]
  simp only [hgap, h, Bool.false_eq_true, if_false]

end

private theorem mem_of_mem_splitFrom {current word : Word} {cs : List (List Char)} {cluster : List Char}
    (hword : word ∈ splitFrom current cs) (h : cluster ∈ word) : cluster ∈ current ∨ cluster ∈ cs := by
  have hkeep : ∀ {before : Word}, word ∈ keep before → cluster ∈ before := by
    intro before hmem
    unfold keep at hmem
    split at hmem
    · cases hmem
    · rwa [List.mem_singleton.mp hmem] at h
  induction cs generalizing current with
  | nil => exact .inl (hkeep hword)
  | cons c rest ih =>
    rw [splitFrom] at hword
    split at hword
    · -- The cluster is a gap, which is left out.
      rcases List.mem_append.mp hword with hword | hword
      · exact .inl (hkeep hword)
      · rcases ih hword with hnil | hrest
        · cases hnil
        · exact .inr (List.mem_cons_of_mem _ hrest)
    · -- The cluster is put behind the word, which ends there or goes on.
      have hsplit : cluster ∈ current ++ [c] ∨ cluster ∈ rest := by
        split at hword
        · rcases List.mem_append.mp hword with hword | hword
          · exact .inl (hkeep hword)
          · exact .inr ((ih hword).resolve_left List.not_mem_nil)
        · exact ih hword
      simpa [or_assoc] using hsplit

/-! ## Words in small letters -/

/-- A word of small letters. -/
def IsLetters (word : List Char) : Prop :=
  word ≠ [] ∧ ∀ c ∈ word, c.isLower

/-- A word of digits. -/
def IsNumber (word : List Char) : Prop :=
  word ≠ [] ∧ ∀ c ∈ word, c.isDigit

instance (word : List Char) : Decidable (IsLetters word) :=
  decidable_of_iff ((!word.isEmpty && word.all Char.isLower) = true) (by simp [IsLetters])

instance (word : List Char) : Decidable (IsNumber word) :=
  decidable_of_iff ((!word.isEmpty && word.all Char.isDigit) = true) (by simp [IsNumber])

/-- A word of a plain identifier, in small letters. -/
def IsWord (word : List Char) : Prop :=
  IsLetters word ∨ IsNumber word

/-- A word in small letters. -/
def lowered (word : Word) : List Char :=
  word.flatten.map Char.toLower

/-- A word with a capital in front. -/
def capital : List Char → List Char
  | [] => []
  | c :: rest => c.toUpper :: rest

/-- The words of an identifier in small letters. -/
def smallWords (identifier : List Char) : List (List Char) :=
  (words identifier).map lowered

theorem lowered_append (a b : Word) : lowered (a ++ b) = lowered a ++ lowered b := by
  simp [lowered]

/-- A word of plain characters, which are clusters of their own. -/
theorem plain_of_mem_words {identifier : List Char} (hplain : ∀ c ∈ identifier, isNameChar c)
    {word : Word} (hword : word ∈ words identifier) : ∃ text, word = singles text ∧
      ∀ c ∈ text, isNameChar c := by
  rw [words, clusters_plain hplain] at hword
  -- a cluster of a word is one of the identifier's, so a single character
  have hclusters : ∀ cluster ∈ word, ∃ c ∈ identifier, [c] = cluster := fun cluster hcluster =>
    List.mem_map.mp ((mem_of_mem_splitFrom hword hcluster).resolve_left List.not_mem_nil)
  clear hword
  induction word with
  | nil => exact ⟨[], rfl, nofun⟩
  | cons cluster rest ih =>
    obtain ⟨⟨c, hc, rfl⟩, hrest⟩ := List.forall_mem_cons.mp hclusters
    obtain ⟨text, rfl, htext⟩ := ih hrest
    exact ⟨c :: text, rfl, List.forall_mem_cons.mpr ⟨hplain c hc, htext⟩⟩

/-- In the form with underscores stand the words in small letters. -/
theorem underscored_plain {identifier : List Char} (hplain : ∀ c ∈ identifier, isNameChar c) :
    underscored identifier = joined ['_'] (smallWords identifier) := by
  refine congrArg (joined ['_']) (List.map_congr_left fun word hword => ?_)
  obtain ⟨text, rfl, htext⟩ := plain_of_mem_words hplain hword
  simp [lowered, lowercase_plain htext]

/-- In the form with capitals stand the words with a capital each. -/
theorem camelized_plain {identifier : List Char} (hplain : ∀ c ∈ identifier, isNameChar c) :
    camelized identifier = (smallWords identifier).flatMap capital := by
  rw [camelized, smallWords, List.flatMap_map, List.flatMap_def, List.flatMap_def]
  -- word by word: the first letter is raised, and the others are small
  refine congrArg List.flatten (List.map_congr_left fun word hword => ?_)
  obtain ⟨text, rfl, htext⟩ := plain_of_mem_words hplain hword
  cases text with
  | nil => rfl
  | cons c rest =>
    obtain ⟨hc, hrest⟩ := List.forall_mem_cons.mp htext
    simp [capitalized, uppercase, (ordinary hc).upperOf_eq, lowered, lowercase_plain hrest, capital,
      (ordinary hc).toUpper_toLower]

private theorem IsWord.isLetters {word : List Char} {c : Char} (h : IsWord word) (hc : c ∈ word)
    (hlower : c.isLower) : IsLetters word :=
  h.resolve_right fun hnumber => not_isDigit_of_isLower hlower (hnumber.2 c hc)

private theorem IsWord.isNumber {word : List Char} {c : Char} (h : IsWord word) (hc : c ∈ word)
    (hdigit : c.isDigit) : IsNumber word :=
  h.resolve_left fun hletters => not_isDigit_of_isLower (hletters.2 c hc) hdigit

/-- A word is made of small letters or of digits. -/
theorem IsWord.isWordChar {word : List Char} (h : IsWord word) {c : Char} (hc : c ∈ word) :
    isWordChar c := by
  rcases h with h | h <;> simp [Naming.isWordChar, h.2 c hc]

/-- A word of one plain character. -/
theorem isWord_singleton {c : Char} (hc : isNameChar c) (hgap : shapeOf [c] ≠ .gap) :
    IsWord [c.toLower] := by
  rcases (ordinary hc).shape.resolve_left hgap with ⟨-, hdigit⟩ | ⟨-, hlower⟩
  · exact .inr ⟨by simp, by simpa using hdigit⟩
  · exact .inl ⟨by simp, by simpa using hlower⟩

/-- A word that does not end before a character which is no gap is continued by it. -/
theorem isWord_concat {word : List Char} {c d : Char} {following : List Shape}
    (hc : isNameChar c) (hd : isNameChar d) (hgap : shapeOf [c] ≠ .gap)
    (hends : endsWord (shapeOf [c]) (shapeOf [d] :: following) = false)
    (hword : IsWord (word ++ [c.toLower])) :
    shapeOf [d] = .gap ∨ IsWord (word ++ [c.toLower] ++ [d.toLower]) := by
  by_cases hgap' : shapeOf [d] = .gap
  · exact .inl hgap'
  refine .inr ?_
  have hmem : c.toLower ∈ word ++ [c.toLower] := by simp
  -- Two characters of one kind go on, and between a letter and a digit the word would have ended.
  rcases (ordinary hc).shape.resolve_left hgap with ⟨hshape, hdigit⟩ | ⟨hshape, hlower⟩ <;>
    rcases (ordinary hd).shape.resolve_left hgap' with ⟨hshape', hdigit'⟩ | ⟨hshape', hlower'⟩
  · have hnumber := hword.isNumber hmem hdigit
    refine .inr ⟨by simp, fun x hx => ?_⟩
    rcases List.mem_append.mp hx with hx | hx
    · exact hnumber.2 x hx
    · rwa [List.mem_singleton.mp hx]
  · rcases hshape' with hshape' | hshape' <;> simp [hshape, hshape', endsWord] at hends
  · rcases hshape with hshape | hshape <;> simp [hshape, hshape', endsWord] at hends
  · have hletters := hword.isLetters hmem hlower
    refine .inl ⟨by simp, fun x hx => ?_⟩
    rcases List.mem_append.mp hx with hx | hx
    · exact hletters.2 x hx
    · rwa [List.mem_singleton.mp hx]

private theorem isWord_of_mem_keep {current word : Word}
    (hcurrent : current = [] ∨ IsWord (lowered current)) (hword : word ∈ keep current) :
    IsWord (lowered word) := by
  rcases hcurrent with rfl | hcurrent
  · cases hword
  · unfold keep at hword
    split at hword
    · cases hword
    · rwa [List.mem_singleton.mp hword]

/-- Within a word all characters are letters or all are digits, because a word ends where the one
meets the other. What is read of a word is continued by the next character or ends before it. -/
theorem isWord_of_mem_splitFrom {current : Word} {text : List Char}
    (htext : ∀ c ∈ text, isNameChar c)
    (hcurrent : current = [] ∨ IsWord (lowered current) ∧
      ∀ c ∈ text.head?, shapeOf [c] = .gap ∨ IsWord (lowered current ++ [c.toLower]))
    {word : Word} (hword : word ∈ splitFrom current (singles text)) : IsWord (lowered word) := by
  have hkeep : word ∈ keep current → IsWord (lowered word) :=
    isWord_of_mem_keep (hcurrent.imp_right And.left)
  induction text generalizing current with
  | nil => exact hkeep hword
  | cons c rest ih =>
    obtain ⟨hc, hrest⟩ := List.forall_mem_cons.mp htext
    rw [singles_cons] at hword
    by_cases hgap : shapeOf [c] = .gap
    · -- The word before a gap is complete.
      rw [splitFrom_of_gap hgap] at hword
      rcases List.mem_append.mp hword with hword | hword
      · exact hkeep hword
      · exact ih hrest (.inl rfl) hword (isWord_of_mem_keep (.inl rfl))
    -- What is read of the word with the new character is still of one kind.
    have hnew : IsWord (lowered current ++ [c.toLower]) := by
      rcases hcurrent with rfl | ⟨-, hnext⟩
      · exact isWord_singleton hc hgap
      · exact (hnext c rfl).resolve_left hgap
    have hlowered : lowered (current ++ [[c]]) = lowered current ++ [c.toLower] :=
      lowered_append current [[c]]
    rw [← hlowered] at hnew
    cases hends : endsWord (shapeOf [c]) (((singles rest).take 2).map shapeOf) with
    | true =>
      rw [splitFrom_of_ends hends] at hword
      rcases List.mem_cons.mp hword with rfl | hword
      · exact hnew
      · exact ih hrest (.inl rfl) hword (isWord_of_mem_keep (.inl rfl))
    | false =>
      rw [splitFrom_of_goes_on hgap hends] at hword
      refine ih hrest (.inr ⟨hnew, fun d hd => ?_⟩) hword (isWord_of_mem_keep (.inr hnew))
      cases rest with
      | nil => cases hd
      | cons d' rest =>
        obtain rfl : d' = d := by simpa using hd
        rw [hlowered] at hnew ⊢
        exact isWord_concat hc (hrest _ List.mem_cons_self) hgap hends hnew

/-- The words of a plain identifier are all letters or all digits. -/
theorem isWord_of_mem_smallWords {identifier : List Char}
    (hplain : ∀ c ∈ identifier, isNameChar c) {word : List Char}
    (hword : word ∈ smallWords identifier) : IsWord word := by
  obtain ⟨w, hw, rfl⟩ := List.mem_map.mp hword
  rw [words, clusters_plain hplain] at hw
  exact isWord_of_mem_splitFrom hplain (.inl rfl) hw

end FieldQuery.Naming
