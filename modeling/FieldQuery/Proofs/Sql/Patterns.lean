import Mathlib.Data.List.Infix
import FieldQuery.Sql.Dialect

/-!
# Patterns of texts

The texts that a condition with `LIKE` accepts. In a pattern `%` stands for any characters and `_`
for any one, so a pattern that is made of the text that is looked for accepts the texts that contain
it, and more if it has one of these characters in it. Main statement: for which texts a pattern
accepts what contains them and nothing else.
-/

namespace FieldQuery.Sql

/-- How characters are compared if case does not matter: two of them are the same letter if they have
the same form. -/
structure CaseFolding where
  form : Char → Char
  /-- An underscore is not a letter. -/
  form_ne : form 'a' ≠ form '_'

namespace CaseFolding

/-- The letters of ASCII are the same as capitals. -/
def ascii : CaseFolding where
  form := Char.toLower
  form_ne := by decide

variable (folding : CaseFolding)

/-- Whether a text contains another one, in any case. -/
def Contains (text part : List Char) : Prop :=
  part.map folding.form <:+: text.map folding.form

instance (text part : List Char) : Decidable (folding.Contains text part) :=
  inferInstanceAs (Decidable (_ <:+: _))

/-- Whether a pattern accepts a text. -/
def likes : List Char → List Char → Bool
  | [], text => text.isEmpty
  | c :: pattern, text =>
    if c = '%' then text.tails.any (likes pattern)
    else
      text.head?.any (fun d => c = '_' || folding.form c = folding.form d) &&
        likes pattern text.tail

variable {folding} {pattern text : List Char} {c : Char}

/-- The empty pattern matches the empty text only. -/
@[simp]
theorem likes_nil : folding.likes [] text ↔ text = [] := by
  rw [likes, List.isEmpty_iff]

private theorem likes_percent :
    folding.likes ('%' :: pattern) text ↔ ∃ rest, rest <:+ text ∧ folding.likes pattern rest := by
  rw [likes, if_pos rfl, List.any_eq_true]
  simp only [List.mem_tails]

private theorem likes_cons (hc : c ≠ '%') :
    folding.likes (c :: pattern) text ↔
      ∃ d rest, text = d :: rest ∧ (c = '_' ∨ folding.form c = folding.form d) ∧
        folding.likes pattern rest := by
  rw [likes, if_neg hc]
  cases text with
  | nil => simp
  | cons d text => simp

/-! ## Any characters around a pattern -/

private theorem likes_append_percent :
    folding.likes (pattern ++ ['%']) text ↔ ∃ part, part <+: text ∧ folding.likes pattern part := by
  induction pattern generalizing text with
  | nil =>
    rw [List.nil_append, likes_percent]
    simp only [likes_nil, exists_eq_right, List.nil_suffix, List.nil_prefix]
  | cons c pattern ih =>
    rw [List.cons_append]
    by_cases hc : c = '%'
    · -- A prefix of a suffix is a suffix of a prefix: both are parts of the text.
      subst hc
      simp only [likes_percent, ih]
      constructor
      · rintro ⟨rest, hrest, part, hpart, hlikes⟩
        obtain ⟨front, hfront, hback⟩ := List.infix_iff_suffix_prefix.mp
          (List.infix_iff_prefix_suffix.mpr ⟨rest, hpart, hrest⟩)
        exact ⟨front, hback, part, hfront, hlikes⟩
      · rintro ⟨front, hfront, part, hpart, hlikes⟩
        obtain ⟨rest, hback, hrest⟩ := List.infix_iff_prefix_suffix.mp
          (List.infix_iff_suffix_prefix.mpr ⟨front, hpart, hfront⟩)
        exact ⟨rest, hrest, part, hback, hlikes⟩
    · simp only [likes_cons hc, ih]
      constructor
      · rintro ⟨d, rest, rfl, hd, part, hpart, hlikes⟩
        exact ⟨d :: part, List.cons_prefix_cons.mpr ⟨rfl, hpart⟩, d, part, rfl, hd, hlikes⟩
      · rintro ⟨_, hpart, d, part, rfl, hd, hlikes⟩
        obtain ⟨rest, rfl⟩ := hpart
        exact ⟨d, part ++ rest, rfl, hd, part, List.prefix_append _ _, hlikes⟩

/-- A pattern between two `%` accepts the texts of which it accepts a part. -/
theorem likes_between :
    folding.likes ('%' :: (pattern ++ ['%'])) text ↔
      ∃ part, part <:+: text ∧ folding.likes pattern part := by
  simp only [likes_percent, likes_append_percent]
  constructor
  · -- an infix is a prefix of a suffix, which is what the two `%` match around
    rintro ⟨rest, hrest, part, hpart, hlikes⟩
    exact ⟨part, List.infix_iff_prefix_suffix.mpr ⟨rest, hpart, hrest⟩, hlikes⟩
  · rintro ⟨part, hpart, hlikes⟩
    obtain ⟨rest, hpart, hrest⟩ := List.infix_iff_prefix_suffix.mp hpart
    exact ⟨rest, hrest, part, hpart, hlikes⟩

/-! ## Texts as patterns -/

/-- A text accepts itself as a pattern, in any case. -/
theorem likes_of_map_form_eq (h : pattern.map folding.form = text.map folding.form) :
    folding.likes pattern text := by
  -- induction on the pattern: every letter matches its own form, and `%` one letter here
  induction pattern generalizing text with
  | nil => exact likes_nil.mpr (List.map_eq_nil_iff.mp h.symm)
  | cons c pattern ih =>
    obtain ⟨d, rest, rfl, hd, hrest⟩ := List.map_eq_cons_iff.mp h.symm
    by_cases hc : c = '%'
    · subst hc
      exact likes_percent.mpr ⟨rest, List.suffix_cons d rest, ih hrest.symm⟩
    · exact (likes_cons hc).mpr ⟨d, rest, rfl, Or.inr hd.symm, ih hrest.symm⟩

private theorem map_form_eq_of_likes (hpercent : '%' ∉ pattern) (hunderscore : '_' ∉ pattern)
    (h : folding.likes pattern text) : pattern.map folding.form = text.map folding.form := by
  -- induction on the pattern: without wildcards each letter takes up one letter of the text
  induction pattern generalizing text with
  | nil => rw [likes_nil.mp h]
  | cons c pattern ih =>
    obtain ⟨hc, hpercent⟩ := not_or.mp (List.mem_cons.not.mp hpercent)
    obtain ⟨hc', hunderscore⟩ := not_or.mp (List.mem_cons.not.mp hunderscore)
    obtain ⟨d, rest, rfl, hd, hrest⟩ := (likes_cons (Ne.symm hc)).mp h
    rw [List.map_cons, List.map_cons, hd.resolve_left (Ne.symm hc'), ih hpercent hunderscore hrest]

/-- What contains a text is accepted by the pattern for it. -/
theorem likes_of_contains (h : folding.Contains text pattern) :
    folding.likes ('%' :: (pattern ++ ['%'])) text := by
  obtain ⟨part, hpart, hforms⟩ := List.infix_map_iff.mp h
  exact likes_between.mpr ⟨part, hpart, likes_of_map_form_eq hforms⟩

/-- A pattern without its `%`, and with a letter in the place of every `_`. -/
def withoutWildcards (pattern : List Char) : List Char :=
  (pattern.filter (· ≠ '%')).map fun c => if c = '_' then 'a' else c

private theorem likes_withoutWildcards : folding.likes pattern (withoutWildcards pattern) := by
  -- induction on the pattern: `%` stands for nothing at all, `_` for one letter
  induction pattern with
  | nil => exact likes_nil.mpr rfl
  | cons c pattern ih =>
    by_cases hc : c = '%'
    · subst hc
      exact likes_percent.mpr ⟨_, List.suffix_rfl, ih⟩
    · refine (likes_cons hc).mpr
        ⟨if c = '_' then 'a' else c, withoutWildcards pattern, ?_, ?_, ih⟩
      · simp [withoutWildcards, hc]
      · by_cases hc' : c = '_'
        · exact Or.inl hc'
        · exact Or.inr (by rw [if_neg hc'])

/-- A text with a `%` is longer than what is left without it, and one with a `_` has not the letter
that is put in its place. -/
theorem not_contains_withoutWildcards (h : '%' ∈ pattern ∨ '_' ∈ pattern) :
    ¬ folding.Contains (withoutWildcards pattern) pattern := by
  intro hcontains
  have hlength := hcontains.length_le
  simp only [withoutWildcards, List.length_map] at hlength
  -- Nothing was dropped, so there was no `%`, and the texts agree letter by letter.
  have hfilter : pattern.filter (· ≠ '%') = pattern :=
    List.filter_sublist.eq_of_length_le hlength
  have hpercent : '%' ∉ pattern := fun hmem => by
    rw [← hfilter] at hmem
    simp at hmem
  have hforms := hcontains.eq_of_length (by
    rw [withoutWildcards, hfilter, List.length_map, List.length_map, List.length_map])
  rw [withoutWildcards, hfilter, List.map_map, List.map_inj_left] at hforms
  have hform := hforms '_' (h.resolve_left hpercent)
  exact folding.form_ne hform.symm

/-- A pattern accepts what contains a text and nothing else if and only if the text has neither of
the characters that stand for others. -/
theorem likes_iff_contains_iff :
    (∀ text, folding.likes ('%' :: (pattern ++ ['%'])) text ↔ folding.Contains text pattern) ↔
      '%' ∉ pattern ∧ '_' ∉ pattern := by
  constructor
  · intro h
    -- with a wildcard, the text without it is matched and does not contain the pattern
    refine not_or.mp fun hwildcard => not_contains_withoutWildcards hwildcard ((h _).mp ?_)
    exact likes_between.mpr ⟨_, List.infix_rfl, likes_withoutWildcards⟩
  · rintro ⟨hpercent, hunderscore⟩ text
    refine ⟨fun h => ?_, likes_of_contains⟩
    obtain ⟨part, hpart, hlikes⟩ := likes_between.mp h
    rw [Contains, map_form_eq_of_likes hpercent hunderscore hlikes]
    exact hpart.map folding.form

end CaseFolding

end FieldQuery.Sql
