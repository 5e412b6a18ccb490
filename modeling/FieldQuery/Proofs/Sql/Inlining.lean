import FieldQuery.Proofs.Number.Layouts
import FieldQuery.Proofs.Sql.Placeholders

/-!
# Statements with their parameters written in

To write the parameters of a statement into its text, the first placeholder that is left is filled
with one literal after another. That is not the same as putting every literal in its own place: the
literal of a text may have a `?` in it, and this is then the first one that is left. Main statement:
a statement is written out rightly exactly if no text before the last parameter has a `?`.
-/

namespace FieldQuery.Sql

open FieldQuery.Number FieldQuery.Text

/-! ## Literals -/

/-- A decimal that is laid out without an exponent part consists of digits and at most a point. -/
theorem isDigit_or_point_of_mem_positional {s : Scientific} (hdigits : ∀ c ∈ s.digits, c.isDigit)
    {c : Char} (hc : c ∈ s.positional false) : c.isDigit ∨ c = '.' := by
  -- three layouts: behind the point only, in front of it only, and on both sides
  unfold Scientific.positional at hc
  split at hc
  · simp only [List.mem_append, List.mem_cons, List.not_mem_nil, or_false] at hc
    rcases hc with ((rfl | rfl) | hzero) | hdigit
    · exact Or.inl rfl
    · exact Or.inr rfl
    · exact Or.inl (isDigit_of_mem_replicate_zero hzero)
    · exact Or.inl (hdigits c hdigit)
  · simp only at hc
    split at hc
    · simp only [Bool.false_eq_true, if_false, List.append_nil, List.mem_append] at hc
      exact Or.inl (hc.elim (hdigits c) isDigit_of_mem_replicate_zero)
    · rcases List.mem_append.mp hc with hwhole | hrest
      · exact Or.inl (hdigits c (List.mem_of_mem_take hwhole))
      · rcases List.mem_cons.mp hrest with rfl | hplace
        · exact Or.inr rfl
        · exact Or.inl (hdigits c (List.mem_of_mem_drop hplace))

private theorem positional_ne_nil {s : Scientific} (hne : s.digits ≠ []) : s.positional false ≠ [] := by
  unfold Scientific.positional
  split
  · simp
  · simp only
    split
    · simp [hne]
    · simp

/-- The text of a double in a statement has no placeholder, and is not empty. -/
theorem plain_text_literalLayout (x : Binary64) :
    Plain (x.text literalLayout) ∧ (x.text literalLayout).toList ≠ [] := by
  unfold Binary64.text
  split
  · obtain ⟨hne, hdigits, -⟩ := shortest_digits literalLayout.tie x.canonical_magnitude
    have htext : (x.magnitude.shortest literalLayout.tie).text literalLayout =
        (x.magnitude.shortest literalLayout.tie).positional false := rfl
    -- a positional text holds digits and a point, and neither is a mark
    rw [htext]
    refine ⟨?_, by simp [positional_ne_nil hne]⟩
    rw [Plain, marks, List.count_eq_zero, String.toList_ofList]
    intro hmark
    rcases List.mem_append.mp hmark with hsign | hrest
    · split at hsign <;> simp at hsign
    · exact absurd (isDigit_or_point_of_mem_positional hdigits hrest) (by decide)
  · split
    · exact ⟨by decide, by decide⟩
    · split <;> exact ⟨by decide, by decide⟩

private theorem plain_intText (n : ℤ) : Plain (intText n) ∧ (intText n).toList ≠ [] := by
  have hdigits : '?' ∉ natDigits n.natAbs :=
    fun hmark => absurd (isDigit_of_mem_natDigits hmark) (by decide)
  rw [Plain, marks, List.count_eq_zero, intText, String.toList_ofList, intDigits]
  split
  · exact ⟨by simpa using hdigits, List.cons_ne_nil _ _⟩
  · exact ⟨hdigits, natDigits_ne_nil _⟩

namespace Param

/-- Only the literal of a text may have a placeholder in it. -/
theorem plain_literal {p : Param} (h : ∀ s, p ≠ .text s) : Plain p.literal ∧ p.literal.toList ≠ [] := by
  cases p with
  | text s => exact absurd rfl (h s)
  | integer n => exact plain_intText n.toInt
  | float x => exact plain_text_literalLayout x
  | boolean b => cases b <;> exact ⟨by decide, by decide⟩

/-- The quotes of a text do not hide its placeholders. -/
theorem mark_mem_literal_text {s : String} : '?' ∈ (text s).literal.toList ↔ '?' ∈ s.toList := by
  -- doubling quotes adds no mark and takes none away
  have hdoubled : ∀ c : Char, '?' ∈ (if c = '\x27' then ['\x27', '\x27'] else [c]) ↔ c = '?' := by
    intro c
    split
    · next h => subst h; decide
    · rw [List.mem_singleton, eq_comm]
  simp only [literal, String.toList_ofList, List.cons_append, List.mem_cons, List.mem_append,
    List.mem_flatMap, hdoubled, exists_eq_right, List.not_mem_nil, or_false]
  exact ⟨fun h => by simpa using h, fun h => Or.inr (Or.inl h)⟩

private theorem mark_mem_literal {p : Param} :
    '?' ∈ p.literal.toList ↔ ∃ s, p = .text s ∧ '?' ∈ s.toList := by
  by_cases htext : ∃ s, p = .text s
  · obtain ⟨s, rfl⟩ := htext
    simp [mark_mem_literal_text]
  · have hplain := (plain_literal fun s hs => htext ⟨s, hs⟩).1
    exact iff_of_false (List.count_eq_zero.mp hplain) fun ⟨s, hs, _⟩ => htext ⟨s, hs⟩

/-- No literal starts with a placeholder: a text starts with its quote. -/
theorem exists_literal_eq_cons (p : Param) : ∃ c rest, p.literal.toList = c :: rest ∧ c ≠ '?' := by
  -- a text starts with its quote, any other literal has no mark at all
  by_cases htext : ∃ s, p = .text s
  · obtain ⟨s, rfl⟩ := htext
    exact ⟨'\x27', _, by rw [literal, String.toList_ofList, List.cons_append], by decide⟩
  · obtain ⟨hplain, hne⟩ := plain_literal fun s hs => htext ⟨s, hs⟩
    obtain ⟨c, rest, hliteral⟩ := List.exists_cons_of_ne_nil hne
    refine ⟨c, rest, hliteral, fun hc => List.count_eq_zero.mp hplain ?_⟩
    rw [hliteral, hc]
    exact List.mem_cons_self

end Param

/-! ## One placeholder after another -/

namespace Relation

/-- A text with its first placeholder filled as often as there are values. -/
def fillOneByOne (values : List (List Char)) (text : List Char) : List Char :=
  values.foldl (fun text value => fillFirst value text) text

/-- A text with the values in the places of its placeholders, each in its own. -/
def fillAtOnce (values : List (List Char)) (text : List Char) : List Char :=
  withMarkers (fun k => values.getD k []) 0 (text.splitOn '?')

variable {values : List (List Char)} {value front rest : List Char}

private theorem fillFirst_append (hfront : '?' ∉ front) :
    fillFirst value (front ++ rest) = front ++ fillFirst value rest := by
  induction front with
  | nil => rfl
  | cons c front ih =>
    obtain ⟨hc, hfront⟩ := not_or.mp (List.mem_cons.not.mp hfront)
    rw [List.cons_append, fillFirst, if_neg (Ne.symm hc), ih hfront, List.cons_append]

/-- What stands before all placeholders stays there. -/
theorem fillOneByOne_append (hfront : '?' ∉ front) :
    fillOneByOne values (front ++ rest) = front ++ fillOneByOne values rest := by
  unfold fillOneByOne
  induction values generalizing rest with
  | nil => rfl
  | cons value values ih => rw [List.foldl_cons, fillFirst_append hfront, ih, List.foldl_cons]

private theorem fillOneByOne_cons (hfront : '?' ∉ front) :
    fillOneByOne (value :: values) (front ++ '?' :: rest) =
      front ++ fillOneByOne values (value ++ rest) := by
  rw [fillOneByOne_append hfront]
  rfl

private theorem withMarkers_succ (marker : ℕ → List Char) (n : ℕ) (texts : List (List Char)) :
    withMarkers marker (n + 1) texts = withMarkers (fun k => marker (k + 1)) n texts := by
  -- induction on the texts, each marker but the last standing between two of them
  induction texts generalizing n with
  | nil => rfl
  | cons text texts ih =>
    cases texts with
    | nil => rfl
    | cons next texts => exact congrArg (text ++ marker (n + 1) ++ ·) (ih (n + 1))

private theorem fillAtOnce_cons (hfront : '?' ∉ front) :
    fillAtOnce (value :: values) (front ++ '?' :: rest) = front ++ (value ++ fillAtOnce values rest) := by
  rw [fillAtOnce, List.splitOn_append_cons_self_of_not_mem hfront,
    withMarkers_cons _ _ _ (List.splitOn_ne_nil _ _), withMarkers_succ, List.append_assoc]
  rfl

/-- Filling the placeholders one by one is filling them at once if and only if no value but the last
one has a placeholder in it. -/
theorem fillOneByOne_eq_iff {text : List Char}
    (hstart : ∀ value ∈ values, ∃ c rest, value = c :: rest ∧ c ≠ '?')
    (hcount : text.count '?' = values.length) :
    fillOneByOne values text = fillAtOnce values text ↔ ∀ value ∈ values.dropLast, '?' ∉ value := by
  induction values generalizing text with
  | nil =>
    have hplain : '?' ∉ text := List.count_eq_zero.mp hcount
    simp [fillOneByOne, fillAtOnce, List.splitOn_eq_singleton hplain, withMarkers]
  | cons value values ih =>
    have hmark : '?' ∈ text := List.count_pos_iff.mp (by rw [hcount]; exact Nat.succ_pos _)
    obtain ⟨front, rest, rfl, hfront⟩ := List.eq_append_cons_of_mem hmark
    have hrest : rest.count '?' = values.length := by
      simpa [List.count_eq_zero.mpr hfront] using hcount
    have hstart' := fun v hv => hstart v (List.mem_cons_of_mem value hv)
    rw [fillOneByOne_cons hfront, fillAtOnce_cons hfront, List.append_cancel_left_eq]
    by_cases hvalue : '?' ∈ value
    · cases values with
      | nil =>
        have hplain : '?' ∉ rest := List.count_eq_zero.mp hrest
        simp [fillOneByOne, fillAtOnce, List.splitOn_eq_singleton hplain, withMarkers]
      | cons next values =>
        -- The next literal goes into this one, where its first character takes the place of the `?`.
        obtain ⟨c, tail, rfl, hc⟩ := hstart' next List.mem_cons_self
        obtain ⟨before, after, rfl, hbefore⟩ := List.eq_append_cons_of_mem hvalue
        refine iff_of_false (fun heq => ?_) fun h => h _ List.mem_cons_self hvalue
        have hfirst : '?' ∉ [c] := by simpa using hc.symm
        rw [List.append_assoc, List.cons_append, fillOneByOne_cons hbefore, List.append_assoc,
          List.append_cancel_left_eq, ← List.singleton_append, List.append_assoc,
          fillOneByOne_append hfirst] at heq
        exact hc (List.cons.inj heq).1
    · rw [fillOneByOne_append hvalue, List.append_cancel_left_eq, ih hstart' hrest]
      cases values with
      | nil => simp
      | cons next values => simp [hvalue]

/-! ## Statements -/

/-- The statement for reading, with every literal in the place of its own placeholder. -/
def substituted (r : Relation) (projection : String) : String :=
  let statement := r.statement .mysql projection
  String.ofList (fillAtOnce (statement.params.map fun p => p.literal.toList) statement.sql.toList)

/-- A statement has one place for each of its parameters, and the text for reading has every literal
in its own place if and only if no text before the last parameter has a `?` in it. -/
theorem inlineText_eq_substituted_iff {r : Relation} (h : r.Balanced) {projection : String}
    (hprojection : Plain projection) :
    marks (r.statement .mysql projection).sql = (r.statement .mysql projection).params.length ∧
      (r.inlineText projection = r.substituted projection ↔
        ∀ s, .text s ∈ (r.statement .mysql projection).params.dropLast → '?' ∉ s.toList) := by
  have hcount : marks (r.selectText projection) = r.params.length :=
    (h.aligned hprojection).marks_eq .mysql rfl
  refine ⟨hcount, ?_⟩
  have hinline : r.inlineText projection = String.ofList
      (fillOneByOne (r.params.map fun p => p.literal.toList) (r.selectText projection).toList) := by
    rw [inlineText, fillOneByOne, List.foldl_map]
  have hstart : ∀ value ∈ r.params.map (fun p => p.literal.toList),
      ∃ c rest, value = c :: rest ∧ c ≠ '?' := by
    intro value hvalue
    obtain ⟨p, -, rfl⟩ := List.mem_map.mp hvalue
    exact p.exists_literal_eq_cons
  rw [hinline]
  -- one by one, a literal with a mark takes the value meant for the next; the last has no next
  show String.ofList _ = String.ofList (fillAtOnce (r.params.map fun p => p.literal.toList)
    (r.selectText projection).toList) ↔ ∀ s, .text s ∈ r.params.dropLast → '?' ∉ s.toList
  rw [String.ofList_inj, fillOneByOne_eq_iff hstart (by rw [List.length_map]; exact hcount), ← List.map_dropLast,
    List.forall_mem_map]
  constructor
  · intro hliterals s hs hmark
    exact hliterals _ hs (Param.mark_mem_literal_text.mpr hmark)
  · intro htexts p hp hmark
    obtain ⟨s, rfl, hs⟩ := Param.mark_mem_literal.mp hmark
    exact htexts s hp hs

/-- The posts with a title and a slug. -/
def postsNamed (title slug : String) : Relation :=
  ((all "posts" "Post").filter (.equals "posts.title" (.text title))).filter
    (.equals "posts.slug" (.text slug))

private theorem balanced_postsNamed (title slug : String) : (postsNamed title slug).Balanced :=
  ((Balanced.all (by decide) "Post").filter (Fragment.balanced_equals (by decide) _)).filter
    (Fragment.balanced_equals (by decide) _)

/-- A quote does no harm, nor does a `?` in the last parameter. -/
theorem inlineText_of_last_question :
    (postsNamed "O'Hara" "why?").Balanced ∧
      (postsNamed "O'Hara" "why?").inlineText "*" =
        "SELECT * FROM posts WHERE (posts.title = 'O''Hara') AND (posts.slug = 'why?')" := by
  refine ⟨balanced_postsNamed _ _, ?_⟩
  -- the last of the two values may have a mark
  have hlast : ∀ s, .text s ∈ ((postsNamed "O'Hara" "why?").statement .mysql "*").params.dropLast →
      '?' ∉ s.toList := by
    intro s hs
    obtain rfl : s = "O'Hara" := by
      simpa [statement, params, postsNamed, filter, all, Fragment.equals] using hs
    decide
  rw [(inlineText_eq_substituted_iff (balanced_postsNamed _ _) (by decide)).2.mpr hlast]
  decide +kernel

/-- A `?` in a title is filled with the slug, and the place of the slug is left empty. -/
theorem inlineText_of_first_question :
    (postsNamed "why?" "why").Balanced ∧
      (postsNamed "why?" "why").substituted "*" =
        "SELECT * FROM posts WHERE (posts.title = 'why?') AND (posts.slug = 'why')" ∧
      (postsNamed "why?" "why").inlineText "*" =
        "SELECT * FROM posts WHERE (posts.title = 'why'why'') AND (posts.slug = ?)" :=
  ⟨balanced_postsNamed _ _, by decide +kernel, by decide +kernel⟩

end Relation

end FieldQuery.Sql
