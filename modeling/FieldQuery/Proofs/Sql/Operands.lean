import FieldQuery.Proofs.Sql.Clauses

/-!
# Texts that are one operand

Comparisons and calls are made of texts that are set apart by white space and parentheses. Such a
text is one operand if no AND or OR stands outside its parentheses, whatever column it is about, as
long as the column is one operand itself.
-/

namespace FieldQuery.Sql

open FieldQuery.Text

/-- The tokens of a text have a property. -/
def HasTokens (property : List Token → Prop) (text : String) : Prop :=
  ∃ tokens, tokens? text.toList = some tokens ∧ property tokens

/-- A text that is one atom. -/
def IsOperand (text : String) : Prop :=
  HasTokens IsAtom text

/-! ## Deciding -/

instance (tokens : List Token) : Decidable (Paired tokens) :=
  inferInstanceAs (Decidable (_ = _))

instance (tokens : List Token) : Decidable (Unjoined tokens) :=
  decidable_of_iff (Paired tokens ∧ .and ∉ surface 0 tokens ∧ .or ∉ surface 0 tokens)
    ⟨fun ⟨hpaired, hand, hor⟩ => ⟨hpaired, hand, hor⟩,
      fun h => ⟨h.paired, h.and_not_mem, h.or_not_mem⟩⟩

instance (tokens : List Token) : Decidable (IsAtom tokens) :=
  decidable_of_iff (Unjoined tokens ∧ surface 0 tokens ≠ [])
    ⟨fun ⟨hunjoined, hne⟩ => ⟨hunjoined, hne⟩, fun h => ⟨h.toUnjoined, h.surface_ne_nil⟩⟩

instance (property : List Token → Prop) [DecidablePred property] (text : String) :
    Decidable (HasTokens property text) :=
  decidable_of_iff ((tokens? text.toList).any (decide <| property ·) = true) <| by
    simp [HasTokens, Option.any_eq_true]

instance (text : String) : Decidable (IsOperand text) :=
  inferInstanceAs (Decidable (HasTokens IsAtom text))

/-! ## Tokens put together -/

namespace Unjoined

variable {a b : List Token}

/-- Two texts without a joining word at the surface have none together. -/
theorem append (ha : Unjoined a) (hb : Unjoined b) : Unjoined (a ++ b) := by
  refine ⟨ha.paired.append hb.paired, ?_, ?_⟩
  · rw [ha.paired.surface_append, List.mem_append]
    exact not_or.mpr ⟨ha.and_not_mem, hb.and_not_mem⟩
  · rw [ha.paired.surface_append, List.mem_append]
    exact not_or.mpr ⟨ha.or_not_mem, hb.or_not_mem⟩

/-- What is in parentheses does not matter. -/
theorem enclosed (h : Paired a) : Unjoined (.opening :: a ++ [.closing]) := by
  have hopening : depthAfter? 0 [.opening] = some (0 + 1) := rfl
  have hclosing : depthAfter? 1 [.closing] = some 0 := rfl
  -- in brackets nothing is on the surface, not even a connective
  have hsurface : surface 0 ([.opening] ++ a ++ [.closing]) = [] := h.surface_between hopening
  have hnone : ∀ t, t ∉ surface 0 ([.opening] ++ a ++ [.closing]) := by
    rw [hsurface]
    exact fun _ => List.not_mem_nil
  exact ⟨h.between hopening hclosing, hnone .and, hnone .or⟩

private theorem append_isAtom (ha : Unjoined a) (hb : IsAtom b) : IsAtom (a ++ b) := by
  refine ⟨ha.append hb.toUnjoined, ?_⟩
  rw [ha.paired.surface_append]
  exact List.append_ne_nil_of_right_ne_nil _ hb.surface_ne_nil

end Unjoined

private theorem depthAfter?_wordTokens (depth : Nat) (word : List Char) :
    depthAfter? depth (wordTokens word) = some depth := by
  unfold wordTokens
  split_ifs <;> rfl

/-- Without its last word, a text is still unjoined. -/
theorem Unjoined.of_append_wordTokens {before : List Token} {word : List Char}
    (h : Unjoined (before ++ wordTokens word)) : Unjoined before := by
  -- A word opens and closes no parenthesis.
  have hpaired : Paired before := by
    have hwhole := h.paired
    rw [Paired, depthAfter?_append] at hwhole
    obtain ⟨depth, hbefore, hword⟩ := Option.bind_eq_some_iff.mp hwhole
    rw [depthAfter?_wordTokens] at hword
    rw [Paired, hbefore, hword]
  have hsurface := hpaired.surface_append (wordTokens word)
  refine ⟨hpaired, fun hmem => h.and_not_mem ?_, fun hmem => h.or_not_mem ?_⟩
  · exact hsurface ▸ List.mem_append_left _ hmem
  · exact hsurface ▸ List.mem_append_left _ hmem

private theorem isAtom_word (text : List Char) : IsAtom [.word text] :=
  ⟨⟨rfl, by simp [surface], by simp [surface]⟩, by simp [surface]⟩

private theorem IsAtom.append_unjoined {a b : List Token} (ha : IsAtom a) (hb : Unjoined b) :
    IsAtom (a ++ b) := by
  refine ⟨ha.toUnjoined.append hb, ?_⟩
  rw [ha.paired.surface_append]
  exact List.append_ne_nil_of_left_ne_nil ha.surface_ne_nil _

/-! ## Texts put together -/

namespace HasTokens

variable {P Q R : List Token → Prop} {a b : String}

/-- A property of tokens may be weakened. -/
theorem mono (ha : HasTokens P a) (h : ∀ tokens, P tokens → Q tokens) : HasTokens Q a := by
  obtain ⟨tokens, htokens, htext⟩ := ha
  exact ⟨tokens, htokens, h tokens htext⟩

/-- Where the second text starts apart, the tokens of both stand side by side. -/
theorem append (ha : HasTokens P a) (hb : HasTokens Q b) (hstart : startsApart b.toList)
    (h : ∀ x y, P x → Q y → R (x ++ y)) : HasTokens R (a ++ b) := by
  obtain ⟨first, hfirst, hp⟩ := ha
  obtain ⟨second, hsecond, hq⟩ := hb
  exact ⟨_, String.toList_append ▸ tokens?_append hfirst hsecond hstart, h first second hp hq⟩

/-- A blank in front changes no token. -/
theorem blank_append (ha : HasTokens P a) : HasTokens P (" " ++ a) := by
  obtain ⟨tokens, htokens, hp⟩ := ha
  -- a blank ends a word, and there is none in front of it to end
  have hblank : delimiter? ' ' = some [] := by decide
  refine ⟨tokens, ?_, hp⟩
  rw [String.toList_append]
  change tokens? (' ' :: a.toList) = some tokens
  rw [tokens?_cons hblank, htokens]
  rfl

/-- What is in parentheses does not lie at the surface. -/
theorem enclosed (ha : HasTokens Paired a) : HasTokens Unjoined ("(" ++ a ++ ")") := by
  obtain ⟨tokens, htokens, hp⟩ := ha
  refine ⟨_, ?_, Unjoined.enclosed hp⟩
  rw [String.toList_append, String.toList_append]
  exact tokens?_enclosed htokens

end HasTokens

/-- Where a text starts apart, so does a longer one. -/
theorem startsApart_append {a : String} (h : startsApart a.toList) (b : String) :
    startsApart (a ++ b).toList := by
  unfold startsApart at h ⊢
  rw [String.toList_append]
  cases htext : a.toList with
  | nil => simp [htext] at h
  | cons c rest => simpa [htext] using h

namespace IsOperand

variable {a b column : String}

/-- An operand has its parentheses paired. -/
theorem paired (h : IsOperand a) : HasTokens Paired a :=
  h.mono fun _ hatom => hatom.paired

/-- An operand goes on with a text that joins nothing. -/
theorem append (ha : IsOperand a) (hb : HasTokens Unjoined b) (hstart : startsApart b.toList) :
    IsOperand (a ++ b) :=
  HasTokens.append ha hb hstart fun _ _ hx hy => hx.append_unjoined hy

/-- A text that has parentheses in front of one atom. -/
theorem append_right (ha : HasTokens Unjoined a) (hb : IsOperand b)
    (hstart : startsApart b.toList) : IsOperand (a ++ b) :=
  HasTokens.append ha hb hstart fun _ _ hx hy => hx.append_isAtom hy

/-- A call. -/
theorem call (ha : IsOperand a) (hb : HasTokens Paired b) : IsOperand (a ++ ("(" ++ b ++ ")")) := by
  refine ha.append hb.enclosed ?_
  rw [String.append_assoc]
  exact startsApart_append (by decide) _

/-! ### Names -/

/-- A text of ordinary characters with one that is in no keyword. -/
theorem of_ordinary {c : Char} (h : ∀ c ∈ a.toList, IsOrdinary c) (hmem : c ∈ a.toList)
    (hand : c.toUpper ∉ "AND".toList) (hor : c.toUpper ∉ "OR".toList) : IsOperand a := by
  refine ⟨[.word a.toList], ?_, isAtom_word _⟩
  rw [tokens?_of_ordinary h, wordTokens_of_mem hmem hand hor]

/-- A column with the name of its table. -/
theorem qualified {table name : String} (htable : ∀ c ∈ table.toList, IsOrdinary c)
    (hname : ∀ c ∈ name.toList, IsOrdinary c) : IsOperand (qualified table name) := by
  refine of_ordinary (c := '.') ?_ (by simp [Sql.qualified]) (by decide) (by decide)
  have hdot : IsOrdinary '.' := by decide
  simp only [Sql.qualified, String.toList_append, List.forall_mem_append]
  exact ⟨⟨htable, List.forall_mem_singleton.mpr hdot⟩, hname⟩

/-- The last word of an operand may be made longer. -/
theorem append_ordinary (h : IsOperand a) {c : Char} (hb : ∀ c ∈ b.toList, IsOrdinary c)
    (hmem : c ∈ b.toList) (hand : c.toUpper ∉ "AND".toList) (hor : c.toUpper ∉ "OR".toList) :
    IsOperand (a ++ b) := by
  obtain ⟨tokens, htokens, hatom⟩ := h
  obtain ⟨before, word, rfl, hlonger⟩ := exists_tokens?_append htokens hb
  -- a letter of neither connective keeps the last word from being one
  rw [wordTokens_of_mem (List.mem_append_right word hmem) hand hor] at hlonger
  have hbefore : Unjoined before := hatom.toUnjoined.of_append_wordTokens
  exact ⟨_, String.toList_append ▸ hlonger, hbefore.append_isAtom (isAtom_word _)⟩

end IsOperand

/-! ## Readings of operands -/

namespace Legible

variable {a b : String}

/-- An operand is legible as one. -/
theorem operand (h : IsOperand a) : Legible .operand a := by
  obtain ⟨tokens, htokens, hatom⟩ := h
  exact ⟨tokens, _, htokens, .atom hatom⟩

/-- An operand is a conjunction of one. -/
theorem conjunction (h : Legible .operand a) : Legible .conjunction a := by
  obtain ⟨tokens, f, htokens, hf⟩ := h
  exact ⟨tokens, f, htokens, .operand hf⟩

/-- A conjunction is a disjunction of one. -/
theorem disjunction (h : Legible .conjunction a) : Legible .disjunction a := by
  obtain ⟨tokens, f, htokens, hf⟩ := h
  exact ⟨tokens, f, htokens, .conjunction hf⟩

/-- An `AND` with an operand makes a longer conjunction. -/
theorem and (ha : Legible .conjunction a) (hb : Legible .operand b) :
    Legible .conjunction (a ++ " AND " ++ b) := by
  obtain ⟨first, f, hfirst, hf⟩ := ha
  obtain ⟨second, g, hsecond, hg⟩ := hb
  -- the connective is a word of its own between two blanks
  have hword : tokens? "AND".toList = some [.and] := by decide
  have htokens := tokens?_append_word hfirst hword hsecond
  exact ⟨first ++ .and :: second, _, by simpa using htokens, .and hf hg⟩

/-- An `OR` with a conjunction makes a longer disjunction. -/
theorem or (ha : Legible .disjunction a) (hb : Legible .conjunction b) :
    Legible .disjunction (a ++ " OR " ++ b) := by
  obtain ⟨first, f, hfirst, hf⟩ := ha
  obtain ⟨second, g, hsecond, hg⟩ := hb
  have hword : tokens? "OR".toList = some [.or] := by decide
  have htokens := tokens?_append_word hfirst hword hsecond
  exact ⟨first ++ .or :: second, _, by simpa using htokens, .or hf hg⟩

/-- Any number of conjunctions with OR between them. -/
theorem intercalate_or {texts : List String} (ha : Legible .disjunction a)
    (h : ∀ b ∈ texts, Legible .conjunction b) :
    Legible .disjunction (" OR ".intercalate (a :: texts)) := by
  induction texts generalizing a with
  | nil => simpa using ha
  | cons b rest ih =>
    obtain ⟨hb, hrest⟩ := List.forall_mem_cons.mp h
    -- The first two texts are a disjunction, which takes the place of the first one.
    have hfirst : " OR ".intercalate (a :: b :: rest) =
        " OR ".intercalate ((a ++ " OR " ++ b) :: rest) := by
      cases rest <;> simp [String.append_assoc]
    rw [hfirst]
    exact ih (ha.or hb) hrest

end Legible

end FieldQuery.Sql
