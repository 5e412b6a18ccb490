import FieldQuery.Proofs.Sql.Placeholders
import FieldQuery.Proofs.Value.Timestamps

/-!
# Tokens of conditions

The text of a condition is cut into parentheses, the words AND and OR, and other words. White space
separates words, and a quoted text is a part of the word that it stands in, whatever is between the
quotes. Comments are not known here.

Where a statement has its placeholders numbered, the words change and nothing else does.
-/

namespace FieldQuery.Sql

open FieldQuery.Text

/-! ## Cutting a text -/

/-- A piece of the text of a condition. -/
inductive Token where
  | opening
  | closing
  | and
  | or
  /-- A word that is neither AND nor OR. -/
  | word (text : List Char)
deriving DecidableEq, Repr

/-- Quotes: the apostrophe, the quotation mark and the backquote. -/
def isQuote (c : Char) : Bool :=
  c == '\x27' || c == '\x22' || c == '\x60'

/-- What a character that ends a word stands for, outside quotes: a parenthesis, or nothing if it is
white space. -/
def delimiter? (c : Char) : Option (List Token) :=
  if c = '(' then some [.opening]
  else if c = ')' then some [.closing]
  else if isBlank c then some []
  else none

/-- A character that belongs to a word and is no quote. -/
def IsOrdinary (c : Char) : Prop :=
  delimiter? c = none ∧ isQuote c = false

instance (c : Char) : Decidable (IsOrdinary c) :=
  inferInstanceAs (Decidable (_ ∧ _))

-- Decided along the text, and not for every character that there is.
instance (text : List Char) : Decidable (∀ c ∈ text, IsOrdinary c) :=
  List.decidableBAll IsOrdinary text

/-- The token of a word, in any case of its letters; no token if the word is empty. -/
def wordTokens (word : List Char) : List Token :=
  if word = [] then []
  else if asciiUpper word = "AND".toList then [.and]
  else if asciiUpper word = "OR".toList then [.or]
  else [.word word]

/-- A text that is read up to some place: the quote that is open there, the word that has begun, and
the tokens before it. -/
structure Scan where
  quote : Option Char := none
  word : List Char := []
  tokens : List Token := []
deriving DecidableEq, Repr

namespace Scan

/-- One more character. A quoted text ends at the next quote of the same kind. -/
def step (s : Scan) (c : Char) : Scan :=
  match s.quote with
  | some q => { s with quote := if c = q then none else some q, word := s.word ++ [c] }
  | none =>
    match delimiter? c with
    | some tokens => { tokens := s.tokens ++ wordTokens s.word ++ tokens }
    | none => { s with quote := if isQuote c then some c else none, word := s.word ++ [c] }

/-- All tokens, the last word included, unless a quote is open. -/
def result? (s : Scan) : Option (List Token) :=
  if s.quote = none then some (s.tokens ++ wordTokens s.word) else none

end Scan

/-- The tokens of a text, if every quote in it is closed. -/
def tokens? (text : List Char) : Option (List Token) :=
  (text.foldl Scan.step {}).result?

/-! ## Texts put together -/

namespace Scan

/-- The tokens before a place do not matter to what comes after it. -/
theorem foldl_step_tokens (text : List Char) (s : Scan) (before : List Token) :
    text.foldl step { s with tokens := before ++ s.tokens } =
      { text.foldl step s with tokens := before ++ (text.foldl step s).tokens } := by
  -- induction on the text: a step adds tokens behind those there are, and reads none of them
  induction text generalizing s with
  | nil => rfl
  | cons c rest ih =>
    have hstep : step { s with tokens := before ++ s.tokens } c =
        { s.step c with tokens := before ++ (s.step c).tokens } := by
      simp only [step]
      split
      · rfl
      · split <;> simp [List.append_assoc]
    rw [List.foldl_cons, List.foldl_cons, hstep, ih]

private theorem result?_append (s : Scan) (before : List Token) :
    result? { s with tokens := before ++ s.tokens } = (s.result?).map (before ++ ·) := by
  unfold result?
  split <;> simp [List.append_assoc]

private theorem of_result? {s : Scan} {tokens : List Token} (h : s.result? = some tokens) :
    s.quote = none ∧ s.tokens ++ wordTokens s.word = tokens := by
  unfold result? at h
  split at h
  · next hquote => exact ⟨hquote, Option.some.inj h⟩
  · cases h

end Scan

/-- White space or a parenthesis between two texts keeps their tokens apart. -/
theorem tokens?_append_cons {a : List Char} {c : Char} {first between : List Token}
    (ha : tokens? a = some first) (hc : delimiter? c = some between) (b : List Char) :
    tokens? (a ++ c :: b) = (tokens? b).map (first ++ between ++ ·) := by
  obtain ⟨hquote, hfirst⟩ := Scan.of_result? ha
  -- The word that has begun ends here, so `b` is read as if from the start.
  have hstep : (a.foldl Scan.step {}).step c = { tokens := (first ++ between) ++ [] } := by
    simp only [Scan.step, hquote, hc, List.append_nil, ← hfirst]
  rw [tokens?, List.foldl_append, List.foldl_cons, hstep,
    Scan.foldl_step_tokens b {} (first ++ between), Scan.result?_append]
  rfl

@[simp]
theorem tokens?_nil : tokens? [] = some [] := rfl

/-- A delimiter ends the word before it. -/
theorem tokens?_cons {c : Char} {between : List Token} (hc : delimiter? c = some between)
    (b : List Char) : tokens? (c :: b) = (tokens? b).map (between ++ ·) :=
  tokens?_append_cons tokens?_nil hc b

/-- Whether a text begins with white space or a parenthesis. -/
def startsApart (text : List Char) : Bool :=
  text.head?.any fun c => (delimiter? c).isSome

/-- Where the second text starts apart, the tokens of the two stand side by side. -/
theorem tokens?_append {a b : List Char} {first second : List Token}
    (ha : tokens? a = some first) (hb : tokens? b = some second) (hstart : startsApart b) :
    tokens? (a ++ b) = some (first ++ second) := by
  -- the second text starts with a character that ends a word, so none runs over the border
  cases b with
  | nil => cases hstart
  | cons c rest =>
    obtain ⟨between, hc⟩ := Option.isSome_iff_exists.mp hstart
    rw [tokens?_cons hc] at hb
    obtain ⟨others, hothers, rfl⟩ := Option.map_eq_some_iff.mp hb
    rw [tokens?_append_cons ha hc, hothers, Option.map_some, List.append_assoc]

/-- Two texts with a word between them, set off by blanks. -/
theorem tokens?_append_word {a b word : List Char} {first second third : List Token}
    (ha : tokens? a = some first) (hword : tokens? word = some second)
    (hb : tokens? b = some third) :
    tokens? (a ++ ' ' :: word ++ ' ' :: b) = some (first ++ second ++ third) := by
  -- the two blanks keep the word apart on both sides
  have hblank : delimiter? ' ' = some [] := by decide
  have hstart : tokens? (a ++ ' ' :: word) = some (first ++ second) := by
    simp [tokens?_append_cons ha hblank, hword]
  rw [tokens?_append_cons hstart hblank, hb]
  simp

/-- A text in parentheses. -/
theorem tokens?_enclosed {text : List Char} {tokens : List Token} (h : tokens? text = some tokens) :
    tokens? ('(' :: text ++ [')']) = some (.opening :: tokens ++ [.closing]) := by
  have hopening : delimiter? '(' = some [.opening] := rfl
  have hclosing : delimiter? ')' = some [.closing] := rfl
  rw [List.cons_append, tokens?_cons hopening, tokens?_append_cons h hclosing]
  simp

namespace Scan

/-- An ordinary character goes to the word, inside quotes as well. -/
theorem step_of_ordinary {s : Scan} {c : Char} (hquote : ∀ q ∈ s.quote, isQuote q)
    (hc : IsOrdinary c) : s.step c = { s with word := s.word ++ [c] } := by
  obtain ⟨quote, word, tokens⟩ := s
  obtain ⟨hdelimiter, hnoquote⟩ := hc
  -- outside quotes it goes on the word, and inside too, not being the closing one
  cases quote with
  | none => simp [step, hdelimiter, hnoquote]
  | some q =>
    have hne : c ≠ q := by
      rintro rfl
      simp [hquote c rfl] at hnoquote
    simp [step, hne]

private theorem foldl_step_of_ordinary {s : Scan} {text : List Char} (hquote : ∀ q ∈ s.quote, isQuote q)
    (h : ∀ c ∈ text, IsOrdinary c) : text.foldl step s = { s with word := s.word ++ text } := by
  induction text generalizing s with
  | nil => simp
  | cons c rest ih =>
    obtain ⟨hc, hrest⟩ := List.forall_mem_cons.mp h
    have hrest' := ih (s := { s with word := s.word ++ [c] }) hquote hrest
    rw [List.foldl_cons, step_of_ordinary hquote hc, hrest', List.append_assoc,
      List.singleton_append]

end Scan

/-- A text of ordinary characters is one word. -/
theorem tokens?_of_ordinary {text : List Char} (h : ∀ c ∈ text, IsOrdinary c) :
    tokens? text = some (wordTokens text) := by
  rw [tokens?, Scan.foldl_step_of_ordinary (by simp) h]
  rfl

/-- Ordinary characters at the end of a text make its last word longer. -/
theorem exists_tokens?_append {a suffix : List Char} {first : List Token}
    (ha : tokens? a = some first) (h : ∀ c ∈ suffix, IsOrdinary c) :
    ∃ before word, first = before ++ wordTokens word ∧
      tokens? (a ++ suffix) = some (before ++ wordTokens (word ++ suffix)) := by
  -- outside quotes only the last word is still open
  obtain ⟨hquote, hfirst⟩ := Scan.of_result? ha
  refine ⟨_, _, hfirst.symm, ?_⟩
  rw [tokens?, List.foldl_append, Scan.foldl_step_of_ordinary (by simp [hquote]) h, Scan.result?,
    if_pos hquote]

/-! ## Words -/

/-- A word with a character that no keyword has stands for itself. -/
theorem wordTokens_of_mem {c : Char} {word : List Char} (hmem : c ∈ word)
    (hand : c.toUpper ∉ "AND".toList) (hor : c.toUpper ∉ "OR".toList) :
    wordTokens word = [.word word] := by
  -- the letter is in the word in capitals too, and in neither connective
  have hupper : c.toUpper ∈ asciiUpper word := List.mem_map_of_mem hmem
  have hnotAnd : asciiUpper word ≠ "AND".toList := fun h => hand (by rwa [h] at hupper)
  have hnotOr : asciiUpper word ≠ "OR".toList := fun h => hor (by rwa [h] at hupper)
  rw [wordTokens, if_neg (List.ne_nil_of_mem hmem), if_neg hnotAnd, if_neg hnotOr]

/-! ## Numbered placeholders -/

namespace Relation

/-- The placeholders of the second text are numbered after those of the first. -/
theorem numberedFrom_append (n : Nat) (a b : List Char) :
    numberedFrom n (a ++ b) = numberedFrom n a ++ numberedFrom (n + a.count '?') b := by
  -- induction on the first text: each of its marks moves the numbers of the second by one
  induction a generalizing n with
  | nil => rfl
  | cons c rest ih =>
    by_cases hc : c = '?'
    · simp [numberedFrom, hc, ih, Nat.add_assoc, Nat.add_comm 1]
    · simp [numberedFrom, hc, ih]

/-- The placeholders of the second string are numbered after those of the first. -/
theorem numberedFrom_toList_append (n : Nat) (a b : String) :
    numberedFrom n (a ++ b).toList =
      numberedFrom n a.toList ++ numberedFrom (n + marks a) b.toList := by
  rw [String.toList_append, numberedFrom_append]
  rfl

private theorem numberedFrom_of_not_mem {text : List Char} (n : Nat) (h : '?' ∉ text) :
    numberedFrom n text = text := by
  induction text generalizing n with
  | nil => rfl
  | cons c rest ih =>
    obtain ⟨hc, hrest⟩ := List.ne_and_not_mem_of_not_mem_cons h
    rw [numberedFrom, if_neg (Ne.symm hc), ih n hrest]

/-- A plain text has nothing to be numbered. -/
theorem numberedFrom_of_plain {text : String} (n : Nat) (h : Plain text) :
    numberedFrom n text.toList = text.toList :=
  numberedFrom_of_not_mem n (List.count_eq_zero.mp h)

private theorem not_mem_numberedFrom (n : Nat) (text : List Char) : '?' ∉ numberedFrom n text := by
  induction text generalizing n with
  | nil => exact List.not_mem_nil
  | cons c rest ih =>
    unfold numberedFrom
    split
    · -- what replaces a mark is a dollar sign and digits
      simp only [List.cons_append, List.mem_cons, List.mem_append, not_or]
      exact ⟨by decide, fun h => absurd (isDigit_of_mem_natDigits h) (by decide), ih _⟩
    · next hc => exact List.not_mem_cons_of_ne_of_not_mem (Ne.symm hc) (ih n)

/-- Numbers that are written stay as they are. -/
theorem numberedFrom_numberedFrom (m n : Nat) (text : List Char) :
    numberedFrom m (numberedFrom n text) = numberedFrom n text :=
  numberedFrom_of_not_mem m (not_mem_numberedFrom n text)

end Relation

/-! ## Tokens of numbered texts -/

/-- A token without the text of its word. -/
def Token.shape : Token → Token
  | .word _ => .word []
  | token => token

/-- Two words that are the same, or of which one has a placeholder and the other one its number. -/
def Renumbered (a b : List Char) : Prop :=
  a = b ∨ '?' ∈ a ∧ '$' ∈ b

/-- Texts that differ in their numbers do so with the same character behind them. -/
theorem Renumbered.append_singleton {a b : List Char} (h : Renumbered a b) (c : Char) :
    Renumbered (a ++ [c]) (b ++ [c]) := by
  rcases h with rfl | ⟨ha, hb⟩
  · exact .inl rfl
  · exact .inr ⟨List.mem_append_left _ ha, List.mem_append_left _ hb⟩

/-- Neither of them is a keyword unless both are the same one. -/
theorem Renumbered.shape_wordTokens {a b : List Char} (h : Renumbered a b) :
    (wordTokens b).map Token.shape = (wordTokens a).map Token.shape := by
  rcases h with rfl | ⟨ha, hb⟩
  · rfl
  · rw [wordTokens_of_mem ha (by decide) (by decide), wordTokens_of_mem hb (by decide) (by decide)]
    rfl

private theorem ordinary_of_isDigit {c : Char} (h : c.isDigit) : IsOrdinary c := by
  have hne : ∀ d : Char, d.isDigit = false → c ≠ d := by
    rintro d hd rfl
    simp [h] at hd
  have hblank := isBlank_of_isDecimalDigit (isDecimalDigit_of_isDigit h)
  have hopening : c ≠ '(' := hne _ (by decide)
  have hclosing : c ≠ ')' := hne _ (by decide)
  refine ⟨by simp [delimiter?, hopening, hclosing, hblank], ?_⟩
  simp only [isQuote, Bool.or_eq_false_iff, beq_eq_false_iff_ne]
  exact ⟨⟨hne _ (by decide), hne _ (by decide)⟩, hne _ (by decide)⟩

namespace Scan

/-- Two texts, read up to places before which they differ in the numbers of placeholders only. -/
structure Alike (s s' : Scan) : Prop where
  quote : s'.quote = s.quote
  quotes : ∀ q ∈ s.quote, isQuote q
  word : Renumbered s.word s'.word
  tokens : s'.tokens.map Token.shape = s.tokens.map Token.shape

/-- The same character keeps two texts alike. -/
theorem Alike.step {s s' : Scan} (h : s.Alike s') (c : Char) : (s.step c).Alike (s'.step c) := by
  obtain ⟨hquote, hquotes, hword, htokens⟩ := h
  unfold Scan.step
  rw [hquote]
  split
  · -- Inside quotes the character goes to both words, and may end the quotes of both.
    next q hq =>
    refine ⟨rfl, fun q' hq' => ?_, hword.append_singleton c, htokens⟩
    simp only at hq'
    split at hq'
    · cases hq'
    · exact hquotes q' (hq.trans hq')
  · split
    · refine ⟨rfl, nofun, .inl rfl, ?_⟩
      simp only [List.map_append, htokens, hword.shape_wordTokens]
    · refine ⟨rfl, fun q hq => ?_, hword.append_singleton c, htokens⟩
      simp only at hq
      split at hq
      · next hc => exact Option.some.inj hq ▸ hc
      · cases hq

/-- A placeholder and its number keep two texts alike. -/
theorem Alike.mark {s s' : Scan} (h : s.Alike s') (n : Nat) :
    (s.step '?').Alike (('$' :: natDigits n).foldl Scan.step s') := by
  obtain ⟨hquote, hquotes, hword, htokens⟩ := h
  have hdigits : ∀ c ∈ '$' :: natDigits n, IsOrdinary c :=
    List.forall_mem_cons.mpr
      ⟨by decide, fun c hc => ordinary_of_isDigit (isDigit_of_mem_natDigits hc)⟩
  -- Both are ordinary characters, which make the words longer and nothing else.
  rw [step_of_ordinary hquotes (by decide), foldl_step_of_ordinary (hquote ▸ hquotes) hdigits]
  exact ⟨hquote, hquotes, .inr ⟨by simp, by simp⟩, htokens⟩

private theorem Alike.foldl_numberedFrom {s s' : Scan} (h : s.Alike s') (n : Nat) (text : List Char) :
    (text.foldl Scan.step s).Alike ((Relation.numberedFrom n text).foldl Scan.step s') := by
  -- induction on the text: a mark and its number are read as one word
  induction text generalizing s s' n with
  | nil => exact h
  | cons c rest ih =>
    rw [Relation.numberedFrom]
    split
    · next hc =>
      subst hc
      rw [List.foldl_append]
      exact ih (h.mark n) (n + 1)
    · exact ih (h.step c) n

end Scan

/-- Numbering the placeholders of a text changes nothing but the texts of words. -/
theorem exists_tokens?_numberedFrom {text : List Char} {tokens : List Token}
    (h : tokens? text = some tokens) (n : Nat) :
    ∃ numbered, tokens? (Relation.numberedFrom n text) = some numbered ∧
      numbered.map Token.shape = tokens.map Token.shape := by
  -- both scans start alike, and they end alike but for the texts of words
  have hstart : Scan.Alike {} {} := ⟨rfl, nofun, .inl rfl, rfl⟩
  obtain ⟨hquote, -, hword, htokens⟩ := hstart.foldl_numberedFrom n text
  obtain ⟨hclosed, rfl⟩ := Scan.of_result? h
  refine ⟨_, if_pos (hquote.trans hclosed), ?_⟩
  rw [List.map_append, List.map_append, htokens, hword.shape_wordTokens]

end FieldQuery.Sql
