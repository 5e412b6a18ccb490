import FieldQuery.Proofs.Sql.Tokens
import FieldQuery.Proofs.Text.Trimming
import FieldQuery.Sql.Dialect

/-!
# Reading the text of an ordering

The text of an ordering is cut at its commas into items and at its blanks into words. A comma or a blank
that is inside parentheses or quotes does neither, so a call is one word, and so is a quoted name. An
item begins with the word that rows are compared by, which a test may follow; then come the direction and
the place of NULLs, if they are written.

Main statement: what is written for a list of items is read as these items again, if each of them is
about an expression of one word.
-/

namespace FieldQuery.Sql

open FieldQuery.Text

/-! ## Places inside a text -/

/-- How many parentheses are open at a place of a text, and the quote that is open there. -/
structure Nesting where
  quote : Option Char := none
  depth : Nat := 0
deriving DecidableEq, Repr

namespace Nesting

/-- Past one more character. A parenthesis that closes none is not read. -/
def step? (n : Nesting) (c : Char) : Option Nesting :=
  match n.quote with
  | some q => some { n with quote := if c = q then none else some q }
  | none =>
    if isQuote c then some { n with quote := some c }
    else if c = '(' then some { n with depth := n.depth + 1 }
    else if c = ')' then if n.depth = 0 then none else some { n with depth := n.depth - 1 }
    else some n

/-- Past a text in which nothing outside parentheses and quotes separates words or items. -/
def past? (n : Nesting) : List Char → Option Nesting
  | [] => some n
  | c :: rest =>
    if n = {} ∧ (c = ',' ∨ isBlank c) then none else (n.step? c).bind (·.past? rest)

/-- One level further in. -/
def inner (n : Nesting) : Nesting :=
  { n with depth := n.depth + 1 }

variable {n n' m : Nesting} {c : Char} {a b : List Char}

private theorem past?_append (a b : List Char) (n : Nesting) :
    n.past? (a ++ b) = (n.past? a).bind (·.past? b) := by
  -- induction on the first text, which may end the whole by a separator or by an unmatched bracket
  induction a generalizing n with
  | nil => rfl
  | cons c rest ih =>
    simp only [List.cons_append, past?]
    split
    · rfl
    · cases n.step? c with
      | none => rfl
      | some n' => exact ih n'

private theorem step?_inner (h : n.step? c = some n') : n.inner.step? c = some n'.inner := by
  unfold step? at h ⊢
  unfold inner
  grind

/-- What is between parentheses may be read one level further in. -/
theorem past?_inner (h : n.past? a = some n') : n.inner.past? a = some n'.inner := by
  induction a generalizing n with
  | nil => exact congrArg (Option.map inner) h
  | cons c rest ih =>
    simp only [past?] at h ⊢
    split at h
    · cases h
    · obtain ⟨m, hstep, hrest⟩ := Option.bind_eq_some_iff.mp h
      -- one level further in nothing separates, so every character is passed
      have hdeep : n.inner ≠ {} := fun hinner => absurd (congrArg depth hinner) (by simp [inner])
      rw [if_neg fun hsep => hdeep hsep.1, step?_inner hstep]
      exact ih hrest

end Nesting

/-- A text that is one word: its parentheses and quotes are closed, and outside of them there is nothing
that separates words or items. -/
def IsWord (text : String) : Prop :=
  text ≠ "" ∧ Nesting.past? {} text.toList = some {}

instance (text : String) : Decidable (IsWord text) :=
  inferInstanceAs (Decidable (_ ∧ _))

namespace IsWord

variable {text : String}

/-- A word is read at every depth. -/
theorem past?_depth (h : IsWord text) (depth : Nat) :
    Nesting.past? ⟨none, depth⟩ text.toList = some ⟨none, depth⟩ := by
  induction depth with
  | zero => exact h.2
  | succ depth ih => exact Nesting.past?_inner ih

/-- A word in the parentheses of a call, or of calls in one another. -/
theorem call {opening closing : String} {d : Nat} (h : IsWord text)
    (hopening : Nesting.past? {} opening.toList = some ⟨none, d⟩)
    (hclosing : Nesting.past? ⟨none, d⟩ closing.toList = some {}) :
    IsWord (opening ++ text ++ closing) := by
  -- between the two brackets of the call no blank separates, being one level further in
  refine ⟨fun hempty => h.1 ?_, ?_⟩
  · simp only [String.append_eq_empty_iff] at hempty
    exact hempty.1.2
  · simp only [String.toList_append, Nesting.past?_append, hopening, Option.bind_some,
      h.past?_depth, hclosing]

end IsWord

/-! ## Cutting a text -/

/-- A text of items that is read up to some place: where this is, the word that has begun, the words of
the item before it, and the items before this one. -/
structure OrderScan where
  nesting : Nesting := {}
  word : List Char := []
  words : List String := []
  items : List (List String) := []

namespace OrderScan

/-- The words of the item, with the one that has begun. -/
def allWords (s : OrderScan) : List String :=
  if s.word = [] then s.words else s.words ++ [String.ofList s.word]

/-- One more character. -/
def step? (s : OrderScan) (c : Char) : Option OrderScan :=
  if s.nesting = {} ∧ c = ',' then some { items := s.items ++ [s.allWords] }
  else if s.nesting = {} ∧ isBlank c then some { words := s.allWords, items := s.items }
  else (s.nesting.step? c).map fun n => { s with nesting := n, word := s.word ++ [c] }

/-- All items, if the parentheses and quotes are closed. -/
def result? (s : OrderScan) : Option (List (List String)) :=
  if s.nesting = {} then some (s.items ++ [s.allWords]) else none

end OrderScan

/-- The items of a text, each as its words. -/
def orderWords? (text : String) : Option (List (List String)) :=
  (text.toList.foldlM OrderScan.step? {}).bind OrderScan.result?

/-- Items as they are laid out in a text. -/
def layOut (items : List (List String)) : String :=
  ", ".intercalate (items.map fun words => " ".intercalate words)

namespace OrderScan

variable {s : OrderScan}

/-- What separates nothing makes the word longer. -/
theorem foldlM_of_past? {text : List Char} {n n' : Nesting} (h : n.past? text = some n')
    (word : List Char) (words : List String) (items : List (List String)) :
    text.foldlM step? ⟨n, word, words, items⟩ = some ⟨n', word ++ text, words, items⟩ := by
  -- induction on the text: no character of it separates at the level it stands on
  induction text generalizing n word with
  | nil =>
    cases h
    simp
  | cons c rest ih =>
    simp only [Nesting.past?] at h
    split at h
    · cases h
    · next hsep =>
      obtain ⟨m, hstep, hrest⟩ := Option.bind_eq_some_iff.mp h
      have hcomma : ¬ (n = {} ∧ c = ',') := fun hc => hsep ⟨hc.1, .inl hc.2⟩
      have hblank : ¬ (n = {} ∧ isBlank c = true) := fun hc => hsep ⟨hc.1, .inr hc.2⟩
      have hchar : step? ⟨n, word, words, items⟩ c = some ⟨m, word ++ [c], words, items⟩ := by
        simp only [step?, if_neg hcomma, if_neg hblank, hstep, Option.map_some]
      rw [List.foldlM_cons, hchar]
      simpa using ih hrest (word ++ [c])

/-- The words of an item are read one after another, up to the last one, which has begun. -/
theorem foldlM_words {word : String} {rest : List String} (h : ∀ w ∈ word :: rest, IsWord w)
    (words : List String) (items : List (List String)) :
    ∃ s, (" ".intercalate (word :: rest)).toList.foldlM step? ⟨{}, [], words, items⟩ = some s ∧
      s.nesting = {} ∧ s.items = items ∧ s.allWords = words ++ word :: rest := by
  -- induction on the words: each blank closes the word read so far
  induction rest generalizing word words with
  | nil =>
    obtain ⟨hne, hpast⟩ := h word List.mem_cons_self
    refine ⟨⟨{}, word.toList, words, items⟩, ?_, rfl, rfl, ?_⟩
    · simpa using foldlM_of_past? hpast [] words items
    · simp [allWords, hne]
  | cons next rest ih =>
    obtain ⟨hword, hrest⟩ := List.forall_mem_cons.mp h
    obtain ⟨s, hfold, hs⟩ := ih hrest (words ++ [word])
    refine ⟨s, ?_, hs.1, hs.2.1, by simp [hs.2.2]⟩
    have htext : (" ".intercalate (word :: next :: rest)).toList =
        word.toList ++ ' ' :: (" ".intercalate (next :: rest)).toList := by
      simp
    have hblank : step? ⟨{}, word.toList, words, items⟩ ' ' =
        some ⟨{}, [], words ++ [word], items⟩ := by
      simp [step?, allWords, hword.1]
    simp only [htext, List.foldlM_append, foldlM_of_past? hword.2, List.nil_append, List.foldlM_cons,
      Option.bind_eq_bind, Option.bind_some, hblank, hfold]

/-- The items of a text are read one after another, up to the last one. -/
theorem foldlM_items {item : List String} {rest : List (List String)}
    (h : ∀ words ∈ item :: rest, words ≠ [] ∧ ∀ w ∈ words, IsWord w) (items : List (List String)) :
    ∃ s, (layOut (item :: rest)).toList.foldlM step? ⟨{}, [], [], items⟩ = some s ∧
      s.result? = some (items ++ item :: rest) := by
  induction rest generalizing item items with
  | nil =>
    obtain ⟨hne, hwords⟩ := h item List.mem_cons_self
    obtain ⟨word, others, rfl⟩ := List.exists_cons_of_ne_nil hne
    obtain ⟨s, hfold, hnesting, hitems, hall⟩ := foldlM_words hwords [] items
    refine ⟨s, by simpa [layOut] using hfold, ?_⟩
    rw [result?, if_pos hnesting, hitems, hall, List.nil_append]
  | cons next rest ih =>
    obtain ⟨⟨hne, hwords⟩, hrest⟩ := List.forall_mem_cons.mp h
    obtain ⟨word, others, rfl⟩ := List.exists_cons_of_ne_nil hne
    obtain ⟨s, hfold, hnesting, hitems, hall⟩ := foldlM_words hwords [] items
    obtain ⟨s', hfold', hresult⟩ := ih hrest (items ++ [word :: others])
    refine ⟨s', ?_, by simp [hresult]⟩
    have htext : (layOut ((word :: others) :: next :: rest)).toList =
        (" ".intercalate (word :: others)).toList ++ ',' :: ' ' :: (layOut (next :: rest)).toList := by
      simp [layOut]
    -- The comma ends the item, and nothing has begun at the blank after it.
    have hcomma : s.step? ',' = some ⟨{}, [], [], items ++ [word :: others]⟩ := by
      simp [step?, hnesting, hitems, hall]
    have hblank : step? ⟨{}, [], [], items ++ [word :: others]⟩ ' ' =
        some ⟨{}, [], [], items ++ [word :: others]⟩ := by
      simp [step?, allWords]
    simp only [htext, List.foldlM_append, hfold, List.foldlM_cons, Option.bind_eq_bind,
      Option.bind_some, hcomma, hblank, hfold']

end OrderScan

/-- Items of words are read as they are laid out. -/
theorem orderWords?_layOut {items : List (List String)} (hne : items ≠ [])
    (h : ∀ words ∈ items, words ≠ [] ∧ ∀ w ∈ words, IsWord w) :
    orderWords? (layOut items) = some items := by
  obtain ⟨item, rest, rfl⟩ := List.exists_cons_of_ne_nil hne
  obtain ⟨s, hfold, hresult⟩ := OrderScan.foldlM_items h []
  rw [orderWords?, hfold, Option.bind_some, hresult, List.nil_append]

/-! ## Reading items -/

namespace Dialect

/-- What MySQL tests for NULL in a call. The other dialects have no such call. -/
def nullTest? (dialect : Dialect) (word : String) : Option String :=
  match dialect with
  | mysql =>
    let inner := String.ofList ((word.toList.drop "ISNULL(".length).dropLast)
    if word = "ISNULL(" ++ inner ++ ")" ∧ inner.toList.foldlM Nesting.step? {} = some {} then some inner
    else none
  | postgres | sqlite => none

/-- What rows are compared by, and the words after it. -/
def readKey? (dialect : Dialect) : List String → Option (SortKey × List String)
  | [] => none
  | word :: "IS" :: "NULL" :: rest => some (.isNull word, rest)
  | word :: "=" :: "''" :: rest => some (.isEmpty word, rest)
  | word :: rest =>
    match dialect.nullTest? word with
    | some inner => some (.isNull inner, rest)
    | none => some (.value word, rest)

/-- The direction of an item, and whether NULLs are put last, which cannot be written in MySQL. -/
def readOptions? (dialect : Dialect) : List String → Option (Option Direction × Bool)
  | [] => some (none, false)
  | ["ASC"] => some (some .ascending, false)
  | ["DESC"] => some (some .descending, false)
  | ["NULLS", "LAST"] => if dialect = mysql then none else some (none, true)
  | ["ASC", "NULLS", "LAST"] => if dialect = mysql then none else some (some .ascending, true)
  | ["DESC", "NULLS", "LAST"] => if dialect = mysql then none else some (some .descending, true)
  | _ => none

/-- An item from its words. -/
def readItem? (dialect : Dialect) (words : List String) : Option SortItem := do
  let (key, rest) ← dialect.readKey? words
  let (direction, putsNullsLast) ← dialect.readOptions? rest
  pure ⟨key, direction, putsNullsLast⟩

/-- The items of an ordering from its text. -/
def readOrder? (dialect : Dialect) (text : String) : Option (List SortItem) := do
  (← orderWords? text).mapM dialect.readItem?

end Dialect

/-! ## Spelling items -/

/-- The expression that rows are compared or tested by. -/
def SortKey.expression : SortKey → String
  | .value e | .isNull e | .isEmpty e => e

namespace Dialect

/-- How a sort key may be spelled. -/
inductive SpellsKey (dialect : Dialect) : SortKey → String → Prop where
  | value (e : String) : SpellsKey dialect (.value e) e
  | isNull (e : String) : SpellsKey dialect (.isNull e) (e ++ " IS NULL")
  | isNullCall (e : String) (h : dialect = mysql) : SpellsKey dialect (.isNull e) ("ISNULL(" ++ e ++ ")")
  | isEmpty (e : String) : SpellsKey dialect (.isEmpty e) (e ++ " = ''")

/-- How an item may be spelled. The place of NULLs cannot be written in MySQL. -/
inductive SpellsItem (dialect : Dialect) : SortItem → String → Prop where
  | key {key : SortKey} {text : String} (h : dialect.SpellsKey key text) :
      SpellsItem dialect ⟨key, none, false⟩ text
  | directed {key : SortKey} {text : String} (h : dialect.SpellsKey key text) (direction : Direction) :
      SpellsItem dialect ⟨key, direction, false⟩ (text ++ " " ++ direction.sql)
  | nullsLast {key : SortKey} {direction : Option Direction} {text : String}
      (h : SpellsItem dialect ⟨key, direction, false⟩ text) (hdialect : dialect ≠ mysql) :
      SpellsItem dialect ⟨key, direction, true⟩ (text ++ " NULLS LAST")

/-- How the items of an ordering may be spelled. -/
inductive Spells (dialect : Dialect) : List SortItem → String → Prop where
  | singleton {item : SortItem} {text : String} (h : dialect.SpellsItem item text) :
      Spells dialect [item] text
  | cons {item : SortItem} {items : List SortItem} {text rest : String}
      (h : dialect.SpellsItem item text) (hrest : Spells dialect items rest) :
      Spells dialect (item :: items) (text ++ ", " ++ rest)

variable {dialect : Dialect} {items : List SortItem} {text e : String}

/-- What is written for some items spells them. -/
theorem spells_sortSql (hne : items ≠ [])
    (hnulls : ∀ item ∈ items, item.putsNullsLast = true → dialect ≠ mysql) :
    dialect.Spells items (dialect.sortSql items) := by
  -- each dialect writes every key and every item in a way the grammar lists
  have hkey (key : SortKey) : dialect.SpellsKey key (dialect.keySql key) := by
    cases key with
    | value e => exact .value e
    | isNull e =>
      cases dialect with
      | mysql => exact .isNullCall e rfl
      | postgres | sqlite => exact .isNull e
    | isEmpty e => exact .isEmpty e
  have hitem : ∀ item ∈ items, dialect.SpellsItem item (dialect.itemSql item) := by
    rintro ⟨key, direction, putsNullsLast⟩ hmem
    have hdirected : dialect.SpellsItem ⟨key, direction, false⟩
        (dialect.itemSql ⟨key, direction, false⟩) := by
      cases direction with
      | none => simpa [itemSql] using SpellsItem.key (hkey key)
      | some direction =>
        simpa [itemSql, String.append_assoc] using SpellsItem.directed (hkey key) direction
    cases putsNullsLast with
    | false => exact hdirected
    | true => simpa [itemSql] using hdirected.nullsLast (hnulls _ hmem rfl)
  -- what is left is the list of items, where a comma precedes every one but the first
  clear hnulls hkey
  induction items with
  | nil => exact absurd rfl hne
  | cons item items ih =>
    obtain ⟨hfirst, hrest⟩ := List.forall_mem_cons.mp hitem
    cases items with
    | nil => simpa [sortSql] using Spells.singleton hfirst
    | cons next rest =>
      simpa [sortSql, String.append_assoc] using Spells.cons hfirst (ih (by simp) hrest)

/-! ## Reading what is spelled -/

/-- An expression that is one word, and not one that is read as a test for NULL. -/
def IsExpression (dialect : Dialect) (e : String) : Prop :=
  IsWord e ∧ dialect.nullTest? e = none

instance (dialect : Dialect) (e : String) : Decidable (dialect.IsExpression e) :=
  inferInstanceAs (Decidable (_ ∧ _))

private theorem foldlM_step?_of_past? {n n' : Nesting} {text : List Char} (h : n.past? text = some n') :
    text.foldlM Nesting.step? n = some n' := by
  -- induction on the text; the nesting goes on as it does where nothing separates
  induction text generalizing n with
  | nil => exact h
  | cons c rest ih =>
    simp only [Nesting.past?] at h
    split at h
    · cases h
    · obtain ⟨m, hstep, hrest⟩ := Option.bind_eq_some_iff.mp h
      simpa [hstep] using ih hrest

private theorem nullTest?_call (h : IsWord e) : nullTest? mysql ("ISNULL(" ++ e ++ ")") = some e := by
  have hinner :
      String.ofList ((("ISNULL(" ++ e ++ ")").toList.drop "ISNULL(".length).dropLast) = e := by
    -- what stands between the name of the function and the last bracket
    have hdrop : ("ISNULL(" ++ e ++ ")").toList.drop "ISNULL(".length = e.toList ++ [')'] := by
      rw [String.append_assoc, String.toList_append, ← String.length_toList, List.drop_left]
      simp
    rw [hdrop, List.dropLast_concat, String.ofList_toList]
  simp only [nullTest?, hinner, true_and]
  rw [if_pos (foldlM_step?_of_past? h.2)]

/-- A word alone is not taken for the beginning of a test. -/
theorem readKey?_cons (word : String) {rest : List String}
    (hrest : ∀ next ∈ rest.head?, next ≠ "IS" ∧ next ≠ "=") :
    dialect.readKey? (word :: rest) =
      some ((dialect.nullTest? word).elim (.value word) .isNull, rest) := by
  -- the other two readings begin with a word that is not next here
  rw [readKey?]
  · cases dialect.nullTest? word <;> rfl
  · rintro others rfl
    exact absurd rfl (hrest "IS" rfl).1
  · rintro others rfl
    exact absurd rfl (hrest "=" rfl).2

/-- Some words that are read, and the text that they are laid out in. -/
structure Words (words : List String) (text : String) : Prop where
  ne_nil : words ≠ []
  isWord : ∀ word ∈ words, IsWord word
  text_eq : " ".intercalate words = text

/-- Words that are laid out with a blank between them are the words of both. -/
theorem Words.append {words : List String} (h : Words words text) {more : List String}
    {suffix : String} (hmore : Words more suffix) :
    Words (words ++ more) (text ++ " " ++ suffix) where
  ne_nil := List.append_ne_nil_of_left_ne_nil h.ne_nil more
  isWord := List.forall_mem_append.mpr ⟨h.isWord, hmore.isWord⟩
  text_eq := by
    rw [← h.text_eq, ← hmore.text_eq]
    obtain ⟨next, rest, rfl⟩ := List.exists_cons_of_ne_nil hmore.ne_nil
    have hne := h.ne_nil
    clear h hmore
    -- a space stands between words only, so the last word has to be told apart
    induction words with
    | nil => exact absurd rfl hne
    | cons word words ih =>
      cases words with
      | nil => simp [String.append_assoc]
      | cons other words => simpa [String.append_assoc] using ih (by simp)

/-- One word is laid out as it is. -/
theorem Words.singleton {word : String} (h : IsWord word) : Words [word] word :=
  ⟨by simp, List.forall_mem_singleton.mpr h, by simp⟩

private theorem SpellsKey.exists_words {key : SortKey} (h : dialect.SpellsKey key text)
    (hkey : dialect.IsExpression key.expression) :
    ∃ words, Words words text ∧ ∀ rest : List String,
      (∀ next ∈ rest.head?, next ≠ "IS" ∧ next ≠ "=") →
        dialect.readKey? (words ++ rest) = some (key, rest) := by
  -- the words of the two tests, which follow the expression
  have hnullWords : Words ["IS", "NULL"] "IS NULL" := ⟨by decide, by decide, by decide⟩
  have hemptyWords : Words ["=", "''"] "= ''" := ⟨by decide, by decide, by decide⟩
  have hword : IsWord key.expression := hkey.1
  cases h with
  | value =>
    have hnull : dialect.nullTest? text = none := hkey.2
    refine ⟨[text], .singleton hword, fun rest hrest => ?_⟩
    rw [List.singleton_append, readKey?_cons text hrest, hnull, Option.elim_none]
  | isNull e =>
    refine ⟨[e] ++ ["IS", "NULL"], ?_, fun rest _ => rfl⟩
    simpa [String.append_assoc, SortKey.expression] using (Words.singleton hword).append hnullWords
  | isNullCall e hdialect =>
    subst hdialect
    have hcall : nullTest? mysql ("ISNULL(" ++ e ++ ")") = some e := nullTest?_call hword
    refine ⟨["ISNULL(" ++ e ++ ")"], .singleton ?_, fun rest hrest => ?_⟩
    · exact hword.call (d := 1) (by decide) (by decide)
    · rw [List.singleton_append, readKey?_cons _ hrest, hcall, Option.elim_some]
  | isEmpty e =>
    refine ⟨[e] ++ ["=", "''"], ?_, fun rest _ => rfl⟩
    simpa [String.append_assoc, SortKey.expression] using (Words.singleton hword).append hemptyWords

/-- The words of the options of an item. -/
def optionWords (direction : Option Direction) (putsNullsLast : Bool) : List String :=
  (direction.map Direction.sql).toList ++ if putsNullsLast then ["NULLS", "LAST"] else []

private theorem readOptions?_optionWords (direction : Option Direction) {putsNullsLast : Bool}
    (h : putsNullsLast = true → dialect ≠ mysql) :
    dialect.readOptions? (optionWords direction putsNullsLast) = some (direction, putsNullsLast) := by
  rcases direction with _ | (_ | _) <;> cases putsNullsLast <;>
    simp_all [readOptions?, optionWords, Direction.sql]

private theorem SpellsItem.exists_words {item : SortItem} (h : dialect.SpellsItem item text)
    (hitem : dialect.IsExpression item.key.expression) :
    (item.putsNullsLast = true → dialect ≠ mysql) ∧
    ∃ words, Words (words ++ optionWords item.direction item.putsNullsLast) text ∧
      ∀ rest : List String, (∀ next ∈ rest.head?, next ≠ "IS" ∧ next ≠ "=") →
        dialect.readKey? (words ++ rest) = some (item.key, rest) := by
  -- the options follow the key, and reading the key leaves them
  induction h with
  | key hkey =>
    obtain ⟨words, hwords, hread⟩ := hkey.exists_words hitem
    exact ⟨nofun, words, by simpa [optionWords] using hwords, hread⟩
  | directed hkey direction =>
    obtain ⟨words, hwords, hread⟩ := hkey.exists_words hitem
    have hdirection : Words [direction.sql] direction.sql := .singleton (by cases direction <;> decide)
    exact ⟨nofun, words, by simpa [optionWords] using hwords.append hdirection, hread⟩
  | nullsLast _ hdialect ih =>
    obtain ⟨-, words, hwords, hread⟩ := ih hitem
    have hnulls : Words ["NULLS", "LAST"] "NULLS LAST" := ⟨by decide, by decide, by decide⟩
    refine ⟨fun _ => hdialect, words, ?_, hread⟩
    simpa [optionWords, String.append_assoc] using hwords.append hnulls

/-- An item is read from the words of its text. -/
theorem SpellsItem.exists_readItem? {item : SortItem} (h : dialect.SpellsItem item text)
    (hitem : dialect.IsExpression item.key.expression) :
    ∃ words, Words words text ∧ dialect.readItem? words = some item := by
  obtain ⟨hnulls, words, hwords, hread⟩ := h.exists_words hitem
  refine ⟨_, hwords, ?_⟩
  -- no option begins like the rest of a test
  have hnext : ∀ next ∈ (optionWords item.direction item.putsNullsLast).head?,
      next ≠ "IS" ∧ next ≠ "=" := by
    rcases item.direction with _ | (_ | _) <;> cases item.putsNullsLast <;> decide
  rw [readItem?, hread _ hnext]
  simp only [Option.bind_eq_bind, Option.bind_some, readOptions?_optionWords _ hnulls]
  rfl

/-- Whichever way a text spells items about expressions of one word, it is read as these items. -/
theorem Spells.readOrder?_eq (h : dialect.Spells items text)
    (hitems : ∀ item ∈ items, dialect.IsExpression item.key.expression) :
    dialect.readOrder? text = some items := by
  -- every item gives its words, and the text is those words laid out
  obtain ⟨wordLists, hne, hwords, rfl, hread⟩ : ∃ wordLists : List (List String), wordLists ≠ [] ∧
      (∀ words ∈ wordLists, words ≠ [] ∧ ∀ word ∈ words, IsWord word) ∧ layOut wordLists = text ∧
        wordLists.mapM dialect.readItem? = some items := by
    induction h with
    | singleton hitem =>
      obtain ⟨words, hwords, hread⟩ := hitem.exists_readItem? (hitems _ List.mem_cons_self)
      refine ⟨[words], by simp, List.forall_mem_singleton.mpr ⟨hwords.ne_nil, hwords.isWord⟩, ?_, ?_⟩
      · simp [layOut, hwords.text_eq]
      · simp [hread]
    | cons hitem hspells ih =>
      obtain ⟨hfirst, hrest⟩ := List.forall_mem_cons.mp hitems
      obtain ⟨words, hwords, hread⟩ := hitem.exists_readItem? hfirst
      obtain ⟨wordLists, hne, hall, rfl, hreads⟩ := ih hrest
      obtain ⟨next, others, rfl⟩ := List.exists_cons_of_ne_nil hne
      refine ⟨words :: next :: others, by simp,
        List.forall_mem_cons.mpr ⟨⟨hwords.ne_nil, hwords.isWord⟩, hall⟩, ?_, ?_⟩
      · simp [layOut, hwords.text_eq, String.append_assoc]
      · simp [hread, hreads]
  rw [readOrder?, orderWords?_layOut hne hwords]
  exact hread

/-! ## The orderings of a column -/

/-- A text that begins otherwise is no test for NULL. -/
theorem nullTest?_append {opening rest : String} {c : Char} (hc : opening.toList.head? = some c)
    (hne : c ≠ 'I') : dialect.nullTest? (opening ++ rest) = none := by
  cases dialect with
  | mysql =>
    -- a call of `ISNULL` begins with the one letter that is excluded
    refine if_neg fun hcall => hne ?_
    have hhead := congrArg (fun text : String => text.toList.head?) hcall.1
    simpa [hc] using hhead
  | postgres | sqlite => rfl

section Column

variable {column : String}

/-- A call with a word in it is an expression, unless it may be a test for NULL. -/
theorem isExpression_call {opening closing : String} {d : Nat} {c : Char} (h : IsWord column)
    (hopening : Nesting.past? {} opening.toList = some ⟨none, d⟩)
    (hclosing : Nesting.past? ⟨none, d⟩ closing.toList = some {})
    (hc : opening.toList.head? = some c) (hne : c ≠ 'I') :
    dialect.IsExpression (opening ++ column ++ closing) := by
  refine ⟨h.call hopening hclosing, ?_⟩
  rw [String.append_assoc]
  exact nullTest?_append hc hne

private theorem isExpression_extractHour (dialect : Dialect) (h : IsWord column) :
    dialect.IsExpression (dialect.extractHour column) := by
  cases dialect with
  | mysql | postgres => exact isExpression_call h (d := 1) (by decide) (by decide) rfl (by decide)
  | sqlite => exact isExpression_call h (d := 2) (by decide) (by decide) rfl (by decide)

private theorem isExpression_extractMinute (dialect : Dialect) (h : IsWord column) :
    dialect.IsExpression (dialect.extractMinute column) := by
  cases dialect with
  | mysql | postgres => exact isExpression_call h (d := 1) (by decide) (by decide) rfl (by decide)
  | sqlite => exact isExpression_call h (d := 2) (by decide) (by decide) rfl (by decide)

/-- The text of an ordering by an expression spells its items. -/
theorem spells_orderNullsLast (dialect : Dialect) (column : String) (direction : Direction) :
    dialect.Spells (dialect.nullsLast column direction) (dialect.orderNullsLast column direction) :=
  spells_sortSql (by cases dialect <;> simp [nullsLast]) (by cases dialect <;> simp [nullsLast])

/-- The text of an ordering by a text spells its items. -/
theorem spells_orderText (dialect : Dialect) (column : String) (direction : Direction) :
    dialect.Spells (dialect.textOrder column direction) (dialect.orderText column direction) :=
  spells_sortSql (by cases dialect <;> simp [textOrder]) (by cases dialect <;> simp [textOrder])

/-- The text of an ordering by a time of day spells its items. -/
theorem spells_orderTime (dialect : Dialect) (column : String) (direction : Direction) :
    dialect.Spells (dialect.timeOrder column direction) (dialect.orderTime column direction) :=
  spells_sortSql (by cases dialect <;> simp [timeOrder]) (by cases dialect <;> simp [timeOrder])

variable (direction : Direction) (h : dialect.IsExpression column)
include h

/-- The text of an ordering of an expression is read as its items. -/
theorem readOrder?_orderNullsLast :
    dialect.readOrder? (dialect.orderNullsLast column direction) =
      some (dialect.nullsLast column direction) := by
  refine (spells_orderNullsLast dialect column direction).readOrder?_eq ?_
  cases dialect <;> simp [nullsLast, SortKey.expression, h]

/-- The text of an ordering of texts is read as its items. -/
theorem readOrder?_orderText :
    dialect.readOrder? (dialect.orderText column direction) =
      some (dialect.textOrder column direction) := by
  refine (spells_orderText dialect column direction).readOrder?_eq ?_
  cases dialect <;> simp [textOrder, SortKey.expression, h]

/-- The text of an ordering of times is read as its items. -/
theorem readOrder?_orderTime :
    dialect.readOrder? (dialect.orderTime column direction) =
      some (dialect.timeOrder column direction) := by
  have hhour := isExpression_extractHour dialect h.1
  have hminute := isExpression_extractMinute dialect h.1
  refine (spells_orderTime dialect column direction).readOrder?_eq ?_
  cases dialect <;> simp [timeOrder, SortKey.expression, h, hhour, hminute]

end Column

end Dialect

end FieldQuery.Sql
