import FieldQuery.Proofs.Naming.Words
import Mathlib.Data.List.Chain

/-!
# Words that are read back

Words in small letters that are written with underscores can be read back: the underscores stay. Run
together with a capital each, they are told apart by the change from a letter to a digit, from a
digit to a letter, and from a small letter to a capital. So two numbers that stand side by side
become one, and so do two single letters, and these are the only words that do: `regroup` says what
is read back.
-/

namespace FieldQuery.Naming

open FieldQuery.Text

/-! ## Words that are read back -/

/-- A word of one letter. -/
def isLetter : List Char → Bool
  | [c] => c.isLower
  | _ => false

/-- Whether two words run together if they are written with a capital each: two numbers, or two
single letters. -/
def runTogether (word next : List Char) : Bool :=
  (word.all Char.isDigit && next.all Char.isDigit) || (isLetter word && isLetter next)

/-- The words that are read back after they have been run together with a capital each. -/
def regroup : List (List Char) → List (List Char)
  | [] => []
  | [word] => [word]
  | word :: next :: rest =>
    if runTogether word next then (regroup (next :: rest)).modifyHead (word ++ ·)
    else word :: regroup (next :: rest)

/-- A word is not cut inside a run of characters of one shape. -/
theorem splitFrom_run (shape : Shape) {run : List Char} {last : Char} (hgap : shape ≠ .gap)
    (hquiet : ∀ following, endsWord shape (shape :: following) = false)
    (hrun : ∀ c ∈ run, shapeOf [c] = shape) (hlast : shapeOf [last] = shape) (current : Word)
    (rest : List (List Char)) :
    splitFrom current (singles (run ++ [last]) ++ rest) =
      splitFrom (current ++ singles run) ([last] :: rest) := by
  -- induction on the run: none of its characters ends a word, as the one after it has the same shape
  induction run generalizing current with
  | nil => simp [singles]
  | cons c run ih =>
    obtain ⟨hc, hrun⟩ := List.forall_mem_cons.mp hrun
    have hends : endsWord (shapeOf [c])
        (((singles (run ++ [last]) ++ rest).take 2).map shapeOf) = false := by
      rw [hc]
      cases run with
      | nil => simpa [singles, hlast] using hquiet _
      | cons d run => simpa [hrun d List.mem_cons_self] using hquiet _
    rw [List.cons_append, singles_cons, List.cons_append,
      splitFrom_of_goes_on (by rwa [hc]) hends, ih hrun]
    simp [List.append_assoc]

/-- A word in small letters is read up to its last character. -/
theorem IsWord.exists_last {word : List Char} (h : IsWord word) :
    ∃ run last, word = run ++ [last] ∧ (shapeOf [last] = .small ∨ shapeOf [last] = .digit) ∧
      ∀ current rest, splitFrom current (singles word ++ rest) =
        splitFrom (current ++ singles run) ([last] :: rest) := by
  have hne : word ≠ [] := h.elim And.left And.left
  obtain ⟨run, last, rfl⟩ := List.eq_nil_or_concat word |>.resolve_left hne
  refine ⟨run, last, by simp, ?_⟩
  rw [List.concat_eq_append] at h ⊢
  -- a word is all small letters or all digits, and the two differ in the shape of a run alone
  rcases h with ⟨-, hall⟩ | ⟨-, hall⟩
  all_goals
    rw [List.forall_mem_append] at hall
    obtain ⟨hrun, hlast⟩ := hall
  · have hlast := shapeOf_of_isLower (hlast last (List.mem_singleton_self last))
    exact ⟨.inl hlast, splitFrom_run .small (by decide) (fun _ => rfl)
      (fun c hc => shapeOf_of_isLower (hrun c hc)) hlast⟩
  · have hlast := shapeOf_of_isDigit (hlast last (List.mem_singleton_self last))
    exact ⟨.inr hlast, splitFrom_run .digit (by decide) (fun _ => rfl)
      (fun c hc => shapeOf_of_isDigit (hrun c hc)) hlast⟩

/-- A word in small letters is read to its end, if nothing or an underscore follows. -/
theorem splitFrom_word {word : List Char} (h : IsWord word) (current : Word)
    {rest : List (List Char)} (hrest : ∀ cluster ∈ rest.head?, cluster = ['_']) :
    splitFrom current (singles word ++ rest) = splitFrom (current ++ singles word) rest := by
  obtain ⟨run, last, rfl, hshape, hwalk⟩ := h.exists_last
  -- what follows the word is nothing or an underscore, and neither ends it a second time
  have hends : endsWord (shapeOf [last]) ((rest.take 2).map shapeOf) = false := by
    cases rest with
    | nil => rcases hshape with hshape | hshape <;> simp [hshape, endsWord]
    | cons cluster rest =>
      obtain rfl := hrest cluster rfl
      rcases hshape with hshape | hshape <;> simp [hshape, shapeOf_underscore, endsWord]
  have hgap : shapeOf [last] ≠ .gap := by
    rcases hshape with hshape | hshape <;> simp [hshape]
  rw [hwalk, splitFrom_of_goes_on hgap hends]
  simp [singles]

private theorem lowered_singles {word : List Char} (h : IsWord word) :
    lowered (singles word) = word := by
  have hsame : ∀ c ∈ word, c.toLower = c := fun c hc => toLower_of_isWordChar (h.isWordChar hc)
  rw [lowered, flatten_singles]
  exact (List.map_congr_left hsame).trans (List.map_id _)

/-- The separator stands between the first part and the rest. -/
theorem joined_cons_cons (separator word next : List Char) (rest : List (List Char)) :
    joined separator (word :: next :: rest) =
      word ++ (separator ++ joined separator (next :: rest)) := by
  simp [joined]

private theorem mem_joined {separator : List Char} {parts : List (List Char)} {c : Char}
    (h : c ∈ joined separator parts) : c ∈ separator ∨ ∃ part ∈ parts, c ∈ part := by
  -- induction on the parts, as there is a separator only between two of them
  induction parts with
  | nil => cases h
  | cons part rest ih =>
    cases rest with
    | nil => exact .inr ⟨part, List.mem_singleton_self part, by simpa [joined] using h⟩
    | cons next rest =>
      rw [joined_cons_cons] at h
      rcases List.mem_append.mp h with h | h
      · exact .inr ⟨part, List.mem_cons_self, h⟩
      rcases List.mem_append.mp h with h | h
      · exact .inl h
      · refine (ih h).imp_right fun ⟨other, hother, h⟩ => ⟨other, List.mem_cons_of_mem _ hother, h⟩

/-- The characters of a word are those of plain identifiers. -/
theorem IsWord.isNameChar {word : List Char} (h : IsWord word) {c : Char} (hc : c ∈ word) :
    isNameChar c :=
  isNameChar_of_isWordChar (h.isWordChar hc)

/-- Words with underscores between them are a plain identifier. -/
theorem isNameChar_of_mem_joined {ws : List (List Char)} (h : ∀ w ∈ ws, IsWord w) {c : Char}
    (hc : c ∈ joined ['_'] ws) : Naming.isNameChar c := by
  rcases mem_joined hc with hc | ⟨word, hword, hc⟩
  · obtain rfl := List.mem_singleton.mp hc
    decide
  · exact (h word hword).isNameChar hc

/-- Words written with underscores between them are read back. -/
theorem smallWords_joined {ws : List (List Char)} (h : ∀ w ∈ ws, IsWord w) :
    smallWords (joined ['_'] ws) = ws := by
  rw [smallWords, words, clusters_plain fun c hc => isNameChar_of_mem_joined h hc]
  induction ws with
  | nil => rfl
  | cons word rest ih =>
    obtain ⟨hword, hrest⟩ := List.forall_mem_cons.mp h
    have hkeep : keep (singles word) = [singles word] := by
      have hne : word ≠ [] := hword.elim And.left And.left
      simp [keep, singles, hne]
    cases rest with
    | nil =>
      have hread : splitFrom [] (singles word ++ []) = _ :=
        splitFrom_word hword [] (by simp)
      rw [List.append_nil] at hread
      rw [show joined ['_'] [word] = word by simp [joined], hread]
      simp [splitFrom, hkeep, lowered_singles hword]
    | cons next rest =>
      -- The underscore behind the first word ends it and is left out.
      rw [joined_cons_cons, singles_append, splitFrom_word hword [] (by simp)]
      rw [singles_append, singles_cons, List.cons_append, splitFrom_of_gap shapeOf_underscore,
        List.nil_append, hkeep, List.singleton_append, List.map_cons, lowered_singles hword]
      exact congrArg _ (ih hrest)

/-- The shape in which a word ends that is written with a capital. -/
inductive EndsAs : List Char → Shape → Prop where
  | number {word : List Char} (h : IsNumber word) : EndsAs word .digit
  | letter {c : Char} (h : c.isLower) : EndsAs [c] .capital
  | letters {c d : Char} {rest : List Char} (h : IsLetters (c :: d :: rest)) :
      EndsAs (c :: d :: rest) .small

private theorem IsWord.exists_endsAs {word : List Char} (h : IsWord word) :
    ∃ shape, EndsAs word shape := by
  rcases h with h | h
  · match word, h with
    | [], h => exact absurd rfl h.1
    | [c], h => exact ⟨_, .letter (h.2 c (List.mem_singleton_self c))⟩
    | c :: d :: rest, h => exact ⟨_, .letters h⟩
  · exact ⟨_, .number h⟩

private theorem EndsAs.ne_gap {word : List Char} {shape : Shape} (h : EndsAs word shape) :
    shape ≠ .gap := by
  cases h <;> nofun

private theorem capital_of_isNumber {word : List Char} (h : IsNumber word) : capital word = word := by
  cases word with
  | nil => rfl
  | cons c rest =>
    have hdigit := h.2 c List.mem_cons_self
    have hsame := ((ordinary_of_isWordChar (isWordChar_of_isDigit hdigit)).digit hdigit).1
    simp [capital, hsame]

/-- A word with a capital is read up to its last character. -/
theorem EndsAs.exists_last {word : List Char} {shape : Shape} (h : EndsAs word shape) :
    ∃ run last, capital word = run ++ [last] ∧ shapeOf [last] = shape ∧
      ∀ current rest, splitFrom current (singles (capital word) ++ rest) =
        splitFrom (current ++ singles run) ([last] :: rest) := by
  cases h with
  | number h =>
    rw [capital_of_isNumber h]
    obtain ⟨run, last, rfl⟩ := (List.eq_nil_or_concat word).resolve_left h.1
    rw [List.concat_eq_append] at h ⊢
    obtain ⟨hrun, hlast⟩ := List.forall_mem_append.mp h.2
    have hlast := shapeOf_of_isDigit (hlast last (List.mem_singleton_self last))
    exact ⟨run, last, rfl, hlast, splitFrom_run .digit (by decide) (fun _ => rfl)
      (fun c hc => shapeOf_of_isDigit (hrun c hc)) hlast⟩
  | @letter c h =>
    exact ⟨[], c.toUpper, rfl, shapeOf_toUpper_of_isLower h, by simp [capital, singles]⟩
  | @letters c d rest h =>
    obtain ⟨hc, hrest⟩ := List.forall_mem_cons.mp h.2
    have hd := shapeOf_of_isLower (hrest d List.mem_cons_self)
    obtain ⟨run, last, heq⟩ :=
      (List.eq_nil_or_concat (d :: rest)).resolve_left (List.cons_ne_nil _ _)
    rw [List.concat_eq_append] at heq
    obtain ⟨hrun, hlast⟩ := List.forall_mem_append.mp (heq ▸ hrest)
    have hlast := shapeOf_of_isLower (hlast last (List.mem_singleton_self last))
    refine ⟨c.toUpper :: run, last, by simp [capital, heq], hlast, fun current tail => ?_⟩
    -- The capital is followed by a small letter, so the word goes on.
    have hupper := shapeOf_toUpper_of_isLower hc
    have hends : endsWord (shapeOf [c.toUpper])
        (((singles (d :: rest) ++ tail).take 2).map shapeOf) = false := by
      simp [hupper, hd, endsWord]
    rw [capital, singles_cons, List.cons_append, splitFrom_of_goes_on (by simp [hupper]) hends, heq,
      splitFrom_run .small (by decide) (fun _ => rfl) (fun c hc => shapeOf_of_isLower (hrun c hc)) hlast]
    simp [List.append_assoc]

/-- A word with a capital is read to its end; what stands behind it decides whether it ends there. -/
theorem EndsAs.splitFrom_capital {word : List Char} {shape : Shape} (h : EndsAs word shape)
    (current : Word) (rest : List (List Char)) :
    splitFrom current (singles (capital word) ++ rest) =
      if endsWord shape ((rest.take 2).map shapeOf) then
        (current ++ singles (capital word)) :: splitFrom [] rest
      else splitFrom (current ++ singles (capital word)) rest := by
  obtain ⟨run, last, hcapital, rfl, hwalk⟩ := h.exists_last
  have hsplit : current ++ singles (capital word) = current ++ singles run ++ [[last]] := by
    rw [hcapital, singles_append, List.append_assoc]
    rfl
  -- the last cluster of the word decides whether a word ends there
  rw [hwalk, hsplit]
  split
  · next hends => exact splitFrom_of_ends hends
  · next hends => exact splitFrom_of_goes_on h.ne_gap (Bool.eq_false_iff.mpr hends)

private theorem EndsAs.isLetter_eq {word : List Char} {shape : Shape} (h : EndsAs word shape) :
    isLetter word = (shape == .capital) := by
  cases h with
  | @number word h =>
    -- a single digit is no letter, and longer words have no case to ask for
    match word, h with
    | [], _ => rfl
    | [c], h =>
      have hdigit := h.2 c (List.mem_singleton_self c)
      exact Bool.eq_false_iff.mpr fun hlower => not_isDigit_of_isLower hlower hdigit
    | _ :: _ :: _, _ => rfl
  | letter h => exact h
  | letters h => rfl

private theorem EndsAs.all_isDigit_eq {word : List Char} {shape : Shape} (h : EndsAs word shape) :
    word.all Char.isDigit = (shape == .digit) := by
  have hletters : ∀ {c : Char} {rest : List Char}, c.isLower →
      (c :: rest).all Char.isDigit = false := by
    intro c rest hlower
    simp [not_isDigit_of_isLower hlower]
  cases h with
  | number h => exact List.all_eq_true.mpr h.2
  | letter h => exact hletters h
  | letters h => exact hletters (h.2 _ List.mem_cons_self)

/-- The shapes behind a word decide whether it ends there: only two numbers and two single letters
run together. -/
theorem EndsAs.endsWord_capital {word next : List Char} {shape shape' : Shape}
    (h : EndsAs word shape) (hnext : EndsAs next shape') {tail : List Char}
    (htail : ∀ c ∈ tail.head?, shapeOf [c] ≠ .small) :
    endsWord shape (((singles (capital next ++ tail)).take 2).map shapeOf) =
      !runTogether word next := by
  simp only [runTogether, h.all_isDigit_eq, hnext.all_isDigit_eq, h.isLetter_eq,
    hnext.isLetter_eq]
  have hshape : shape = .digit ∨ shape = .capital ∨ shape = .small := by
    cases h <;> simp
  cases hnext with
  | number hnext =>
    rw [capital_of_isNumber hnext]
    obtain ⟨c, rest, rfl⟩ := List.exists_cons_of_ne_nil hnext.1
    have hc := shapeOf_of_isDigit (hnext.2 c List.mem_cons_self)
    rcases hshape with rfl | rfl | rfl <;> simp [hc, endsWord]
  | letter hnext =>
    -- Two capitals run on unless a small letter follows, and none does.
    have hc := shapeOf_toUpper_of_isLower hnext
    cases tail with
    | nil => rcases hshape with rfl | rfl | rfl <;> simp [capital, singles, hc, endsWord]
    | cons d tail =>
      have hd := htail d rfl
      rcases hshape with rfl | rfl | rfl
      · simp [capital, hc, endsWord]
      · cases hshape : shapeOf [d] <;> simp_all [capital, endsWord]
      · simp [capital, hc, endsWord]
  | letters hnext =>
    -- A capital before a small letter starts a word, whatever stands before it.
    obtain ⟨hc, hrest⟩ := List.forall_mem_cons.mp hnext.2
    have hc := shapeOf_toUpper_of_isLower hc
    have hd := shapeOf_of_isLower (hrest _ List.mem_cons_self)
    rcases hshape with rfl | rfl | rfl <;> simp [capital, hc, hd, endsWord]

private theorem EndsAs.head_capital {word : List Char} {shape : Shape} (h : EndsAs word shape)
    (tail : List Char) : ∀ c ∈ (capital word ++ tail).head?, shapeOf [c] ≠ .small := by
  cases h with
  | number h =>
    rw [capital_of_isNumber h]
    obtain ⟨c, rest, rfl⟩ := List.exists_cons_of_ne_nil h.1
    simp [shapeOf_of_isDigit (h.2 c List.mem_cons_self)]
  | letter h => simp [capital, shapeOf_toUpper_of_isLower h]
  | letters h => simp [capital, shapeOf_toUpper_of_isLower (h.2 _ List.mem_cons_self)]

private theorem IsWord.isNameChar_of_mem_capital {word : List Char} (h : IsWord word) {c : Char}
    (hc : c ∈ capital word) : Naming.isNameChar c := by
  cases word with
  | nil => cases hc
  | cons d rest =>
    rcases List.mem_cons.mp hc with rfl | hc
    · exact (ordinary (h.isNameChar List.mem_cons_self)).isNameChar_toUpper
    · exact h.isNameChar (List.mem_cons_of_mem _ hc)

private theorem lowered_singles_capital {word : List Char} (h : IsWord word) :
    lowered (singles (capital word)) = word := by
  have hlowered := lowered_singles h
  cases word with
  | nil => rfl
  | cons c rest =>
    have hc := (ordinary (h.isNameChar List.mem_cons_self)).toLower_toUpper
    simpa [lowered, capital, hc] using hlowered

private theorem regroup_cons_cons (word next : List Char) (rest : List (List Char)) :
    regroup (word :: next :: rest) =
      if runTogether word next then (regroup (next :: rest)).modifyHead (word ++ ·)
      else word :: regroup (next :: rest) := rfl

/-- Words run together with a capital each are regrouped when they are read back. -/
theorem splitFrom_flatMap_capital {word : List Char} {rest : List (List Char)}
    (h : ∀ w ∈ word :: rest, IsWord w) (current : Word) :
    (splitFrom current (singles ((word :: rest).flatMap capital))).map lowered =
      (regroup (word :: rest)).modifyHead (lowered current ++ ·) := by
  -- On the words, with what has been read of the current one left open: it is what runs together.
  induction rest generalizing word current with
  | nil =>
    obtain ⟨hword, -⟩ := List.forall_mem_cons.mp h
    obtain ⟨shape, hends⟩ := hword.exists_endsAs
    have hlast : endsWord shape [] = false := by cases shape <;> rfl
    have hread := hends.splitFrom_capital current []
    rw [List.take_nil, List.map_nil, hlast, List.append_nil] at hread
    have hne : singles (capital word) ≠ [] := by
      obtain ⟨run, last, hcapital, -⟩ := hends.exists_last
      simp [hcapital, singles]
    simp [regroup, hread, splitFrom, keep, lowered_append, lowered_singles_capital hword, hne]
  | cons next rest ih =>
    obtain ⟨hword, hrest⟩ := List.forall_mem_cons.mp h
    obtain ⟨shape, hends⟩ := hword.exists_endsAs
    obtain ⟨shape', hnext⟩ := (hrest next List.mem_cons_self).exists_endsAs
    -- What follows starts with a capital or a digit.
    have htail : ∀ c ∈ (rest.flatMap capital).head?, shapeOf [c] ≠ .small := by
      cases rest with
      | nil => simp
      | cons other rest =>
        obtain ⟨shape, hother⟩ := (hrest other (by simp)).exists_endsAs
        exact hother.head_capital _
    rw [List.flatMap_cons, singles_append, hends.splitFrom_capital, List.flatMap_cons,
      hends.endsWord_capital hnext htail, ← List.flatMap_cons, regroup_cons_cons]
    cases runTogether word next with
    | true =>
      simp only [Bool.not_true, Bool.false_eq_true, if_false, if_true]
      rw [ih hrest, lowered_append, lowered_singles_capital hword, List.modifyHead_modifyHead]
      simp [Function.comp_def]
    | false =>
      simp only [Bool.not_false, Bool.false_eq_true, if_false, if_true]
      rw [List.map_cons, ih hrest, lowered_append, lowered_singles_capital hword]
      exact congrArg _ (congrFun List.modifyHead_id _)

/-- Words that are run together are a plain identifier. -/
theorem isNameChar_of_mem_flatMap_capital {ws : List (List Char)} (h : ∀ w ∈ ws, IsWord w)
    {c : Char} (hc : c ∈ ws.flatMap capital) : isNameChar c := by
  obtain ⟨word, hword, hc⟩ := List.mem_flatMap.mp hc
  exact (h word hword).isNameChar_of_mem_capital hc

/-- Words run together with a capital each are read back as `regroup` says. -/
theorem smallWords_flatMap_capital {ws : List (List Char)} (h : ∀ w ∈ ws, IsWord w) :
    smallWords (ws.flatMap capital) = regroup ws := by
  rw [smallWords, words, clusters_plain fun c hc => isNameChar_of_mem_flatMap_capital h hc]
  cases ws with
  | nil => rfl
  | cons word rest =>
    rw [splitFrom_flatMap_capital h]
    exact congrFun List.modifyHead_id _

/-! ## Words that stay apart -/

/-- No two words that stand side by side run together. -/
def Apart (ws : List (List Char)) : Prop :=
  ws.IsChain fun word next => runTogether word next = false

instance (ws : List (List Char)) : Decidable (Apart ws) :=
  inferInstanceAs (Decidable (List.IsChain _ _))

/-- Words that stay apart are read back as they are. -/
theorem regroup_eq_of_apart {ws : List (List Char)} (h : Apart ws) : regroup ws = ws := by
  -- induction on the words: no two neighbours run together
  induction ws with
  | nil => rfl
  | cons word rest ih =>
    cases rest with
    | nil => rfl
    | cons next rest =>
      obtain ⟨hfirst, hrest⟩ := List.isChain_cons_cons.mp h
      simp [regroup_cons_cons, hfirst, ih hrest]

private theorem length_regroup_le (ws : List (List Char)) : (regroup ws).length ≤ ws.length := by
  -- induction on the words: two of them are joined or kept apart
  induction ws with
  | nil => exact Nat.le_refl _
  | cons word rest ih =>
    cases rest with
    | nil => exact Nat.le_refl _
    | cons next rest =>
      rw [regroup_cons_cons]
      split
      · rw [List.length_modifyHead]
        exact Nat.le_succ_of_le ih
      · exact Nat.succ_le_succ ih

/-- Words that run together are fewer when they are read back. -/
theorem apart_of_length_regroup {ws : List (List Char)} (h : (regroup ws).length = ws.length) :
    Apart ws := by
  -- induction on the words: a join of the first two would leave too few for the length
  induction ws with
  | nil => exact .nil
  | cons word rest ih =>
    cases rest with
    | nil => exact .singleton _
    | cons next rest =>
      rw [regroup_cons_cons] at h
      cases htogether : runTogether word next with
      | true =>
        have hle := length_regroup_le (next :: rest)
        simp only [htogether, if_true, List.length_modifyHead, List.length_cons] at h hle
        omega
      | false =>
        simp only [htogether, Bool.false_eq_true, if_false] at h
        exact List.isChain_cons_cons.mpr ⟨htogether, ih (Nat.succ_inj.mp h)⟩

/-- Words are read back as they are exactly if they stay apart. -/
theorem regroup_eq_iff_apart {ws : List (List Char)} : regroup ws = ws ↔ Apart ws :=
  ⟨fun h => apart_of_length_regroup (congrArg List.length h), regroup_eq_of_apart⟩

end FieldQuery.Naming
