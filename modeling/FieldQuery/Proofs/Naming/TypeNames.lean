import FieldQuery.Proofs.Naming.Inflection
import FieldQuery.Proofs.Naming.ReadBack

/-!
# Type names that are read back

The canonical type name is meant to lead to the same name again, since entities are looked up by it.
A part of a path goes into the type name as its words with a capital each, so it is found again
if it has words at all and no two of them run together; and the entity, which stands there in the
singular, is found again if that is not the irregular plural of yet another word, as `people` is for
`peoples`. Main statement: these are the names that are read back, and there are no others.
-/

namespace FieldQuery.Naming

open FieldQuery.Text

/-! ## The parts of a path -/

private theorem mem_of_mem_splitOnP {α : Type} {p : α → Bool} {text piece : List α} {c : α}
    (hpiece : piece ∈ text.splitOnP p) (hc : c ∈ piece) : c ∈ text ∧ p c = false := by
  induction text generalizing piece with
  | nil =>
    obtain rfl : piece = [] := by simpa using hpiece
    cases hc
  | cons d rest ih =>
    rw [List.splitOnP_cons_eq_if_modifyHead] at hpiece
    cases hd : p d with
    | true =>
      -- A separator starts a new piece.
      rw [if_pos hd] at hpiece
      rcases List.mem_cons.mp hpiece with rfl | hpiece
      · cases hc
      · exact (ih hpiece hc).imp_left (List.mem_cons_of_mem d)
    | false =>
      -- Any other character is put in front of the first piece of the rest.
      rw [if_neg (by simp [hd])] at hpiece
      obtain ⟨first, others, hsplit⟩ :=
        List.exists_cons_of_ne_nil (List.splitOnP_ne_nil p rest)
      rw [hsplit] at hpiece ih
      rcases List.mem_cons.mp hpiece with rfl | hpiece
      · rcases List.mem_cons.mp hc with rfl | hc
        · exact ⟨List.mem_cons_self, hd⟩
        · exact (ih List.mem_cons_self hc).imp_left (List.mem_cons_of_mem d)
      · exact (ih (List.mem_cons_of_mem _ hpiece) hc).imp_left (List.mem_cons_of_mem d)

private theorem mem_of_mem_trim {text : List Char} {c : Char} (h : c ∈ trim text) : c ∈ text := by
  have hstart : c ∈ trimStart text :=
    List.mem_reverse.mp ((List.dropWhile_sublist isBlank).mem (List.mem_reverse.mp h))
  exact (List.dropWhile_sublist isBlank).mem hstart

private theorem trim_eq_self {text : List Char} (h : ∀ c ∈ text, isBlank c = false) :
    trim text = text := by
  have hkeep : ∀ cs : List Char, (∀ c ∈ cs, isBlank c = false) → cs.dropWhile isBlank = cs := by
    intro cs hcs
    cases cs with
    | nil => rfl
    | cons c rest => simp [hcs c List.mem_cons_self]
  rw [trim, trimStart, hkeep text h, trimEnd, hkeep text.reverse (by simpa using h),
    List.reverse_reverse]

namespace EntityName

/-- A character of a plain path. -/
def isPathChar (c : Char) : Bool :=
  isNameChar c || c == '/' || c == ':'

private theorem isNameChar_of_mem_segments {identifier segment : List Char}
    (hplain : ∀ c ∈ identifier, isPathChar c) (h : segment ∈ segments identifier) :
    ∀ c ∈ segment, isNameChar c := by
  intro c hc
  obtain ⟨piece, hpiece, rfl⟩ := List.mem_map.mp (List.mem_filter.mp h).1
  obtain ⟨hmem, hseparator⟩ := mem_of_mem_splitOnP hpiece (mem_of_mem_trim hc)
  simp only [Bool.or_eq_false_iff, decide_eq_false_iff_not] at hseparator
  simpa [isPathChar, hseparator] using hplain c hmem

/-- The parts of a type name are read back, apart from empty ones. -/
theorem segments_joined {parts : List (List Char)} (h : ∀ part ∈ parts, ∀ c ∈ part, c.isAlphanum) :
    segments (joined separator parts) = parts.filter fun part => !part.isEmpty := by
  have hplain : ∀ {c : Char}, c.isAlphanum →
      (decide (c = '/') || decide (c = ':')) = false ∧ isBlank c = false := by
    intro c hc
    obtain ⟨hslash, hcolon, hblank⟩ := (ordinary (by simp [isNameChar, hc])).letterOrDigit hc
    simp [hslash, hcolon, hblank]
  have htrim : ∀ part ∈ parts, trim part = part := fun part hpart =>
    trim_eq_self fun c hc => (hplain (h part hpart c hc)).2
  unfold segments
  induction parts with
  | nil => rfl
  | cons part rest ih =>
    obtain ⟨hpart, hrest⟩ := List.forall_mem_cons.mp h
    obtain ⟨hself, htrims⟩ := List.forall_mem_cons.mp htrim
    have hsplit : ∀ c ∈ part, (decide (c = '/') || decide (c = ':')) = false :=
      fun c hc => (hplain (hpart c hc)).1
    cases rest with
    | nil => simp [joined, List.splitOnP_eq_singleton hsplit, hself]
    | cons next rest =>
      -- Between the two colons of a separator there is an empty part.
      have hread : joined separator (part :: next :: rest) =
          part ++ ':' :: ([] ++ ':' :: joined separator (next :: rest)) :=
        joined_cons_cons separator part next rest
      rw [hread, List.splitOnP_append_cons_of_forall_mem hsplit ':' (by decide),
        List.splitOnP_append_cons_of_forall_mem (List.forall_mem_nil _) ':' (by decide),
        List.map_cons, List.map_cons, hself, ← List.singleton_append, List.filter_append]
      show _ ++ List.filter _ (List.map trim _) = _
      rw [ih hrest htrims, ← List.filter_append, List.singleton_append]

/-- A name is made of the parts of a path, the last of which is the entity. -/
theorem parse?_eq_some_iff {identifier : String} {name : EntityName} :
    parse? identifier = some name ↔
      ∃ parents last, segments identifier.toList = parents ++ [last] ∧
        name = ofSegments parents last := by
  unfold parse?
  -- the last segment is taken from the reversed list
  cases hsegments : (segments identifier.toList).reverse with
  | nil =>
    have hnil := List.reverse_eq_nil_iff.mp hsegments
    simp [hnil]
  | cons last parents =>
    have heq : segments identifier.toList = parents.reverse ++ [last] := by
      rw [← List.reverse_reverse (segments _), hsegments, List.reverse_cons]
    rw [heq]
    constructor
    · intro h
      exact ⟨parents.reverse, last, rfl, (Option.some.inj h).symm⟩
    · rintro ⟨parents', last', happend, rfl⟩
      obtain ⟨rfl, hlast⟩ := List.append_inj' happend rfl
      rw [List.singleton_inj.mp hlast]

/-- A name is determined by the words of its parts, the last one in the singular. -/
theorem ofSegments_eq_iff {parents parents' : List (List Char)} {last last' : List Char} :
    ofSegments parents last = ofSegments parents' last' ↔
      parents.map underscored = parents'.map underscored ∧
        singularized (underscored last) = singularized (underscored last') := by
  constructor
  · -- the names agree in their spaces and their singular, and all else is made from these
    intro h
    refine ⟨?_, String.ofList_injective (congrArg EntityName.singular h)⟩
    have hspaces := congrArg EntityName.namespaces h
    exact List.map_injective_iff.mpr (fun _ _ => String.ofList_injective) hspaces
  · rintro ⟨hspaces, hsingular⟩
    unfold ofSegments
    rw [hspaces, hsingular]

end EntityName

/-! ## The singular of several words -/

private theorem joined_concat (separator : List Char) (init : List (List Char)) (last : List Char) :
    joined separator (init ++ [last]) = init.flatMap (· ++ separator) ++ last := by
  -- induction on the parts before the last, each followed by a separator
  induction init with
  | nil => simp [joined]
  | cons word rest ih =>
    have hne : rest ++ [last] ≠ [] := by simp
    obtain ⟨next, tail, heq⟩ := List.exists_cons_of_ne_nil hne
    rw [heq] at ih
    rw [List.cons_append, heq, joined_cons_cons, ih]
    simp [List.append_assoc]

private theorem isHead_flatMap (init : List (List Char)) : IsHead (init.flatMap (· ++ ['_'])) := by
  rcases List.eq_nil_or_concat init with rfl | ⟨rest, word, rfl⟩
  · exact .inl rfl
  · refine .inr ?_
    rw [List.concat_eq_append, List.flatMap_append]
    simp

/-- Only the last word is put in the singular. -/
theorem singularized_joined_concat {init : List (List Char)} {last : List Char}
    (h : '_' ∉ last) :
    singularized (joined ['_'] (init ++ [last])) = joined ['_'] (init ++ [singularized last]) := by
  rw [joined_concat, singularized_append (isHead_flatMap init) h, joined_concat]

private theorem lastWord_joined_concat {init : List (List Char)} {last : List Char} (h : '_' ∉ last) :
    (lastWord (joined ['_'] (init ++ [last]))).2 = last := by
  rw [joined_concat, lastWord_append (isHead_flatMap init) h]

/-- There is no underscore in a word. -/
theorem IsWord.not_mem {word : List Char} (h : IsWord word) : '_' ∉ word := fun hmem =>
  absurd (h.isWordChar hmem) (by decide)

/-- A word is in small letters. -/
theorem IsWord.isSmall {word : List Char} (h : IsWord word) : IsSmall word := fun _ hc =>
  toLower_of_isWordChar (h.isWordChar hc)

private theorem regularSingular_ne_nil {word : List Char} (hsmall : IsSmall word) (hne : word ≠ []) :
    regularSingular word ≠ [] := by
  by_cases hlast : word.getLast? = some 's'
  case neg => rwa [regularSingular_of_getLast? hsmall hlast]
  obtain ⟨stem, rfl⟩ := List.getLast?_eq_some_iff.mp hlast
  by_cases hstem : stem = []
  · subst hstem
    decide
  rw [regularSingular_concat_s (isSmall_append.mp hsmall).1 hstem]
  split
  · simp
  split
  · next hes =>
    obtain ⟨ending, hmem, start, rfl⟩ := endsWithAny_iff.mp hes
    have hlong : ∀ e ∈ ["sse", "she", "che", "xe", "zze", "use"], 1 < e.toList.length := by decide
    intro hnil
    -- One letter less than an ending of two or more is not nothing.
    have hlength := congrArg List.length hnil
    have := hlong ending hmem
    simp only [cut, List.length_take, List.length_append, List.length_nil] at hlength
    omega
  split
  · simp
  · exact hstem

/-- The singular of a word of letters is one of letters. -/
theorem isLetters_singularized {word : List Char} (h : IsLetters word) :
    IsLetters (singularized word) := by
  have hword : IsWord word := .inl h
  rw [singularized_word hword.isSmall hword.not_mem]
  split
  · exact h
  -- irregular words are letters by inspection; the regular rule adds no character but `y`
  cases hirregular : irregularSingular? word with
  | some singular =>
    have hall : ∀ p ∈ irregular, IsLetters p.1.toList := by decide
    obtain ⟨p, hp, -, rfl⟩ := mem_of_irregularSingular? hirregular
    exact hall p hp
  | none =>
    rw [Option.getD_none]
    split
    · exact h
    · refine ⟨regularSingular_ne_nil hword.isSmall h.1, fun c hc => ?_⟩
      rcases mem_of_mem_regularSingular hc with hc | rfl
      · exact h.2 c hc
      · decide

private theorem singularized_of_isNumber {word : List Char} (h : IsNumber word) :
    singularized word = word := by
  have hword : IsWord word := .inr h
  -- no irregular plural is a number, and a number does not end in `s`
  have hirregular : irregularSingular? word = none := by
    refine Option.eq_none_iff_forall_ne_some.mpr fun singular hsome => ?_
    obtain ⟨p, hp, rfl, -⟩ := mem_of_irregularSingular? hsome
    have hall : ∀ p ∈ irregular, ¬ IsNumber p.2.toList := by decide
    exact hall p hp h
  have hlast : word.getLast? ≠ some 's' := fun hs =>
    absurd (h.2 's' (List.mem_of_getLast? hs)) (by decide)
  rw [singularized_word hword.isSmall hword.not_mem, hirregular,
    regularSingular_of_getLast? hword.isSmall hlast]
  simp

private theorem isWord_singularized {word : List Char} (h : IsWord word) :
    IsWord (singularized word) := by
  rcases h with h | h
  · exact .inl (isLetters_singularized h)
  · rw [singularized_of_isNumber h]
    exact .inr h

/-- The words of a singular: those of the identifier, the last one in the singular. -/
theorem exists_singular {ws : List (List Char)} (h : ∀ w ∈ ws, IsWord w) :
    ∃ vs, (∀ v ∈ vs, IsWord v) ∧ vs.length = ws.length ∧
      singularized (joined ['_'] ws) = joined ['_'] vs ∧
      ∀ v ∈ vs.getLast?, ∃ w, IsWord w ∧ v = singularized w := by
  rcases List.eq_nil_or_concat ws with rfl | ⟨init, last, rfl⟩
  · exact ⟨[], nofun, rfl, rfl, nofun⟩
  rw [List.concat_eq_append] at h ⊢
  obtain ⟨hinit, hlast⟩ := List.forall_mem_append.mp h
  have hlast := hlast last (List.mem_singleton_self last)
  -- only the last word is put into the singular
  refine ⟨init ++ [singularized last], ?_, by simp, singularized_joined_concat hlast.not_mem, ?_⟩
  · refine List.forall_mem_append.mpr ⟨hinit, fun v hv => ?_⟩
    rw [List.mem_singleton.mp hv]
    exact isWord_singularized hlast
  · simp only [List.getLast?_append, List.getLast?_singleton, Option.some_or, Option.mem_def,
      Option.some.injEq, forall_eq']
    exact ⟨last, hlast, rfl⟩

private theorem joined_injective {ws vs : List (List Char)} (hws : ∀ w ∈ ws, IsWord w)
    (hvs : ∀ v ∈ vs, IsWord v) (h : joined ['_'] ws = joined ['_'] vs) : ws = vs := by
  rw [← smallWords_joined hws, h, smallWords_joined hvs]

private theorem isWord_of_mem_regroup {ws : List (List Char)} (h : ∀ w ∈ ws, IsWord w) {w : List Char}
    (hw : w ∈ regroup ws) : IsWord w := by
  rw [← smallWords_flatMap_capital h] at hw
  exact isWord_of_mem_smallWords (fun _ hc => isNameChar_of_mem_flatMap_capital h hc) hw

private theorem joined_regroup_eq_iff {ws : List (List Char)} (h : ∀ w ∈ ws, IsWord w) :
    joined ['_'] (regroup ws) = joined ['_'] ws ↔ Apart ws := by
  rw [← regroup_eq_iff_apart]
  constructor
  · intro heq
    exact joined_injective (fun _ => isWord_of_mem_regroup h) h heq
  · intro heq
    rw [heq]

/-- A singular is read back from its type name if its words stay apart and it is not the irregular
plural of another word. -/
theorem singularized_regroup_eq_iff {vs : List (List Char)} (hvs : ∀ v ∈ vs, IsWord v)
    (hlast : ∀ v ∈ vs.getLast?, ∃ w, IsWord w ∧ v = singularized w) (hne : vs ≠ []) :
    singularized (joined ['_'] (regroup vs)) = joined ['_'] vs ↔
      Apart vs ∧ irregularSingular? (lastWord (joined ['_'] vs)).2 = none := by
  -- If the words stay apart, only the singular of the last one is at stake.
  have hsettled : Apart vs →
      (singularized (joined ['_'] (regroup vs)) = joined ['_'] vs ↔
        irregularSingular? (lastWord (joined ['_'] vs)).2 = none) := by
    intro hapart
    rw [regroup_eq_of_apart hapart]
    obtain ⟨init, last, rfl⟩ := (List.eq_nil_or_concat vs).resolve_left hne
    rw [List.concat_eq_append] at hvs hlast ⊢
    obtain ⟨word, hword, hsingular⟩ := hlast last (by simp)
    have hmem : last ∈ init ++ [last] := by simp
    have hnot := (hvs last hmem).not_mem
    have hiff := singularized_singularized hword.isSmall hword.not_mem
    rw [← hsingular] at hiff
    rw [singularized_joined_concat hnot, lastWord_joined_concat hnot, ← hiff, joined_concat,
      joined_concat, List.append_cancel_left_eq]
  constructor
  · intro heq
    have hregroup := fun w => isWord_of_mem_regroup hvs (w := w)
    obtain ⟨ws, hws, hlength, hsingular, -⟩ := exists_singular hregroup
    -- The singular has as many words as are read back, so none have run together.
    have hsame : ws = vs := joined_injective hws hvs (hsingular.symm.trans heq)
    have hapart : Apart vs := apart_of_length_regroup (by rw [← hlength, hsame])
    exact ⟨hapart, (hsettled hapart).mp heq⟩
  · rintro ⟨hapart, hirregular⟩
    exact (hsettled hapart).mpr hirregular

/-! ## Names that are read back from their type -/

namespace EntityName

/-- Whether a part of a path is read back from its form in a type name: it has words, and none of
them run together. -/
def Separable (part : String) : Prop :=
  part ≠ "" ∧ Apart (part.toList.splitOn '_')

instance (part : String) : Decidable (Separable part) :=
  inferInstanceAs (Decidable (_ ∧ _))

/-- A part of a path is separable exactly if it has words and they stay apart. -/
theorem separable_joined {ws : List (List Char)} (h : ∀ w ∈ ws, IsWord w) :
    Separable (String.ofList (joined ['_'] ws)) ↔ ws ≠ [] ∧ Apart ws := by
  unfold Separable
  by_cases hne : ws = []
  · subst hne
    simp [joined]
  -- the underscores cut the joined words apart again, as no word has one
  have hsplit : (joined ['_'] ws).splitOn '_' = ws :=
    List.splitOn_intercalate '_' (fun w hw => (h w hw).not_mem) hne
  have hnonempty : String.ofList (joined ['_'] ws) ≠ "" := by
    intro hempty
    have hnil : joined ['_'] ws = [] := by simpa using congrArg String.toList hempty
    have hwords := smallWords_joined h
    rw [hnil] at hwords
    exact hne hwords.symm
  simp [hsplit, hne, hnonempty]

/-- The words of which a name is made: those of each part before the entity, and those of the
singular. -/
structure Spelled (name : EntityName) (spaces : List (List (List Char)))
    (singular : List (List Char)) : Prop where
  words : ∀ ws ∈ spaces ++ [singular], ∀ w ∈ ws, IsWord w
  last_singular : ∀ v ∈ singular.getLast?, ∃ w, IsWord w ∧ v = singularized w
  namespaces_eq : name.namespaces = spaces.map fun ws => String.ofList (joined ['_'] ws)
  singular_eq : name.singular = String.ofList (joined ['_'] singular)
  typeName_eq : name.typeName =
    String.ofList (joined separator ((spaces ++ [singular]).map fun ws => ws.flatMap capital))
  eq_ofSegments_iff : ∀ parents last, name = ofSegments parents last ↔
    spaces.map (joined ['_']) = parents.map underscored ∧
      joined ['_'] singular = singularized (underscored last)

/-- The form in a type name is that of the words, each with a capital. -/
theorem camelized_joined {ws : List (List Char)} (h : ∀ w ∈ ws, IsWord w) :
    camelized (joined ['_'] ws) = ws.flatMap capital := by
  rw [camelized_plain fun c hc => isNameChar_of_mem_joined h hc, smallWords_joined h]

private theorem underscored_flatMap_capital {ws : List (List Char)} (h : ∀ w ∈ ws, IsWord w) :
    underscored (ws.flatMap capital) = joined ['_'] (regroup ws) := by
  rw [underscored_plain fun c hc => isNameChar_of_mem_flatMap_capital h hc,
    smallWords_flatMap_capital h]

private theorem exists_spelled {identifier : String} {name : EntityName}
    (hplain : ∀ c ∈ identifier.toList, isPathChar c) (hname : parse? identifier = some name) :
    ∃ spaces singular, Spelled name spaces singular := by
  obtain ⟨parents, last, hsegments, rfl⟩ := parse?_eq_some_iff.mp hname
  -- the segments are cut into words, and the last one's last word into the singular
  have hsegment : ∀ segment ∈ parents ++ [last], ∀ c ∈ segment, isNameChar c :=
    fun segment h => isNameChar_of_mem_segments hplain (hsegments ▸ h)
  obtain ⟨hparents, hlast⟩ := List.forall_mem_append.mp hsegment
  have hlast := hlast last (List.mem_singleton_self last)
  obtain ⟨vs, hvs, -, hsingular, hlastWord⟩ :=
    exists_singular fun w hw => isWord_of_mem_smallWords hlast hw
  rw [← underscored_plain hlast] at hsingular
  have hspaces : (parents.map smallWords).map (joined ['_']) = parents.map underscored := by
    rw [List.map_map]
    exact List.map_congr_left fun parent h => (underscored_plain (hparents parent h)).symm
  have hwords : ∀ ws ∈ parents.map smallWords ++ [vs], ∀ w ∈ ws, IsWord w := by
    intro ws hws w hw
    rcases List.mem_append.mp hws with hws | hws
    · obtain ⟨parent, hparent, rfl⟩ := List.mem_map.mp hws
      exact isWord_of_mem_smallWords (hparents parent hparent) hw
    · rw [List.mem_singleton.mp hws] at hw
      exact hvs w hw
  -- spaces, singular, type name and the comparison with another name, in the order of the fields
  refine ⟨parents.map smallWords, vs, hwords, hlastWord, ?_, ?_, ?_, fun parents' last' => ?_⟩
  · show (parents.map underscored).map String.ofList = _
    rw [← hspaces, List.map_map]
    rfl
  · show String.ofList (singularized (underscored last)) = _
    rw [hsingular]
  · have hcamelized : (parents.map underscored ++ [singularized (underscored last)]).map camelized =
        (parents.map smallWords ++ [vs]).map fun ws => ws.flatMap capital := by
      rw [← hspaces, hsingular]
      show ((parents.map smallWords).map (joined ['_']) ++ [vs].map (joined ['_'])).map _ = _
      rw [← List.map_append, List.map_map]
      exact List.map_congr_left fun ws hws => camelized_joined (hwords ws hws)
    show String.ofList (joined separator _) = _
    rw [hcamelized]
  · rw [ofSegments_eq_iff, hspaces, hsingular]

private theorem isAlphanum_of_mem_flatMap_capital {ws : List (List Char)} (h : ∀ w ∈ ws, IsWord w)
    {c : Char} (hc : c ∈ ws.flatMap capital) : c.isAlphanum := by
  obtain ⟨word, hword, hc⟩ := List.mem_flatMap.mp hc
  -- capitals and small letters, like digits, are alphanumeric
  have hupper : ∀ {d : Char}, isWordChar d → d.isAlphanum ∧ d.toUpper.isAlphanum := fun hd =>
    ((ordinary_of_isWordChar hd).wordChar hd).2
  cases word with
  | nil => cases hc
  | cons d rest =>
    rcases List.mem_cons.mp hc with rfl | hc
    · exact (hupper ((h _ hword).isWordChar List.mem_cons_self)).2
    · exact (hupper ((h _ hword).isWordChar (List.mem_cons_of_mem _ hc))).1

private theorem isEmpty_flatMap_capital {ws : List (List Char)} (h : ∀ w ∈ ws, IsWord w) :
    (ws.flatMap capital).isEmpty = ws.isEmpty := by
  cases ws with
  | nil => rfl
  | cons word rest =>
    cases word with
    | nil => exact absurd rfl ((h [] List.mem_cons_self).elim And.left And.left)
    | cons c word => rfl

/-- What the type name of a name is cut into: the forms of the parts that have words. -/
theorem Spelled.segments_typeName {name : EntityName} {spaces : List (List (List Char))}
    {singular : List (List Char)} (h : Spelled name spaces singular) :
    segments name.typeName.toList =
      ((spaces ++ [singular]).map fun ws => ws.flatMap capital).filter fun part => !part.isEmpty := by
  rw [h.typeName_eq, String.toList_ofList]
  refine segments_joined fun part hpart c hc => ?_
  obtain ⟨ws, hws, rfl⟩ := List.mem_map.mp hpart
  exact isAlphanum_of_mem_flatMap_capital (h.words ws hws) hc

/-- A part without words is lost in the type name, so that the name is not read back. -/
theorem Spelled.parse?_typeName_of_nil {name : EntityName} {spaces : List (List (List Char))}
    {singular : List (List Char)} (h : Spelled name spaces singular)
    (hnil : [] ∈ spaces ++ [singular]) : parse? name.typeName ≠ some name := by
  intro hread
  obtain ⟨parents, last, hsegments, hname⟩ := parse?_eq_some_iff.mp hread
  obtain ⟨hspaces, -⟩ := (h.eq_ofSegments_iff parents last).mp hname
  have hlength := congrArg List.length hspaces
  rw [h.segments_typeName] at hsegments
  have hkept := congrArg List.length hsegments
  -- As many parts are read back as the name has, so none of them was empty.
  have hall : (((spaces ++ [singular]).map fun ws => ws.flatMap capital).filter
      fun part => !part.isEmpty).length =
        ((spaces ++ [singular]).map fun ws => ws.flatMap capital).length := by
    rw [hkept]
    simp only [List.length_map, List.length_append, List.length_singleton] at hlength ⊢
    omega
  have hlost := List.length_filter_eq_length_iff.mp hall _ (List.mem_map_of_mem hnil)
  cases hlost

/-- If every part has words, the name is read back if no words of a part run together and the
singular stays a singular. -/
theorem Spelled.parse?_typeName_iff {name : EntityName} {spaces : List (List (List Char))}
    {singular : List (List Char)} (h : Spelled name spaces singular)
    (hne : ∀ ws ∈ spaces ++ [singular], ws ≠ []) :
    parse? name.typeName = some name ↔
      (∀ ws ∈ spaces ++ [singular], Apart ws) ∧
        irregularSingular? (lastWord (joined ['_'] singular)).2 = none := by
  obtain ⟨hspaces, hsingular⟩ := List.forall_mem_append.mp h.words
  have hsingular := hsingular singular (List.mem_singleton_self singular)
  have hnonempty := hne singular (by simp)
  -- no word list is empty, so no segment of the type name is dropped
  have hsegments : segments name.typeName.toList =
      spaces.map (fun ws => ws.flatMap capital) ++ [singular.flatMap capital] := by
    rw [h.segments_typeName, List.filter_eq_self.mpr, List.map_append, List.map_singleton]
    intro part hpart
    obtain ⟨ws, hws, rfl⟩ := List.mem_map.mp hpart
    simpa [isEmpty_flatMap_capital (h.words ws hws)] using hne ws hws
  have hread : parse? name.typeName = some name ↔ name =
      ofSegments (spaces.map fun ws => ws.flatMap capital) (singular.flatMap capital) := by
    rw [parse?_eq_some_iff, hsegments]
    constructor
    · rintro ⟨parents, last, happend, hname⟩
      obtain ⟨hparents, hlast⟩ := List.append_inj' happend rfl
      rwa [hparents, List.singleton_inj.mp hlast]
    · intro hname
      exact ⟨_, _, rfl, hname⟩
  -- read back, a space keeps its words apart or runs them together
  have hspaces_iff : spaces.map (joined ['_']) =
      (spaces.map fun ws => ws.flatMap capital).map underscored ↔ ∀ ws ∈ spaces, Apart ws := by
    rw [List.map_map, List.map_inj_left]
    refine forall₂_congr fun ws hws => ?_
    show joined ['_'] ws = underscored (ws.flatMap capital) ↔ _
    rw [underscored_flatMap_capital (hspaces ws hws), eq_comm, joined_regroup_eq_iff (hspaces ws hws)]
  -- so does the singular, whose last word must not be an irregular plural
  have hsingular_iff : joined ['_'] singular =
      singularized (underscored (singular.flatMap capital)) ↔
        Apart singular ∧ irregularSingular? (lastWord (joined ['_'] singular)).2 = none := by
    rw [underscored_flatMap_capital hsingular, eq_comm,
      singularized_regroup_eq_iff hsingular h.last_singular hnonempty]
  rw [hread, h.eq_ofSegments_iff, hspaces_iff, hsingular_iff, List.forall_mem_append,
    List.forall_mem_singleton, and_assoc]

/-- A name is read back from its type name exactly if its parts are separable and its singular is
not the irregular plural of another word. -/
theorem parse?_typeName_eq_self_iff {identifier : String} {name : EntityName}
    (hplain : ∀ c ∈ identifier.toList, isPathChar c) (hname : parse? identifier = some name) :
    parse? name.typeName = some name ↔
      (∀ part ∈ name.namespaces ++ [name.singular], Separable part) ∧
        irregularSingular? (lastWord name.singular.toList).2 = none := by
  obtain ⟨spaces, singular, hspelled⟩ := exists_spelled hplain hname
  have hparts : name.namespaces ++ [name.singular] =
      (spaces ++ [singular]).map fun ws => String.ofList (joined ['_'] ws) := by
    rw [hspelled.namespaces_eq, hspelled.singular_eq, List.map_append, List.map_singleton]
  have hseparable : (∀ part ∈ name.namespaces ++ [name.singular], Separable part) ↔
      ∀ ws ∈ spaces ++ [singular], ws ≠ [] ∧ Apart ws := by
    rw [hparts, List.forall_mem_map]
    exact forall₂_congr fun ws hws => separable_joined (hspelled.words ws hws)
  rw [hseparable, hspelled.singular_eq, String.toList_ofList]
  -- A part without words is lost and is not separable.
  by_cases hnil : [] ∈ spaces ++ [singular]
  · refine iff_of_false (hspelled.parse?_typeName_of_nil hnil) ?_
    rintro ⟨hall, -⟩
    exact (hall [] hnil).1 rfl
  · have hne : ∀ ws ∈ spaces ++ [singular], ws ≠ [] := by
      rintro ws hws rfl
      exact hnil hws
    rw [hspelled.parse?_typeName_iff hne]
    exact and_congr_left' (forall₂_congr fun ws hws => by simp [hne ws hws])

/-- A letter and a digit, and several small letters, are told apart in a type name. -/
theorem parse?_typeName_of_line_items :
    (∀ c ∈ "shop_2/line_items".toList, isPathChar c) ∧
      ∃ name, parse? "shop_2/line_items" = some name ∧ name.typeName = "Shop2::LineItem" ∧
        parse? name.typeName = some name := by
  have hplain : ∀ c ∈ "shop_2/line_items".toList, isPathChar c :=
    List.all_eq_true.mp (by decide +kernel)
  have hname : parse? "shop_2/line_items" = some
      { singular := "line_item", plural := "line_items", typeName := "Shop2::LineItem"
        namespaces := ["shop_2"], human := "Shop2 LineItem" } := by
    decide +kernel
  exact ⟨hplain, _, hname, rfl,
    (parse?_typeName_eq_self_iff hplain hname).mpr ⟨by decide +kernel, by decide +kernel⟩⟩

/-- Two numbers run together in the type name, so `post_1_2` is read back as `post_12`. -/
theorem exists_parse?_typeName_ne :
    ¬ ∀ identifier name, parse? identifier = some name → parse? name.typeName = some name := by
  intro hall
  -- the digits at the end run together in the type name
  have hname : parse? "post_1_2" = some
      { singular := "post_1_2", plural := "post_1_2s", typeName := "Post12", namespaces := []
        human := "Post12" } := by
    decide +kernel
  have hread := hall "post_1_2" _ hname
  revert hread
  decide +kernel

end EntityName

end FieldQuery.Naming
