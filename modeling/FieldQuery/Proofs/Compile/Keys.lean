import FieldQuery.Proofs.Compile.Containing
import FieldQuery.Proofs.Sql.KeySets
import FieldQuery.Proofs.Text.Integers

/-!
# Keys that are named by texts

Alone, a text names a key if it is the canonical text of an integer, and is looked for in the fields
otherwise. In a list every text names a key: the integer that it spells in any way, or else itself.
So the keys of a list are its elements exactly if no element spells an integer in another way than
the canonical one.
-/

namespace FieldQuery

open FieldQuery.Compilation FieldQuery.Sql FieldQuery.Text

/-- A key as a text. -/
def Sql.Key.printed : Key → String
  | .integer n => intText n.toInt
  | .text s => s

namespace Compile

/-! ## Texts in a list -/

/-- The key that a text in a list names. -/
def keyOfText (text : String) : Key :=
  ((readInt64? text.toList).map .integer).getD (.text text)

variable {text other : String}

private theorem keyOfText_eq_integer_iff {k : Int64} :
    keyOfText text = .integer k ↔ SpellsInt text.toList k.toInt := by
  rw [← readInt64?_eq_some_iff, keyOfText]
  cases readInt64? text.toList <;> simp

private theorem keyOfText_eq_text_iff :
    keyOfText text = .text other ↔
      other = text ∧ ∀ k : Int64, ¬ SpellsInt text.toList k.toInt := by
  simp only [← readInt64?_eq_some_iff, keyOfText]
  cases readInt64? text.toList <;> simp [eq_comm]

/-- Two texts name one key if they spell one integer, and otherwise only if they are the same. -/
theorem keyOfText_eq_iff :
    keyOfText text = keyOfText other ↔
      text = other ∨
        ∃ k : Int64, SpellsInt text.toList k.toInt ∧ SpellsInt other.toList k.toInt := by
  constructor
  · intro h
    -- a number is the key of every text that spells it, any other text only of itself
    cases hkey : keyOfText text with
    | integer k =>
      rw [hkey] at h
      exact Or.inr ⟨k, keyOfText_eq_integer_iff.mp hkey, keyOfText_eq_integer_iff.mp h.symm⟩
    | text t =>
      rw [hkey] at h
      obtain ⟨rfl, -⟩ := keyOfText_eq_text_iff.mp hkey
      exact Or.inl (keyOfText_eq_text_iff.mp h.symm).1
  · rintro (rfl | ⟨k, hk, hk'⟩)
    · rfl
    · rw [keyOfText_eq_integer_iff.mpr hk, keyOfText_eq_integer_iff.mpr hk']

/-- A text has no spelling of an integer but the canonical one. -/
def IsPlainKey (text : String) : Prop :=
  ∀ k : Int64, SpellsInt text.toList k.toInt → text = intText k.toInt

/-- The key of a text is printed as this text exactly if it is canonical. -/
theorem printed_keyOfText_iff : (keyOfText text).printed = text ↔ IsPlainKey text := by
  -- printing a number gives its canonical spelling, so only that text comes back as it was
  cases hkey : keyOfText text with
  | integer k =>
    have hspells := keyOfText_eq_integer_iff.mp hkey
    refine ⟨fun h k' hk' => ?_, fun h => (h k hspells).symm⟩
    rw [← readInt64?_eq_some_iff] at hspells hk'
    obtain rfl : k = k' := Option.some.inj (hspells.symm.trans hk')
    exact h.symm
  | text t =>
    obtain ⟨rfl, hnone⟩ := keyOfText_eq_text_iff.mp hkey
    exact iff_of_true rfl fun k hk => absurd hk (hnone k)

private theorem isPlainKey_printed (text : String) : IsPlainKey (keyOfText text).printed := by
  cases hkey : keyOfText text with
  | integer k =>
    intro k' hk'
    have hread := readInt64?_intText k
    rw [Key.printed, ← readInt64?_eq_some_iff, hread, Option.some.injEq] at hk'
    rw [← hk']
    rfl
  | text t =>
    obtain ⟨rfl, hnone⟩ := keyOfText_eq_text_iff.mp hkey
    exact fun k hk => absurd hk (hnone k)

/-- The keys of a list are printed as its elements exactly if these are canonical. -/
theorem printed_keys_iff (texts : List String) :
    (texts.map keyOfText).eraseDups.map Key.printed = texts.eraseDups ↔
      ∀ text ∈ texts, IsPlainKey text := by
  constructor
  · -- Whatever is printed is canonical, so what is the same as printed keys is canonical.
    intro h text htext
    rw [← List.mem_eraseDups, ← h, List.mem_map] at htext
    obtain ⟨key, hkey, rfl⟩ := htext
    obtain ⟨text, -, rfl⟩ := List.mem_map.mp (List.mem_eraseDups.mp hkey)
    exact isPlainKey_printed text
  · intro h
    have hprinted : ∀ text ∈ texts, (keyOfText text).printed = text :=
      fun text htext => printed_keyOfText_iff.mpr (h text htext)
    have hapart : ∀ a ∈ texts, ∀ b ∈ texts, keyOfText a = keyOfText b → a = b := by
      intro a ha b hb hkeys
      rw [← hprinted a ha, hkeys, hprinted b hb]
    calc (texts.map keyOfText).eraseDups.map Key.printed
        = texts.eraseDups.map fun text => (keyOfText text).printed := by
          rw [eraseDups_map hapart, List.map_map]
          rfl
      _ = texts.eraseDups.map id :=
          List.map_congr_left fun text htext => hprinted text (List.mem_eraseDups.mp htext)
      _ = texts.eraseDups := List.map_id _

/-! ## Keys of values -/

/-- Alone, a text names a key if it is the canonical text of an integer. -/
theorem keysOfValue?_string (text : String) :
    (∃ k : Int64, text = intText k.toInt ∧
        keysOfValue? (.string text) = some (.ofList [.integer k])) ∨
      (∀ k : Int64, text ≠ intText k.toInt) ∧ keysOfValue? (.string text) = none := by
  by_cases h : ∃ k : Int64, text = intText k.toInt
  · obtain ⟨k, rfl⟩ := h
    refine Or.inl ⟨k, rfl, ?_⟩
    simp [keysOfValue?, readInt64?_intText]
  · have hnone := not_exists.mp h
    refine Or.inr ⟨hnone, ?_⟩
    -- another spelling of a number is read, and dropped by the comparison with the canonical one
    simp only [keysOfValue?, Option.map_eq_none_iff, Option.filter_eq_none_iff]
    intro k _ heq
    exact hnone k (eq_of_beq heq).symm

private theorem keysOfValue?_texts (texts : List String) :
    keysOfValue? (.array (texts.map .string)) = some (.ofList (texts.map keyOfText)) := by
  have hitems : (texts.map Json.string).filterMap keyOfItem? = texts.map keyOfText := by
    rw [List.filterMap_map]
    exact congrFun List.filterMap_eq_map' texts
  rw [keysOfValue?, hitems]

/-! ## Searches in all fields -/

/-- The values that a search for a list of texts compares the primary key with: the keys of the
texts, each at its first occurrence, or the sentinel if there is no text. -/
def listParams (texts : List String) : List Param :=
  if texts.isEmpty then [.integer sentinelKey]
  else (texts.map keyOfText).eraseDups.map Key.param

private theorem members_texts (texts : List String) :
    (KeySet.ofList (texts.map keyOfText)).members = listParams texts := by
  have hempty : (KeySet.ofList (texts.map keyOfText)).isEmpty = texts.isEmpty := by
    cases texts with
    | nil => rfl
    | cons text rest =>
      have hmem : keyOfText text ∈ (KeySet.ofList ((text :: rest).map keyOfText)).keys :=
        KeySet.mem_ofList.mpr List.mem_cons_self
      exact KeySet.isEmpty_eq_false_iff.mpr (List.ne_nil_of_mem hmem)
  rw [KeySet.members, listParams, hempty, KeySet.params, KeySet.keys_ofList]

/-- Alone, a text is searched as a key if it is the canonical text of an integer, and in the fields
otherwise. A list of texts is searched as keys in the order of their first occurrences. A text in it
names the integer that it spells with a sign or without one and with any zeros in front, and itself
if it spells none. Two texts name one key exactly if they are the same or spell one integer, so the
keys are printed as the distinct elements of the list exactly if all that spell integers are
canonical. -/
theorem searchAny_keys {σ : Type} (backend : Backend σ) (s : σ) (compiler : Compiler)
    (bound : Relation) (options : SearchAnyOptions) :
    let column := compiler.entity.keyColumn
    let run (value : Json) := ((compiler.bind bound).searchAny value options).run backend s
    (∀ text : String,
      (∃ k : Int64, text = intText k.toInt ∧
        run (.string text) =
          (.ok (bound.filter ⟨KeySet.memberText column 1, [.integer k]⟩),
            backend.count .searchAnyKey s)) ∨
      (∀ k : Int64, text ≠ intText k.toInt) ∧
        run (.string text) =
          (.ok (bound.filter (anyTextCondition compiler.settings.dialect compiler.entity
            (options.fields.getD compiler.entity.searchFields) options.fuzzy text)),
            backend.count .searchAnyText s)) ∧
    (∀ texts : List String,
      run (.array (texts.map .string)) =
        (.ok (bound.filter
          ⟨KeySet.memberText column (listParams texts).length, listParams texts⟩),
          backend.count .searchAnyKey s) ∧
      ((texts.map keyOfText).eraseDups.map Key.printed = texts.eraseDups ↔
        ∀ text ∈ texts, IsPlainKey text)) ∧
    ∀ text other : String,
      (∀ k : Int64, keyOfText text = .integer k ↔ SpellsInt text.toList k.toInt) ∧
      (keyOfText text = .text other ↔
        other = text ∧ ∀ k : Int64, ¬ SpellsInt text.toList k.toInt) ∧
      (keyOfText text = keyOfText other ↔
        text = other ∨
          ∃ k : Int64, SpellsInt text.toList k.toInt ∧ SpellsInt other.toList k.toInt) := by
  intro column run
  refine ⟨fun text => ?_, fun texts => ⟨?_, printed_keys_iff texts⟩, fun text other =>
    ⟨fun k => keyOfText_eq_integer_iff, keyOfText_eq_text_iff, keyOfText_eq_iff⟩⟩
  · -- one text: canonical for a key, or looked for in the fields
    rcases keysOfValue?_string text with ⟨k, hcanonical, hkeys⟩ | ⟨hother, hkeys⟩
    · refine Or.inl ⟨k, hcanonical, ?_⟩
      simp only [run, run_searchAny, anyCondition, hkeys, KeySet.inList_eq]
      rfl
    · have htext : (Json.string text).typedText = text := String.ofList_toList
      refine Or.inr ⟨hother, ?_⟩
      simp only [run, run_searchAny, anyCondition, hkeys, htext]
  · simp only [run, run_searchAny, anyCondition, keysOfValue?_texts, KeySet.inList_eq,
      members_texts]
    rfl

namespace Library

/-- In a list 007 and 7 are one key, while 007 alone is looked for in the names. -/
theorem searchAny_merges_spellings :
    let any (value : Json) := ((compiler.bind author.relation).searchAny value {}).run store ()
    any (.array [.string "007", .string "7"]) =
        (.ok (author.relation.filter ⟨"authors.id IN (?)", [.integer 7]⟩), ()) ∧
      any (.string "007") =
        (.ok (author.relation.filter ⟨"authors.name LIKE ?", [.text "%007%"]⟩), ()) ∧
      (["007", "7"].map keyOfText).eraseDups.map Key.printed ≠ ["007", "7"].eraseDups :=
  ⟨by decide +kernel, by decide +kernel, by decide +kernel⟩

end Library

end Compile

end FieldQuery
