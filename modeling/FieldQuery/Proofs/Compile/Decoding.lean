import FieldQuery.Proofs.Compile.References
import FieldQuery.Proofs.Text.Integers
import FieldQuery.Proofs.Text.Trimming

/-!
# Values of polymorphic references

A polymorphic reference holds a key and the type that it is a key of, and is searched for by both in
one text such as `Post_12`. Types may have underscores too, so the key is what stands behind the last
one. Main statement: every type and every key are found under the text that is made of them, and a
text that names no type and key is compared with either column as a whole.
-/

namespace FieldQuery

open FieldQuery.Compilation FieldQuery.Compile FieldQuery.Sql FieldQuery.Text

/-! ## Cutting a text -/

namespace Text

/-- The last mark is the one with no other behind it. -/
theorem cutAtLast?_append {mark : Char} (before : List Char) {after : List Char}
    (hafter : mark ∉ after) : cutAtLast? mark (before ++ mark :: after) = some (before, after) := by
  -- the cut is found from the end, so the run without the mark is read backwards
  have hlast : (before ++ mark :: after).reverse.takeWhile (· != mark) = after.reverse := by
    have hreverse : (before ++ mark :: after).reverse =
        after.reverse ++ mark :: before.reverse := by simp
    rw [hreverse]
    apply takeWhile_run
    · intro c hc
      rw [bne_iff_ne]
      rintro rfl
      exact hafter (List.mem_reverse.mp hc)
    · simp
  have hlength : (before ++ mark :: after).length - after.length - 1 = before.length := by
    simp only [List.length_append, List.length_cons]
    omega
  simp only [cutAtLast?, hlast, List.reverse_reverse, hlength]
  simp

private theorem cutAtLast?_eq_some_iff {mark : Char} {text before after : List Char} :
    cutAtLast? mark text = some (before, after) ↔
      text = before ++ mark :: after ∧ mark ∉ after := by
  constructor
  · intro h
    have hmark : mark ∈ text := by
      by_contra hnone
      simp [cutAtLast?, hnone] at h
    -- The last mark of a text is the first one from behind.
    obtain ⟨back, front, htext, hback⟩ :=
      List.eq_append_cons_of_mem (List.mem_reverse.mpr hmark)
    have hcut : text = front.reverse ++ mark :: back.reverse := by
      simpa using congrArg List.reverse htext
    have hback' : mark ∉ back.reverse := fun hmem => hback (List.mem_reverse.mp hmem)
    rw [hcut, cutAtLast?_append _ hback'] at h
    obtain ⟨rfl, rfl⟩ := Prod.mk.inj (Option.some.inj h)
    exact ⟨hcut, hback'⟩
  · rintro ⟨rfl, hafter⟩
    exact cutAtLast?_append before hafter

/-! ## Spellings of integers -/

/-- A spelling of an integer has no characters but digits and a sign. -/
theorem SpellsInt.isDigit_or_sign {text : List Char} {n : ℤ} (h : SpellsInt text n) :
    ∀ c ∈ text, c.isDigit ∨ c = '+' ∨ c = '-' := by
  cases h with
  | unsigned h => exact fun c hc => Or.inl (h.2 c hc)
  | plus h =>
    intro c hc
    rcases List.mem_cons.mp hc with rfl | hc
    · exact Or.inr (Or.inl rfl)
    · exact Or.inl (h.2 c hc)
  | minus h =>
    intro c hc
    rcases List.mem_cons.mp hc with rfl | hc
    · exact Or.inr (Or.inr rfl)
    · exact Or.inl (h.2 c hc)

private theorem SpellsInt.trim_eq {text : List Char} {n : ℤ} (h : SpellsInt text n) :
    trim text = text := by
  -- digits and signs are no blanks, so there is nothing to trim
  have hblank : ∀ c ∈ text, isBlank c = false := by
    intro c hc
    rcases h.isDigit_or_sign c hc with hdigit | rfl | rfl
    · exact isBlank_of_isDecimalDigit (isDecimalDigit_of_isDigit hdigit)
    · decide
    · decide
  have htrimmed : IsTrimmed text :=
    ⟨fun c hc => hblank c (List.mem_of_mem_head? hc), fun c hc => hblank c (List.mem_of_getLast? hc)⟩
  have hnone : ∀ c ∈ ([] : List Char), isBlank c := by simp
  simpa using trim_append hnone htrimmed hnone

end Text

namespace Compile

/-! ## Types and keys in a text -/

/-- A text names a type and a key: it has the type before its last underscore, and behind it a spelling
of the key, which may have white space around it. -/
def NamesPair (text type : String) (id : Int64) : Prop :=
  type ≠ "" ∧ ∃ key : List Char, text.toList = type.toList ++ '_' :: key ∧ '_' ∉ key ∧
    SpellsInt (trim key) id.toInt

/-- The key that a text as a whole is taken for: the one that it spells, or else the sentinel, which
is the key of no row. -/
def TakenFor (text : String) (id : Int64) : Prop :=
  SpellsInt (trim text.toList) id.toInt ∨
    (∀ k : Int64, ¬ SpellsInt (trim text.toList) k.toInt) ∧ id = sentinelKey

/-- A type and a key are named by the text that is made of them. -/
theorem namesPair_append {type : String} (htype : type ≠ "") (id : Int64) :
    NamesPair (type ++ "_" ++ intText id.toInt) type id := by
  have hspells := spellsInt_intText id.toInt
  refine ⟨htype, (intText id.toInt).toList, by simp [List.append_assoc], fun hmem => ?_, ?_⟩
  · rcases hspells.isDigit_or_sign _ hmem with h | h | h <;> exact absurd h (by decide)
  · rwa [hspells.trim_eq]

/-- The type and the key that a text names, as they are read. -/
theorem namesPair_iff {text type : String} {id : Int64} :
    NamesPair text type id ↔ type ≠ "" ∧ ∃ key, cutAtLast? '_' text.toList = some (type.toList, key) ∧
      readInt64? (trim key) = some id := by
  simp only [NamesPair, cutAtLast?_eq_some_iff, readInt64?_eq_some_iff, and_assoc]

private theorem exists_takenFor (text : String) :
    TakenFor text ((readInt64? (trim text.toList)).getD sentinelKey) := by
  cases hread : readInt64? (trim text.toList) with
  | some id => exact Or.inl (readInt64?_eq_some_iff.mp hread)
  | none =>
    refine Or.inr ⟨fun k hk => ?_, rfl⟩
    rw [readInt64?_eq_some_iff.mpr hk] at hread
    cases hread

/-! ## Conditions -/

section Conditions

variable {column text type : String} {id : Int64}

/-- A key and a type in the columns of a reference, both or one of them. -/
def pairCondition (connective column : String) (id : Int64) (type : String) : Fragment :=
  .join connective
    [.equals (column ++ "_id") (.integer id), .equals (column ++ "_type") (.text type)]

private theorem polymorphicCondition_of_namesPair (h : NamesPair text type id) :
    polymorphicCondition column text = pairCondition " AND " column id type := by
  obtain ⟨htype, key, hcut, hread⟩ := namesPair_iff.mp h
  have htype' : type.toList ≠ [] := fun hnil => htype (String.toList_eq_nil_iff.mp hnil)
  simp [polymorphicCondition, hcut, hread, htype', pairCondition, Fragment.join, Fragment.equals,
    String.append_assoc]

private theorem polymorphicCondition_of_not_namesPair (h : ∀ type id, ¬ NamesPair text type id) :
    ∃ id, TakenFor text id ∧ polymorphicCondition column text = pairCondition " OR " column id text := by
  refine ⟨_, exists_takenFor text, ?_⟩
  unfold polymorphicCondition
  simp only
  split
  · -- a pair read here would be one named by the text
    next type id htyped =>
    exfalso
    obtain ⟨⟨before, key⟩, hcut, htyped⟩ := Option.bind_eq_some_iff.mp htyped
    split at htyped
    · cases htyped
    · next hbefore =>
      obtain ⟨id, hread, -⟩ := Option.bind_eq_some_iff.mp htyped
      refine h (String.ofList before) id (namesPair_iff.mpr ⟨?_, key, ?_, hread⟩)
      · simpa [← String.toList_eq_nil_iff] using hbefore
      · rw [hcut, String.toList_ofList]
  · simp [pairCondition, Fragment.join, Fragment.equals, String.append_assoc]

end Conditions

/-! ## Searches -/

/-- A search by a text in a polymorphic reference compares the columns of the field for the key and for
the type. Of a text that names both it asks for both, as of the text that is made of any type and any
key, and any other text it compares with either column. Only if the column of the field is a function
over groups it is this function that is compared with the text, in a condition on groups. -/
theorem search_decodes_pair {σ : Type} (backend : Backend σ) (s : σ) (compiler : Compiler)
    (bound : Relation) (field : String) (options : SearchOptions)
    (hfield : (compiler.entity.resolve field).type = .polymorphicReference)
    (htype : options.type = none) (hsql : options.sqlColumn = none) :
    let column := compiler.entity.sqlColumn field
    let run (text : String) :=
      ((compiler.bind bound).search field (.string text) options).run backend s
    let finds (text : String) (condition : Fragment) : Prop :=
      run text = (.ok (bound.filter condition), backend.count (.search .polymorphicReference) s)
    (isAggregate column = false →
      (∀ (type : String) (id : Int64), type ≠ "" →
        finds (type ++ "_" ++ intText id.toInt) (pairCondition " AND " column id type)) ∧
      (∀ text type id, NamesPair text type id →
        finds text (pairCondition " AND " column id type)) ∧
      ∀ text, (∀ type id, ¬ NamesPair text type id) →
        ∃ id, TakenFor text id ∧ finds text (pairCondition " OR " column id text)) ∧
    (isAggregate column = true → ∀ text,
      run text = (.ok (bound.having (.equals column (.text text))),
        backend.count .searchAggregate s)) := by
  intro column run finds
  have hcolumn : compiler.entity.columnFor field options.sqlColumn = column := by
    rw [hsql]
    rfl
  have htext (text : String) : (Json.string text).typedText = text := String.ofList_toList
  refine ⟨fun haggregate => ?_, fun haggregate text => ?_⟩
  · -- the plain column: what is found depends on whether the text names a pair, and on nothing else
    have hfinds (text : String) : finds text (polymorphicCondition column text) := by
      have hclause : searchClause compiler.settings compiler.entity field (.string text) options = do
          .note (.search .polymorphicReference)
          return .condition (polymorphicCondition column text) := by
        rw [searchClause_polymorphic (by rw [htype]; exact hfield) (by rw [hcolumn]; exact haggregate),
          hcolumn, htext]
      exact run_search_of_searchClause backend s bound hclause
    have hpair {text type : String} {id : Int64} (h : NamesPair text type id) :
        finds text (pairCondition " AND " column id type) := by
      rw [← polymorphicCondition_of_namesPair h]
      exact hfinds text
    refine ⟨fun type id hne => hpair (namesPair_append hne id), fun text type id => hpair,
      fun text hnone => ?_⟩
    obtain ⟨id, htaken, hcondition⟩ := polymorphicCondition_of_not_namesPair hnone
    refine ⟨id, htaken, ?_⟩
    rw [← hcondition]
    exact hfinds text
  · -- the aggregate column: the text is compared whole, and never taken apart
    have hclause : searchClause compiler.settings compiler.entity field (.string text) options = do
        .note .searchAggregate
        return .having (.equals column (.text text)) := by
      unfold searchClause
      simp only [hcolumn, haggregate, if_true, valueParam, htext]
    exact run_search_of_searchClause backend s bound hclause

namespace Library

/-- A type with underscores and a negative key, a key with white space around it, and a text that stands
for NULL elsewhere. -/
theorem search_decodes_subjects :
    let run (text : String) := (((reviews none).bind (.all "reviews" "Review")).search "subject"
      (.string text) {}).run store ()
    let found (connective : String) (id : Int64) (type : String) : Except QueryError Relation × Unit :=
      (.ok ((Relation.all "reviews" "Review").filter
        (pairCondition connective "reviews.subject" id type)), ())
    run ("Shop::gift_card" ++ "_" ++ intText (-7)) = found " AND " (-7) "Shop::gift_card" ∧
      run "Book_ 12 " = found " AND " 12 "Book" ∧
      run "null" = found " OR " sentinelKey "null" := by
  intro run found
  have hcolumn : (reviews none).entity.sqlColumn "subject" = "reviews.subject" := by decide +kernel
  obtain ⟨hsearches, -⟩ := search_decodes_pair store () (reviews none) (.all "reviews" "Review")
    "subject" {} (by decide +kernel) rfl rfl
  rw [hcolumn] at hsearches
  obtain ⟨hmade, hnamed, hother⟩ := hsearches (by decide +kernel)
  refine ⟨hmade "Shop::gift_card" (-7) (by decide), hnamed _ _ _ ?_, ?_⟩
  · exact namesPair_iff.mpr ⟨by decide, " 12 ".toList, by decide +kernel, by decide +kernel⟩
  · have hnone : ∀ type id, ¬ NamesPair "null" type id := by
      -- without an underscore there is nothing to cut, so no pair
      intro type id hpair
      obtain ⟨-, key, hcut, -⟩ := namesPair_iff.mp hpair
      cases hcut.symm.trans (show cutAtLast? '_' "null".toList = none by decide +kernel)
    obtain ⟨id, htaken, hfinds⟩ := hother "null" hnone
    rcases htaken with hspells | ⟨-, rfl⟩
    · cases (readInt64?_eq_some_iff.mpr hspells).symm.trans
        (show readInt64? (trim "null".toList) = none by decide +kernel)
    · exact hfinds

/-- Reviews with a polymorphic reference whose name is a function over groups. -/
def countedReviews : Compiler :=
  .all ⟨.sqlite, 100, 3⟩ (.ofSchema { schema? _ := none } (targetOf "Review" "review" "reviews").name
    { typeName := "Review"
      columns := [("body", .text)]
      associations := [{ name := "count(subject)", kind := .belongsTo, polymorphic := true }] })

/-- A search by such a reference asks for no type and no key, but has a condition on groups. -/
theorem search_counts_subjects :
    countedReviews.entity.resolve "count(subject)" = ⟨.polymorphicReference,
        some (.step ⟨"count(subject)", "count(subject)_id",
          .polymorphic "count(subject)_type"⟩)⟩ ∧
      ((countedReviews.bind (.all "reviews" "Review")).search "count(subject)"
        (.string ("Book" ++ "_" ++ intText 12)) {}).run store () =
          (.ok ((Relation.all "reviews" "Review").having
            ⟨"count(subject) = ?", [.text "Book_12"]⟩), ()) ∧
      ∀ condition, (Relation.all "reviews" "Review").having
          ⟨"count(subject) = ?", [.text "Book_12"]⟩ ≠
        (Relation.all "reviews" "Review").filter condition := by
  -- the whole search is closed; only that `having` adds no condition is argued
  refine ⟨by decide +kernel, by decide +kernel, fun condition h => ?_⟩
  have hconditions := congrArg Relation.conditions h
  simp [Relation.all, Relation.having, Relation.filter] at hconditions

end Library

end Compile

end FieldQuery
