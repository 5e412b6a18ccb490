import FieldQuery.Naming.NameMemo
import Mathlib.Data.List.Dedup

/-!
# Series of names

Identifiers are resolved one after another with one memo. What the memo holds then is decided by the
identifiers alone: each of them that can be parsed, once, with the name that it is parsed to. So a
memo changes no answer, and nothing is kept of an identifier that fails.
-/

namespace FieldQuery.Naming

variable {identifier : String} {name : EntityName}

private theorem EntityName.parse_eq_ok_iff :
    EntityName.parse identifier = .ok name ↔ EntityName.parse? identifier = some name := by
  unfold EntityName.parse
  cases EntityName.parse? identifier <;> simp

namespace NameMemo

/-! ## What a memo holds -/

/-- An identifier that can be parsed, with the name that it is parsed to. -/
def entryOf? (identifier : String) : Option (String × EntityName) :=
  (EntityName.parse? identifier).map fun name => (identifier, name)

private theorem entryOf?_eq_some_iff {other : String} :
    entryOf? other = some (identifier, name) ↔
      other = identifier ∧ EntityName.parse? identifier = some name := by
  simp only [entryOf?, Option.map_eq_some_iff, Prod.mk.injEq]
  constructor
  · rintro ⟨_, hparse, rfl, rfl⟩
    exact ⟨rfl, hparse⟩
  · rintro ⟨rfl, hparse⟩
    exact ⟨name, hparse, rfl, rfl⟩

/-- The memo after some identifiers. The entry of an identifier stands where it was new, behind those
of later ones. -/
def after (identifiers : List String) : NameMemo :=
  ⟨(identifiers.reverse.filterMap entryOf?).dedup⟩

variable {earlier : List String}

private theorem mem_after : (identifier, name) ∈ (after earlier).entries ↔
    identifier ∈ earlier ∧ EntityName.parse? identifier = some name := by
  simp only [after, List.mem_dedup, List.mem_filterMap, List.mem_reverse, entryOf?_eq_some_iff]
  constructor
  · rintro ⟨_, hmem, rfl, hparse⟩
    exact ⟨hmem, hparse⟩
  · rintro ⟨hmem, hparse⟩
    exact ⟨identifier, hmem, rfl, hparse⟩

/-- Under an identifier stands the name that it is parsed to, if it is an earlier one. -/
theorem lookup_after (earlier : List String) (identifier : String) :
    (after earlier).entries.lookup identifier =
      if identifier ∈ earlier then EntityName.parse? identifier else none := by
  cases hfound : (after earlier).entries.lookup identifier with
  | none =>
    -- Nothing is found under an identifier that no entry has.
    have hnone (name : EntityName) : (identifier, name) ∉ (after earlier).entries := by
      intro hmem
      simpa using List.lookup_eq_none_iff.mp hfound _ hmem
    simp only [mem_after, not_and, ← ne_eq] at hnone
    split
    · next hmem => exact (Option.eq_none_iff_forall_ne_some.mpr fun name => hnone name hmem).symm
    · rfl
  | some name =>
    obtain ⟨before, rest, hentries, -⟩ := List.lookup_eq_some_iff.mp hfound
    have hentry : (identifier, name) ∈ (after earlier).entries := by simp [hentries]
    obtain ⟨hmem, hparse⟩ := mem_after.mp hentry
    rw [if_pos hmem, hparse]

/-- The identifiers of a memo are the distinct ones among the earlier that can be parsed. -/
theorem keys_after (earlier : List String) :
    ((after earlier).entries.map Prod.fst).Perm
      (earlier.filter fun i => (EntityName.parse? i).isSome).dedup := by
  have hnodup : ((after earlier).entries.map Prod.fst).Nodup := by
    refine (List.nodup_dedup _).map_on ?_
    rintro ⟨i, name⟩ hname ⟨i', name'⟩ hname' (rfl : i = i')
    -- An identifier is parsed to one name only.
    have hparse := (mem_after.mp hname).2
    rw [(mem_after.mp hname').2, Option.some.injEq] at hparse
    rw [hparse]
  refine (List.perm_ext_iff_of_nodup hnodup (List.nodup_dedup _)).mpr fun i => ?_
  simp only [List.mem_map, List.mem_dedup, List.mem_filter, Option.isSome_iff_exists]
  constructor
  · rintro ⟨⟨_, name⟩, hentry, rfl⟩
    exact ⟨(mem_after.mp hentry).1, name, (mem_after.mp hentry).2⟩
  · rintro ⟨hmem, name, hparse⟩
    exact ⟨(i, name), mem_after.mpr ⟨hmem, hparse⟩, rfl⟩

/-! ## One resolution -/

/-- A new identifier that can be parsed adds an entry, and no other one does. -/
theorem after_concat (earlier : List String) (identifier : String) :
    after (earlier ++ [identifier]) =
      match EntityName.parse? identifier with
      | some name =>
        if identifier ∈ earlier then after earlier
        else ⟨(identifier, name) :: (after earlier).entries⟩
      | none => after earlier := by
  -- the newest entry stands first, so the lists are compared from the end
  have hreverse : (earlier ++ [identifier]).reverse = identifier :: earlier.reverse := by simp
  unfold after
  rw [hreverse]
  cases hparse : EntityName.parse? identifier with
  | none => rw [List.filterMap_cons_none (by simp [entryOf?, hparse])]
  | some name =>
    have hentry : entryOf? identifier = some (identifier, name) := by simp [entryOf?, hparse]
    have hmem : (identifier, name) ∈ earlier.reverse.filterMap entryOf? ↔ identifier ∈ earlier := by
      rw [← List.mem_dedup]
      exact mem_after.trans (and_iff_left hparse)
    rw [List.filterMap_cons_some hentry]
    simp only
    -- looked up before: its entry is kept, and no second one is made
    split
    · next h => rw [List.dedup_cons_of_mem (hmem.mpr h)]
    · next h => rw [List.dedup_cons_of_notMem (mt hmem.mp h)]

/-- A resolution gives what the identifier is parsed to, and keeps it. -/
theorem resolve_after (earlier : List String) (identifier : String) :
    (after earlier).resolve identifier =
      (EntityName.parse identifier, after (earlier ++ [identifier])) := by
  rw [after_concat]
  unfold resolve
  rw [lookup_after]
  cases hparse : EntityName.parse? identifier with
  | none => simp [EntityName.parse, hparse]
  | some name =>
    by_cases hmem : identifier ∈ earlier <;> simp [EntityName.parse, hparse, hmem]

/-! ## A whole series -/

/-- The answers to identifiers that are resolved one after another with a memo, and the memo after
them. -/
def resolveAll :
    List String → NameMemo → List (Except QueryError EntityName) × NameMemo
  | [], memo => ([], memo)
  | identifier :: rest, memo =>
    let (answer, next) := memo.resolve identifier
    let (answers, last) := resolveAll rest next
    (answer :: answers, last)

private theorem resolveAll_after (identifiers earlier : List String) :
    resolveAll identifiers (after earlier) =
      (identifiers.map EntityName.parse, after (earlier ++ identifiers)) := by
  induction identifiers generalizing earlier with
  | nil => simp [resolveAll]
  | cons identifier rest ih => simp [resolveAll, resolve_after, ih]

/-- In a series of identifiers every answer is what the identifier is parsed to. After any part of the
series the memo has one entry for each identifier of this part that can be parsed, with its name, and
no other entry. The next resolution adds an entry if the identifier is new and can be parsed, and
leaves the memo as it is otherwise. -/
theorem resolveAll_parses (earlier rest : List String) :
    (resolveAll (earlier ++ rest) {}).1 = (earlier ++ rest).map EntityName.parse ∧
      let memo := (resolveAll earlier {}).2
      (memo.entries.map Prod.fst).Perm
        (earlier.filter fun i => (EntityName.parse? i).isSome).dedup ∧
      memo.size = (earlier.filter fun i => (EntityName.parse? i).isSome).dedup.length ∧
      (∀ identifier name, (identifier, name) ∈ memo.entries ↔
        identifier ∈ earlier ∧ EntityName.parse identifier = .ok name) ∧
      ∀ identifier, memo.resolve identifier = (EntityName.parse identifier,
        match EntityName.parse identifier with
        | .ok name => if identifier ∈ earlier then memo else ⟨(identifier, name) :: memo.entries⟩
        | .error _ => memo) := by
  -- what was parsed before shows in the memo alone, which is the one after those identifiers
  have hseries (identifiers : List String) : resolveAll identifiers {} =
      (identifiers.map EntityName.parse, after identifiers) := resolveAll_after identifiers []
  have hmemo : (resolveAll earlier {}).2 = after earlier := congrArg Prod.snd (hseries earlier)
  rw [hmemo]
  refine ⟨congrArg Prod.fst (hseries _), keys_after earlier, ?_, fun identifier name => ?_,
    fun identifier => ?_⟩
  · calc (after earlier).size = ((after earlier).entries.map Prod.fst).length :=
          (List.length_map _).symm
      _ = _ := (keys_after earlier).length_eq
  · rw [mem_after, EntityName.parse_eq_ok_iff]
  · rw [resolve_after, after_concat]
    cases hparse : EntityName.parse? identifier <;> simp [EntityName.parse, hparse]

end NameMemo

end FieldQuery.Naming
