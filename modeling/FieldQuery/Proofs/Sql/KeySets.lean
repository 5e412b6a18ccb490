import FieldQuery.Sql.KeySet
import Mathlib.Data.List.Induction

/-!
# Laws of key sets

The keys of a plucked column are those of its values that are not NULL, and they stand in the order
of their first occurrence. The texts of a membership test and of a ranking depend on the column and
on the number of keys alone.
-/

namespace FieldQuery.Sql

/-- Different keys are different parameters. -/
theorem Key.param_injective : Function.Injective Key.param := by
  intro a b h
  cases a <;> cases b <;> simp_all [Key.param]

/-! ## First occurrences -/

section FirstOccurrences

variable {α β : Type} [DecidableEq α] [DecidableEq β]

private theorem eraseDups_concat (list : List α) (last : α) :
    (list ++ [last]).eraseDups =
      if last ∈ list then list.eraseDups else list.eraseDups ++ [last] := by
  rw [List.eraseDups_append]
  split
  · next hmem => simp [List.removeAll, hmem]
  · next hnew => simp [List.removeAll, hnew, List.eraseDups_cons]

/-- A map that tells the elements of a list apart keeps their first occurrences. -/
theorem eraseDups_map {f : α → β} {list : List α}
    (hf : ∀ a ∈ list, ∀ b ∈ list, f a = f b → a = b) :
    (list.map f).eraseDups = list.eraseDups.map f := by
  -- from the end, since there an element is dropped for one that stands before it
  induction list using List.reverseRecOn with
  | nil => rfl
  | append_singleton list last ih =>
    have hmem : f last ∈ list.map f ↔ last ∈ list := by
      refine ⟨fun h => ?_, List.mem_map_of_mem⟩
      obtain ⟨a, ha, heq⟩ := List.mem_map.mp h
      rwa [← hf a (List.mem_append_left _ ha) last (by simp) heq]
    have hlist := ih fun a ha b hb =>
      hf a (List.mem_append_left _ ha) b (List.mem_append_left _ hb)
    rw [List.map_append, List.map_singleton, eraseDups_concat, eraseDups_concat, hlist]
    simp only [hmem]
    split
    · rfl
    · rw [List.map_append, List.map_singleton]

end FirstOccurrences

namespace KeySet

/-! ## Keys in order -/

/-- A key is put behind the others unless it is there already. -/
theorem keys_insert (s : KeySet) (key : Key) :
    (s.insert key).keys = if key ∈ s.keys then s.keys else s.keys ++ [key] := by
  unfold insert
  split <;> rfl

/-- The last key of a list is put in last. -/
theorem ofList_concat (keys : List Key) (key : Key) :
    ofList (keys ++ [key]) = (ofList keys).insert key := by
  simp only [ofList, List.foldl_append, List.foldl_cons, List.foldl_nil]

/-- A set has the keys of its list. -/
@[simp]
theorem mem_ofList {keys : List Key} {key : Key} : key ∈ (ofList keys).keys ↔ key ∈ keys := by
  -- induction from the end, where keys are added
  induction keys using List.reverseRecOn with
  | nil => rfl
  | append_singleton keys last ih =>
    rw [ofList_concat, keys_insert]
    split
    · next hmem =>
      rw [ih, List.mem_append, List.mem_singleton]
      refine ⟨Or.inl, ?_⟩
      rintro (h | rfl)
      · exact h
      · exact ih.mp hmem
    · rw [List.mem_append, ih, List.mem_append]

/-- A plucked set has the keys of the column that are not NULL. -/
@[simp]
theorem mem_ofPlucked {column : List (Option Key)} {key : Key} :
    key ∈ (ofPlucked column).keys ↔ some key ∈ column := by
  simp [ofPlucked]

/-- The keys of a set are the first occurrences in the list. -/
theorem keys_ofList (keys : List Key) : (ofList keys).keys = keys.eraseDups := by
  induction keys using List.reverseRecOn with
  | nil => rfl
  | append_singleton keys last ih =>
    rw [ofList_concat, keys_insert, eraseDups_concat, ← ih]
    simp only [mem_ofList]

/-- To relate every key of a set to all later ones, it is enough to relate a key, at its first place
in the list, to the keys that come up only after it. -/
theorem pairwise_ofList {R : Key → Key → Prop} {keys : List Key}
    (h : ∀ before key after, keys = before ++ key :: after →
      ∀ later ∈ after, later ∉ before → later ≠ key → R key later) :
    (ofList keys).keys.Pairwise R := by
  induction keys using List.reverseRecOn with
  | nil => exact List.Pairwise.nil
  | append_singleton keys last ih =>
    have hkeys : (ofList keys).keys.Pairwise R := by
      refine ih fun before key after hsplit later hlater => ?_
      refine h before key (after ++ [last]) ?_ later (List.mem_append_left _ hlater)
      rw [hsplit, List.append_assoc, List.cons_append]
    rw [ofList_concat, keys_insert]
    split
    · exact hkeys
    · -- The last key is new, so it comes after the first place of every other one.
      next hlast =>
      rw [mem_ofList] at hlast
      refine List.pairwise_append.mpr ⟨hkeys, List.pairwise_singleton R last, ?_⟩
      intro key hkey later hlater
      obtain rfl := List.mem_singleton.mp hlater
      obtain ⟨before, after, hsplit, -⟩ := List.eq_append_cons_of_mem (mem_ofList.mp hkey)
      refine h before key (after ++ [later]) ?_ later (by simp) ?_ ?_
      · rw [hsplit, List.append_assoc, List.cons_append]
      · exact fun hmem => hlast (hsplit ▸ List.mem_append_left _ hmem)
      · rintro rfl
        exact hlast (hsplit ▸ by simp)

/-! ## Emptiness -/

/-- A set is empty exactly if it has no key. -/
theorem isEmpty_iff {s : KeySet} : s.isEmpty = true ↔ s.keys = [] :=
  List.isEmpty_iff

/-- A set is not empty exactly if it has a key. -/
theorem isEmpty_eq_false_iff {s : KeySet} : s.isEmpty = false ↔ s.keys ≠ [] :=
  List.isEmpty_eq_false_iff

/-! ## Texts -/

/-- A number of placeholders, with commas between them. -/
def placeholders (n : Nat) : String :=
  ", ".intercalate (List.replicate n "?")

/-- The text of a test for one of `n` values. -/
def memberText (column : String) (n : Nat) : String :=
  column ++ " IN (" ++ placeholders n ++ ")"

/-- The text of a ranking by `n` values. -/
def rankText (column : String) (n : Nat) : String :=
  ", ".intercalate (List.replicate n (column ++ " = ? DESC"))

/-- The values that a membership test compares with: the keys, or the sentinel if there is none. -/
def members (s : KeySet) : List Param :=
  if s.isEmpty then [.integer sentinelKey] else s.params

/-- The condition of a set has one placeholder for each member. -/
theorem inList_eq (column : String) (s : KeySet) :
    s.inList column = ⟨memberText column s.members.length, s.members⟩ := by
  unfold inList members
  split
  · simp [memberText, placeholders, String.append_assoc]
  · simp [memberText, placeholders, params, List.map_const']

/-- The ranking of a set has one placeholder for each key, and there is none of an empty set. -/
theorem rankOrder?_eq (column : String) (s : KeySet) :
    s.rankOrder? column =
      if s.isEmpty then none else some ⟨rankText column s.params.length, s.params⟩ := by
  simp [rankOrder?, rankText, params, List.map_const']

end KeySet

end FieldQuery.Sql
