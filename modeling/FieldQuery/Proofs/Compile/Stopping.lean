import FieldQuery.Proofs.Compile.Carrying

/-!
# Plucks without keys

A compilation *stops at* a result if a pluck that gives no key is the last thing that it asks, and
it ends in that result. Carrying keys back to an owner stops at the empty key set, so nothing is
looked up for keys that are not there, and no link turns their absence into an error.
-/

namespace FieldQuery.Compilation

open FieldQuery.Sql

variable {α β σ : Type}

/-! ## Silent compilations -/

/-- A computation without plucks. -/
def Silent : Compilation α → Prop
  | done _ => True
  | fail _ => True
  | lookup _ next => ∀ e, (next e).Silent
  | pluck _ _ _ => False
  | count _ next => next.Silent

/-- A computation that has the result `a` as soon as a pluck of it gives no key. -/
def StopsAt (a : α) : Compilation α → Prop
  | done _ => True
  | fail _ => True
  | lookup _ next => ∀ e, (next e).StopsAt a
  | pluck _ _ next => next .empty = done a ∧ ∀ keys, (next keys).StopsAt a
  | count _ next => next.StopsAt a

/-- A step that asks nothing plucks nothing. -/
theorem Silent.ofExcept (result : Except QueryError α) : (Compilation.ofExcept result).Silent := by
  cases result <;> trivial

/-- A count plucks nothing. -/
theorem Silent.note (event : CompileEvent) : (Compilation.note event).Silent :=
  trivial

/-- A look-up plucks nothing. -/
theorem Silent.entity (identifier : String) : (Compilation.entity identifier).Silent :=
  fun _ => trivial

/-- Steps without plucks have none together. -/
theorem Silent.bind {x : Compilation α} {f : α → Compilation β} (hx : x.Silent)
    (hf : ∀ a, (f a).Silent) : (x >>= f).Silent := by
  change (x.bind f).Silent
  -- induction on the first computation, which has no pluck either
  induction x with
  | done a => exact hf a
  | fail e => trivial
  | lookup i next ih => exact fun e => ih e (hx e)
  | pluck r c next ih => exact hx.elim
  | count event next ih => exact ih hx

/-- What comes before the first pluck does not matter. -/
theorem Silent.bind_stopsAt {x : Compilation α} {f : α → Compilation β} {b : β} (hx : x.Silent)
    (hf : ∀ a, (f a).StopsAt b) : (x >>= f).StopsAt b := by
  change (x.bind f).StopsAt b
  induction x with
  | done a => exact hf a
  | fail e => trivial
  | lookup i next ih => exact fun e => ih e (hx e)
  | pluck r c next ih => exact hx.elim
  | count event next ih => exact ih hx

namespace StopsAt

variable {x : Compilation α} {f : α → Compilation β} {a : α} {b : β}

/-- Keys stop with the empty set if the answer has no key. -/
theorem keys (r : Relation) (column : String) : (Compilation.keys r column).StopsAt .empty :=
  ⟨rfl, fun _ => trivial⟩

/-- If a computation stops at a result from which the continuation has one at once, then the whole
stops there. -/
theorem bind (hx : x.StopsAt a) (ha : f a = done b) (hf : ∀ a, (f a).StopsAt b) :
    (x >>= f).StopsAt b := by
  change (x.bind f).StopsAt b
  -- induction on the computation: an empty answer ends it with `a`, and so the whole with `b`
  induction x with
  | done a => exact hf a
  | fail e => trivial
  | lookup i next ih => exact fun e => ih e (hx e)
  | pluck r c next ih =>
    obtain ⟨hempty, hnext⟩ := hx
    have hstop : (next .empty).bind f = done b := by rw [hempty]; exact ha
    exact ⟨hstop, fun keys => ih keys (hnext keys)⟩
  | count event next ih => exact ih hx

/-- A step that stops does so with what is made of its result. -/
theorem map (hx : x.StopsAt a) (f : α → β) : (f <$> x).StopsAt (f a) := by
  rw [map_eq_pure_bind]
  exact hx.bind rfl fun _ => trivial

end StopsAt

/-! ## Runs -/

/-- A pluck was answered, and there is no key among the values. -/
def Plucked.GivesNoKey (p : Plucked) : Prop :=
  ∃ values, p.answer = .ok values ∧ ∀ value ∈ values, value = none

private theorem ofPlucked_eq_empty {values : List (Option Key)} (h : ∀ value ∈ values, value = none) :
    KeySet.ofPlucked values = .empty := by
  have hnone : values.filterMap id = [] := by
    rw [List.filterMap_eq_nil_iff]
    exact h
  rw [KeySet.ofPlucked, hnone]
  rfl

variable {backend : Backend σ}

/-- A compilation without plucks has none in any run. -/
theorem Silent.plucks_eq_nil {x : Compilation α} (hx : x.Silent) (s : σ) :
    x.plucks backend s = [] := by
  -- induction on the computation, which has no pluck to ask
  induction x generalizing s with
  | done a => rfl
  | fail e => rfl
  | lookup i next ih =>
    simp only [plucks]
    split
    · exact ih _ (hx _) _
    · rfl
  | pluck r c next ih => exact hx.elim
  | count event next ih => exact ih hx _

/-- In a run, a pluck that gives no key is the last one, and the result is the one that the
computation stops at. -/
theorem StopsAt.sound {x : Compilation α} {a : α} (hx : x.StopsAt a) {s : σ}
    {before after : List Plucked} {p : Plucked} (hp : p.GivesNoKey)
    (h : x.plucks backend s = before ++ p :: after) :
    after = [] ∧ (x.run backend s).1 = .ok a := by
  induction x generalizing s before with
  | done _ => simp [plucks] at h
  | fail e => simp [plucks] at h
  | lookup i next ih =>
    simp only [plucks, run] at h ⊢
    rcases hfound : backend.entity i s with ⟨e | e, s'⟩
    · simp [hfound] at h
    · simp only [hfound] at h ⊢
      exact ih e (hx e) h
  | pluck r c next ih =>
    obtain ⟨hempty, hnext⟩ := hx
    simp only [plucks, run] at h ⊢
    rcases hvalues : backend.pluck r c s with ⟨e | values, s'⟩
    · -- The store failed, which is no answer without keys.
      simp only [hvalues] at h
      have hmem : p ∈ [Plucked.mk r c (.error e)] := h ▸ by simp
      obtain rfl := List.mem_singleton.mp hmem
      obtain ⟨_, hanswer, -⟩ := hp
      cases hanswer
    · simp only [hvalues] at h ⊢
      cases before with
      | nil =>
        obtain ⟨rfl, hafter⟩ := List.cons.inj h
        obtain ⟨values', hanswer, hnone⟩ := hp
        obtain rfl := Except.ok.inj hanswer
        rw [ofPlucked_eq_empty hnone, hempty] at hafter ⊢
        exact ⟨hafter.symm, rfl⟩
      | cons first rest => exact ih _ (hnext _) (List.cons.inj h).2
  | count event next ih => exact ih hx h

end FieldQuery.Compilation

namespace FieldQuery.Compile

open FieldQuery.Catalog FieldQuery.Compilation FieldQuery.Sql

variable {settings : Settings} {purpose : Purpose}

/-! ## Carrying back -/

private theorem throughJoinTable_stopsAt (table targetKey ownerKey : String) (targets : KeySet) :
    (throughJoinTable settings purpose table targetKey ownerKey targets).StopsAt .empty := by
  unfold throughJoinTable
  split
  · trivial
  · exact .keys _ _

private theorem keysBack_stopsAt (link : Link) (target : Target) (rows : Relation) :
    (keysBack settings purpose link target rows).StopsAt .empty := by
  unfold keysBack
  split
  · exact .keys _ _
  · exact .keys _ _
  · exact .keys _ _
  · -- through a join table the second pluck is not made when the first gave nothing
    exact (StopsAt.keys _ _).bind rfl fun keys => throughJoinTable_stopsAt _ _ _ keys

/-- Whatever the kinds of the links, the owner has no keys to compare with once a pluck gives
none. -/
theorem correlate_stopsAt (owner target : Target) (rows : Relation) (association : Association) :
    (correlate settings purpose owner target rows association).StopsAt
      (qualified owner.table (association.ownColumn owner), .empty) := by
  -- what every way ends with when its last pluck gave nothing
  have hdone : ∀ link : Link, (pure (ownerColumn owner link, KeySet.empty) : Compilation _) =
      .done (qualified owner.table (link.ownColumn owner), KeySet.empty) :=
    fun link => congrArg (fun column => Compilation.done (column, KeySet.empty)) ownerColumn_eq
  refine correlate_cases (motive := fun association way =>
    (way rows).StopsAt (qualified owner.table (association.ownColumn owner), .empty)) ?step ?two ?unsupported association
  case step => exact fun link => (keysBack_stopsAt link target _).bind (hdone link) fun _ => trivial
  case two =>
    intro _ _ via source _ _ middle _
    refine (keysBack_stopsAt source target _).bind (hdone via) fun found => ?_
    split
    · trivial
    · exact (keysBack_stopsAt via middle _).bind (hdone via) fun _ => trivial
  case unsupported => exact fun _ _ _ => trivial

end FieldQuery.Compile
