import FieldQuery.Compile.Settings

/-!
# Runs of compilations

What a compilation asks of the store when it is run, and how to reason about all its runs at once.

A *contract* says which questions may be put to the store and what is known of the answers. A
compilation that *ensures* a condition under a contract does so for all answers that the contract
allows, so one walk over the tree of questions settles every run: `Ensures.sound` carries it over
to the run on a backend, whatever the state of the backend.
-/

namespace FieldQuery.Compilation

open FieldQuery.Sql

variable {α β σ : Type}

/-! ## The plucks of a run -/

/-- A question to the store and the answer that it got. -/
structure Plucked where
  relation : Relation
  column : String
  answer : Except StorageError (List (Option Key))

/-- The plucks of a run in their order. -/
def plucks (backend : Backend σ) : Compilation α → σ → List Plucked
  | done _, _ => []
  | fail _, _ => []
  | lookup i next, s =>
    match backend.entity i s with
    | (.ok entity, s') => (next entity).plucks backend s'
    | (.error _, _) => []
  | pluck r c next, s =>
    match backend.pluck r c s with
    | (.ok column, s') => ⟨r, c, .ok column⟩ :: (next (.ofPlucked column)).plucks backend s'
    | (.error e, _) => [⟨r, c, .error e⟩]
  | count event next, s => next.plucks backend (backend.count event s)

/-! ## The states of a run -/

/-- The states that a backend comes to from a state by answering questions. -/
inductive Backend.Reached (backend : Backend σ) (s : σ) : σ → Prop where
  | refl : backend.Reached s s
  | entity {s₁ : σ} (identifier : String) (h : backend.Reached s s₁) :
      backend.Reached s (backend.entity identifier s₁).2
  | pluck {s₁ : σ} (r : Relation) (column : String) (h : backend.Reached s s₁) :
      backend.Reached s (backend.pluck r column s₁).2
  | count {s₁ : σ} (event : CompileEvent) (h : backend.Reached s s₁) :
      backend.Reached s (backend.count event s₁)

/-- What is reached from a reached state is reached. -/
theorem Backend.Reached.trans {backend : Backend σ} {s₀ s₁ s₂ : σ} (h₁ : backend.Reached s₀ s₁)
    (h₂ : backend.Reached s₁ s₂) : backend.Reached s₀ s₂ := by
  -- induction on the later steps, which are put behind the earlier ones
  induction h₂ with
  | refl => exact h₁
  | entity identifier _ ih => exact .entity identifier ih
  | pluck r column _ ih => exact .pluck r column ih
  | count event _ ih => exact .count event ih

/-- A run ends in a state that is reached. -/
theorem reached_run (backend : Backend σ) (x : Compilation α) (s : σ) :
    backend.Reached s (x.run backend s).2 := by
  induction x generalizing s with
  | done a => exact .refl
  | fail e => exact .refl
  | lookup i next ih =>
    have hstep : backend.Reached s (backend.entity i s).2 := .entity i .refl
    simp only [run]
    -- a failed question ends the run in the state it left
    rcases hfound : backend.entity i s with ⟨e | e, s'⟩ <;> rw [hfound] at hstep
    · exact hstep
    · exact hstep.trans (ih e s')
  | pluck r c next ih =>
    have hstep : backend.Reached s (backend.pluck r c s).2 := .pluck r c .refl
    simp only [run]
    rcases hanswer : backend.pluck r c s with ⟨e | answer, s'⟩ <;> rw [hanswer] at hstep
    · exact hstep
    · exact hstep.trans (ih _ s')
  | count event next ih => exact Backend.Reached.trans (.count event .refl) (ih _)

/-! ## Laws -/

private theorem bind_done (x : Compilation α) : x.bind done = x := by
  induction x with
  | done a => rfl
  | fail e => rfl
  | lookup i next ih => exact congrArg (lookup i) (funext ih)
  | pluck r c next ih => exact congrArg (pluck r c) (funext ih)
  | count e next ih => exact congrArg (count e) ih

private theorem bind_bind {γ : Type} (x : Compilation α) (f : α → Compilation β)
    (g : β → Compilation γ) :
    (x.bind f).bind g = x.bind fun a => (f a).bind g := by
  -- induction on the first computation: the continuations meet only at its end
  induction x with
  | done a => rfl
  | fail e => rfl
  | lookup i next ih => exact congrArg (lookup i) (funext ih)
  | pluck r c next ih => exact congrArg (pluck r c) (funext ih)
  | count e next ih => exact congrArg (count e) ih

instance : LawfulMonad Compilation :=
  LawfulMonad.mk' Compilation (fun x => bind_done x) (fun _ _ => rfl) bind_bind

/-! ## Runs and plucks of continued computations -/

variable {backend : Backend σ}

/-- A continued computation runs as its first part does, and then as the continuation. -/
theorem run_bind (x : Compilation α) (f : α → Compilation β) (s : σ) :
    (x >>= f).run backend s =
      match x.run backend s with
      | (.ok a, s') => (f a).run backend s'
      | (.error e, s') => (.error e, s') := by
  change (x.bind f).run backend s = _
  -- The state changes with every question, so it has to be arbitrary in the induction.
  induction x generalizing s with
  | done a => rfl
  | fail e => rfl
  | lookup i next ih =>
    simp only [bind, run]
    split
    · exact ih _ _
    · rfl
  | pluck r c next ih =>
    simp only [bind, run]
    split
    · exact ih _ _
    · rfl
  | count event next ih =>
    simp only [bind, run]
    exact ih _

/-- The plucks of a continued computation are those of its first part, and then, if that part comes
to a result, those of the continuation. -/
theorem plucks_bind (x : Compilation α) (f : α → Compilation β) (s : σ) :
    (x >>= f).plucks backend s =
      x.plucks backend s ++
        match x.run backend s with
        | (.ok a, s') => (f a).plucks backend s'
        | (.error _, _) => [] := by
  change (x.bind f).plucks backend s = _
  -- induction on the first computation: after a failed answer the second is never started
  induction x generalizing s with
  | done a => rfl
  | fail e => rfl
  | lookup i next ih =>
    simp only [bind, plucks, run]
    rcases backend.entity i s with ⟨e | e, s'⟩
    · rfl
    · exact ih e s'
  | pluck r c next ih =>
    simp only [bind, plucks, run]
    rcases backend.pluck r c s with ⟨e | answer, s'⟩
    · rfl
    · exact congrArg _ (ih _ s')
  | count event next ih =>
    simp only [bind, plucks, run]
    exact ih _

/-- What is done with a result changes nothing else of a run. -/
theorem run_map (f : α → β) (x : Compilation α) (s : σ) :
    (f <$> x).run backend s = ((x.run backend s).1.map f, (x.run backend s).2) := by
  rw [map_eq_pure_bind, run_bind]
  rcases x.run backend s with ⟨e | a, s'⟩ <;> rfl

/-- What is done with a result plucks nothing. -/
theorem plucks_map (f : α → β) (x : Compilation α) (s : σ) :
    (f <$> x).plucks backend s = x.plucks backend s := by
  rw [map_eq_pure_bind, plucks_bind]
  rcases x.run backend s with ⟨e | a, s'⟩ <;> exact List.append_nil _

/-- A continued computation has a result if its first part and the continuation have one. -/
theorem run_bind_eq_ok {x : Compilation α} {f : α → Compilation β} {s s'' : σ} {b : β} :
    (x >>= f).run backend s = (.ok b, s'') ↔
      ∃ a s', x.run backend s = (.ok a, s') ∧ (f a).run backend s' = (.ok b, s'') := by
  rw [run_bind]
  constructor
  · intro h
    split at h
    · next a s' hx => exact ⟨a, s', hx, h⟩
    · cases h
  · rintro ⟨a, s', hx, hf⟩
    rw [hx]
    exact hf

/-- If a continued computation has a result, so has its first part, and the continuation goes on
from there; the plucks of the continuation are among all plucks. -/
theorem exists_run_of_bind {x : Compilation α} {f : α → Compilation β} {s s'' : σ} {b : β}
    (h : (x >>= f).run backend s = (.ok b, s'')) :
    ∃ a s', x.run backend s = (.ok a, s') ∧ (f a).run backend s' = (.ok b, s'') ∧
      (f a).plucks backend s' ⊆ (x >>= f).plucks backend s := by
  obtain ⟨a, s', hx, hf⟩ := run_bind_eq_ok.mp h
  refine ⟨a, s', hx, hf, ?_⟩
  -- what is plucked before `f` stands in front of the plucks of `f`
  rw [plucks_bind, hx]
  exact List.subset_append_right _ _

/-- The plucks of the first step are among those of both. -/
theorem plucks_subset_bind {x : Compilation α} {f : α → Compilation β} {s : σ} :
    x.plucks backend s ⊆ (x >>= f).plucks backend s := by
  rw [plucks_bind]
  exact List.subset_append_left _ _

/-- A pluck is one. -/
theorem plucks_pluck_ne_nil {r : Relation} {column : String} {next : KeySet → Compilation α}
    {s : σ} : (pluck r column next).plucks backend s ≠ [] := by
  simp only [plucks]
  split <;> exact List.cons_ne_nil _ _

/-- A result without a question is handed on. -/
@[simp]
theorem ofExcept_ok_bind (a : α) (f : α → Compilation β) : (ofExcept (.ok a) >>= f) = f a := rfl

/-- A step without a question succeeds with its result, in the same state. -/
theorem run_ofExcept_eq_ok {result : Except QueryError α} {a : α} {s s' : σ} :
    (ofExcept result).run backend s = (.ok a, s') ↔ result = .ok a ∧ s' = s := by
  cases result with
  | ok b => simp [ofExcept, run, eq_comm]
  | error e => simp [ofExcept, run]

/-- A look-up succeeds exactly if the backend finds the entity. -/
theorem run_entity_eq_ok {identifier : String} {e : Entity} {s s' : σ} :
    (entity identifier).run backend s = (.ok e, s') ↔
      backend.entity identifier s = (.ok e, s') := by
  simp only [entity, run]
  split
  · next found s'' h => simp [h]
  · next error s'' h => simp [h]

/-- Every pluck of a run is answered by the backend. -/
theorem exists_answer_of_mem_plucks {x : Compilation α} {s : σ} {p : Plucked}
    (hp : p ∈ x.plucks backend s) :
    ∃ s', (backend.pluck p.relation p.column s').1 = p.answer := by
  -- induction on the computation: `p` is either what is plucked now, or comes after it
  induction x generalizing s with
  | done a => cases hp
  | fail e => cases hp
  | lookup i next ih =>
    simp only [plucks] at hp
    split at hp
    · exact ih _ hp
    · cases hp
  | pluck r c next ih =>
    simp only [plucks] at hp
    split at hp
    · next answer s' h =>
      rcases List.mem_cons.mp hp with rfl | hrest
      · exact ⟨s, by rw [h]⟩
      · exact ih _ hrest
    · next e s' h =>
      obtain rfl := List.mem_singleton.mp hp
      exact ⟨s, by rw [h]⟩
  | count event next ih => exact ih hp

/-! ## Contracts -/

/-- What may be asked of the store, and what is known of the answers. -/
structure Contract where
  /-- The entities that an identifier may lead to. -/
  entity : String → Entity → Prop := fun _ _ => True
  /-- The plucks that may be made. -/
  asks : Relation → String → Prop := fun _ _ => True
  /-- The values that the store may give for a pluck. -/
  answers : Relation → String → List (Option Key) → Prop := fun _ _ _ => True

/-- Whatever answers a contract allows, a computation keeps to its questions, and its result, if it
has one, satisfies a condition. -/
def Ensures (contract : Contract) (post : α → Prop) : Compilation α → Prop
  | done a => post a
  | fail _ => True
  | lookup i next => ∀ e, contract.entity i e → (next e).Ensures contract post
  | pluck r c next =>
    contract.asks r c ∧
      ∀ answer, contract.answers r c answer → (next (.ofPlucked answer)).Ensures contract post
  | count _ next => next.Ensures contract post

namespace Ensures

variable {contract : Contract} {post : α → Prop}

/-- A result keeps every contract. -/
theorem pure {a : α} (h : post a) : (Pure.pure a : Compilation α).Ensures contract post := h

/-- A failure keeps every contract, as no result follows. -/
theorem fail (e : QueryError) : (Compilation.fail e : Compilation α).Ensures contract post :=
  trivial

/-- A computation may be continued from all results that its first part ensures. -/
theorem bind {x : Compilation α} {f : α → Compilation β} {post' : β → Prop}
    (hx : x.Ensures contract post) (hf : ∀ a, post a → (f a).Ensures contract post') :
    (x >>= f).Ensures contract post' := by
  change (x.bind f).Ensures contract post'
  -- induction on the first computation, handing its result on where it is done
  induction x with
  | done a => exact hf a hx
  | fail e => trivial
  | lookup i next ih => exact fun e he => ih e (hx e he)
  | pluck r c next ih => exact ⟨hx.1, fun answer ha => ih _ (hx.2 answer ha)⟩
  | count event next ih => exact ih hx

/-- What is ensured may be weakened. -/
theorem mono {x : Compilation α} {post' : α → Prop} (hx : x.Ensures contract post)
    (h : ∀ a, post a → post' a) : x.Ensures contract post' := by
  induction x with
  | done a => exact h a hx
  | fail e => trivial
  | lookup i next ih => exact fun e he => ih e (hx e he)
  | pluck r c next ih => exact ⟨hx.1, fun answer ha => ih _ (hx.2 answer ha)⟩
  | count event next ih => exact ih hx

/-- Without a contract a computation may do anything. -/
theorem any (x : Compilation α) : x.Ensures {} fun _ => True := by
  induction x with
  | done a => trivial
  | fail e => trivial
  | lookup i next ih => exact fun e _ => ih e
  | pluck r c next ih => exact ⟨trivial, fun answer _ => ih _⟩
  | count event next ih => exact ih

/-- What is ensured of a result is ensured of what is made of it. -/
theorem map {x : Compilation α} {post' : β → Prop} (hx : x.Ensures contract post) {f : α → β}
    (hf : ∀ a, post a → post' (f a)) : (f <$> x).Ensures contract post' := by
  rw [map_eq_pure_bind]
  exact hx.bind hf

/-- A count keeps every contract. -/
theorem note {event : CompileEvent} : (Compilation.note event).Ensures contract fun _ => True :=
  trivial

/-- A look-up ensures what the contract says of the entities that are found. -/
theorem entity {identifier : String} (post : Entity → Prop)
    (h : ∀ e, contract.entity identifier e → post e) :
    (Compilation.entity identifier).Ensures contract post := h

/-- Keys ensure what the contract says of the answers, if it allows the question. -/
theorem keys {r : Relation} {column : String} {post : KeySet → Prop}
    (hasks : contract.asks r column)
    (h : ∀ answer, contract.answers r column answer → post (.ofPlucked answer)) :
    (Compilation.keys r column).Ensures contract post := ⟨hasks, h⟩

/-- A step that asks nothing ensures what its result has. -/
theorem ofExcept {result : Except QueryError α} (post : α → Prop)
    (h : ∀ a, result = .ok a → post a) :
    (Compilation.ofExcept result).Ensures contract post := by
  cases result with
  | ok a => exact h a rfl
  | error e => trivial

/-- On a backend that answers as the contract says, the result of a run satisfies the condition and
all its plucks are ones that may be made. -/
theorem sound {x : Compilation α} (hx : x.Ensures contract post) (s : σ)
    (hentity : ∀ i s₁ e s₂, backend.Reached s s₁ → backend.entity i s₁ = (.ok e, s₂) →
      contract.entity i e)
    (hanswers : ∀ p ∈ x.plucks backend s, ∀ answer, p.answer = .ok answer →
      contract.answers p.relation p.column answer) :
    (∀ a s', x.run backend s = (.ok a, s') → post a) ∧
      ∀ p ∈ x.plucks backend s, contract.asks p.relation p.column := by
  -- The answers of the run single out one branch of every question.
  induction x generalizing s with
  | done a =>
    refine ⟨?_, fun p hp => absurd hp List.not_mem_nil⟩
    intro b s' h
    cases h
    exact hx
  | fail e => exact ⟨nofun, fun p hp => absurd hp List.not_mem_nil⟩
  | lookup i next ih =>
    have hstep : backend.Reached s (backend.entity i s).2 := .entity i .refl
    simp only [plucks, run] at hanswers ⊢
    rcases he : backend.entity i s with ⟨e | e, s'⟩
    · exact ⟨nofun, fun p hp => absurd hp List.not_mem_nil⟩
    · simp only [he] at hanswers hstep ⊢
      exact ih e (hx e (hentity i s e s' .refl he)) s'
        (fun j s₁ e s₂ h => hentity j s₁ e s₂ (hstep.trans h)) hanswers
  | pluck r c next ih =>
    have hstep : backend.Reached s (backend.pluck r c s).2 := .pluck r c .refl
    simp only [plucks, run] at hanswers ⊢
    rcases he : backend.pluck r c s with ⟨e | answer, s'⟩
    · exact ⟨nofun, List.forall_mem_singleton.mpr hx.1⟩
    · simp only [he, List.forall_mem_cons] at hanswers hstep ⊢
      have hnext := ih _ (hx.2 answer (hanswers.1 answer rfl)) s'
        (fun j s₁ e s₂ h => hentity j s₁ e s₂ (hstep.trans h)) hanswers.2
      exact ⟨hnext.1, hx.1, hnext.2⟩
  | count event next ih =>
    exact ih hx (backend.count event s)
      (fun j s₁ e s₂ h => hentity j s₁ e s₂ (Backend.Reached.trans (.count event .refl) h)) hanswers

/-- What a computation ensures without a contract holds for the result of every run. -/
theorem of_run {x : Compilation α} {a : α} {s s' : σ} (hx : x.Ensures {} post)
    (h : x.run backend s = (.ok a, s')) : post a :=
  (hx.sound s (fun _ _ _ _ _ _ => trivial) fun _ _ _ _ => trivial).1 a s' h

end Ensures

end FieldQuery.Compilation

namespace FieldQuery.Compile

open FieldQuery.Catalog

/-! ## What has to be known to go on -/

/-- A target is there to be required exactly if the association has one. -/
theorem requireTarget_eq_ok {association : Association} {target : Target} :
    association.requireTarget = .ok target ↔ association.target? = some target := by
  unfold Association.requireTarget
  cases association.target? <;> simp

/-- An association is there to be required exactly if one was found. -/
theorem require_eq_ok {entity : Entity} {field : String} {found : Option Association}
    {association : Association} :
    entity.require field found = .ok association ↔ found = some association := by
  cases found <;> simp [Entity.require]

end FieldQuery.Compile
