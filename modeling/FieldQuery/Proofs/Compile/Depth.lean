import FieldQuery.Proofs.Compile.Chain

/-!
# The depth of an ordering

An ordering looks up all entities of its chain before it asks the store for anything. So a chain that
is too long is found out before the first pluck, and on every graph of associations an ordering is
done after a number of questions that the depth alone bounds.
-/

namespace FieldQuery

open FieldQuery.Compilation FieldQuery.Compile FieldQuery.Schema FieldQuery.Sql

variable {provider : Provider} {σ α β : Type}

/-! ## The questions of a run -/

namespace Compilation

variable {backend : Backend σ}

/-- The number of questions of a run: its look-ups, plucks and counts. -/
def questions (backend : Backend σ) : Compilation α → σ → Nat
  | done _, _ => 0
  | fail _, _ => 0
  | lookup i next, s =>
    match backend.entity i s with
    | (.ok entity, s') => (next entity).questions backend s' + 1
    | (.error _, _) => 1
  | pluck r c next, s =>
    match backend.pluck r c s with
    | (.ok column, s') => (next (.ofPlucked column)).questions backend s' + 1
    | (.error _, _) => 1
  | count event next, s => next.questions backend (backend.count event s) + 1

private theorem questions_bind (x : Compilation α) (f : α → Compilation β) (s : σ) :
    (x >>= f).questions backend s =
      x.questions backend s +
        match x.run backend s with
        | (.ok a, s') => (f a).questions backend s'
        | (.error _, _) => 0 := by
  change (x.bind f).questions backend s = _
  -- induction on the first computation: after a failed answer nothing of the second is asked
  induction x generalizing s with
  | done a => simp [bind, questions, run]
  | fail e => rfl
  | lookup i next ih =>
    simp only [bind, questions, run]
    rcases backend.entity i s with ⟨e | e, s'⟩
    · rfl
    · simp only [ih]
      rw [Nat.add_right_comm]
  | pluck r c next ih =>
    simp only [bind, questions, run]
    rcases backend.pluck r c s with ⟨e | answer, s'⟩
    · rfl
    · simp only [ih]
      rw [Nat.add_right_comm]
  | count event next ih =>
    simp only [bind, questions, run, ih]
    rw [Nat.add_right_comm]

private theorem questions_map (f : α → β) (x : Compilation α) (s : σ) :
    (f <$> x).questions backend s = x.questions backend s := by
  rw [map_eq_pure_bind, questions_bind]
  rcases x.run backend s with ⟨e | a, s'⟩ <;> rfl

variable {kind : Relation → Prop} {n : Nat} {x : Compilation α}

private theorem Plucks.questions_le (hx : x.Plucks kind n) (backend : Backend σ) (s : σ) :
    x.questions backend s ≤ n := by
  -- induction on the plucks: one that fails is still a question, and the last one
  induction hx generalizing s with
  | done _ a => exact Nat.zero_le _
  | fail _ he => exact Nat.zero_le _
  | @pluck n r c next _ _ ih =>
    simp only [questions]
    rcases backend.pluck r c s with ⟨e | answer, s'⟩
    · exact Nat.succ_le_succ (Nat.zero_le n)
    · exact Nat.succ_le_succ (ih _ s')

private theorem Plucks.run_ne_recursionLimit (hx : x.Plucks kind n) (backend : Backend σ) (s : σ)
    (depth : Nat) :
    (x.run backend s).1 ≠ .error (.recursionLimit depth) := by
  induction hx generalizing s with
  | done _ a =>
    intro h
    cases h
  | fail _ he =>
    intro h
    exact he depth (Except.error.inj h)
  -- its own failures are the pluck's, which are no recursion limits
  | @pluck n r c next _ _ ih =>
    simp only [run]
    rcases backend.pluck r c s with ⟨e | answer, s'⟩
    · intro h
      cases h
    · exact ih _ s'

end Compilation

/-! ## The length of a chain -/

namespace Place

/-- The place after a number of hops. -/
def after? (provider : Provider) : Nat → Place → Option Place
  | 0, place => some place
  | n + 1, place => (place.next? provider).bind (after? provider n)

/-- Whether more than `n` hops are made from a place. -/
def Exceeds (provider : Provider) (n : Nat) (place : Place) : Prop :=
  ∃ last, place.after? provider n = some last ∧ last.hop?.isSome

private theorem exceeds_zero {place : Place} : place.Exceeds provider 0 ↔ place.hop?.isSome := by
  simp [Exceeds, after?]

private theorem exceeds_succ {place : Place} {n : Nat} :
    place.Exceeds provider (n + 1) ↔
      ∃ next, place.next? provider = some next ∧ next.Exceeds provider n := by
  simp only [Exceeds, after?, Option.bind_eq_some_iff]
  constructor
  · rintro ⟨last, ⟨next, hnext, hlast⟩, hhop⟩
    exact ⟨next, hnext, last, hlast, hhop⟩
  · rintro ⟨next, hnext, last, hlast, hhop⟩
    exact ⟨last, ⟨next, hnext, hlast⟩, hhop⟩

private theorem not_exceeds_of_hop?_eq_none {place : Place} (h : place.hop? = none) (n : Nat) :
    ¬ place.Exceeds provider n := by
  cases n with
  | zero => simp [exceeds_zero, h]
  | succ n => simp [exceeds_succ, next?, h]

private theorem exceeds_succ_iff_next {place next : Place} {n : Nat}
    (hnext : place.next? provider = some next) :
    place.Exceeds provider (n + 1) ↔ next.Exceeds provider n := by
  rw [exceeds_succ, hnext]
  simp

end Place

/-! ## Orderings within their depth -/

namespace Compile

/-- An ordering with some levels left keeps to its depth: the levels bound its questions, and it
fails for its depth exactly if its chain makes more hops than that, without having plucked. -/
structure KeepsDepth (engine : Engine provider σ) (maxDepth levels : Nat) (place : Place) (s : σ)
    (x : Compilation α) : Prop where
  questions_le : x.questions engine.toBackend s ≤ 6 * levels + 1
  limit_iff : (x.run engine.toBackend s).1 = .error (.recursionLimit maxDepth) ↔
    place.Exceeds provider levels
  of_limit : ∀ depth, (x.run engine.toBackend s).1 = .error (.recursionLimit depth) →
    depth = maxDepth ∧ x.plucks engine.toBackend s = []

variable {engine : Engine provider σ} {maxDepth levels : Nat} {place : Place} {s : σ}

/-- What asks nothing but to be counted, and does not fail for its depth, keeps to it at the end of
a chain. -/
theorem KeepsDepth.stop {result : Except QueryError α} (event : CompileEvent)
    (hplace : place.hop? = none) (hresult : ∀ depth, result ≠ .error (.recursionLimit depth)) :
    KeepsDepth engine maxDepth levels place s (.count event (Compilation.ofExcept result)) := by
  -- nothing is asked, so the result is the one given in every state
  have hrun : ∀ s, ((Compilation.ofExcept result).run engine.toBackend s).1 = result := by
    intro s
    cases result <;> rfl
  constructor
  · cases result <;> simp [questions, Compilation.ofExcept]
  · refine ⟨fun hlimit => ?_, fun hexceeds => ?_⟩
    · exact absurd ((hrun _).symm.trans hlimit) (hresult _)
    · exact absurd hexceeds (Place.not_exceeds_of_hop?_eq_none hplace levels)
  · intro depth hlimit
    exact absurd ((hrun _).symm.trans hlimit) (hresult depth)

/-- At the end of the levels an ordering that would go on fails at once. -/
theorem KeepsDepth.beyond (event : CompileEvent) (hplace : place.hop?.isSome) :
    KeepsDepth engine maxDepth 0 place s
      (.count event (.fail (.recursionLimit maxDepth)) : Compilation α) := by
  constructor
  · exact Nat.le_refl 1
  · rw [Place.exceeds_zero]
    simp [run, hplace]
  · -- the only failure is the one at the limit, which asks nothing
    intro depth hlimit
    injection hlimit with hlimit
    injection hlimit with hlimit
    exact ⟨hlimit.symm, rfl⟩

variable {event : CompileEvent} {identifier : String} {s' : σ}

/-- A target that is not found ends the chain. -/
theorem KeepsDepth.missing {next : Entity → Compilation α} {e : QueryError}
    (hnext : place.next? provider = none)
    (hfound : engine.entity identifier (engine.count event s) = (.error e, s'))
    (he : ∀ depth, e ≠ .recursionLimit depth) :
    KeepsDepth engine maxDepth (levels + 1) place s (.count event (.lookup identifier next)) := by
  -- the lookup was one question, and its failure is not the one at the limit
  constructor
  · simp only [questions, hfound]
    omega
  · rw [Place.exceeds_succ, hnext]
    simp [run, hfound, he maxDepth]
  · intro depth hlimit
    simp only [run, hfound] at hlimit
    exact absurd (Except.error.inj hlimit) (he depth)

/-- One level: the ordering of the target keeps to the levels that are left, and carrying back
neither asks for more than four plucks nor fails for the depth. -/
theorem KeepsDepth.follow {next : Place} {found : Entity} {x : Entity → Compilation β}
    {carry : Entity → β → Compilation α} {kind : Relation → Prop}
    (hnext : place.next? provider = some next)
    (hfound : engine.entity identifier (engine.count event s) = (.ok found, s'))
    (hcarry : ∀ own, (carry found own).Plucks kind 4)
    (hx : KeepsDepth engine maxDepth levels next s' (x found)) :
    KeepsDepth engine maxDepth (levels + 1) place s
      (.count event (.lookup identifier fun found => x found >>= carry found)) := by
  -- The run is the one of the target, continued by carrying back only if that one has a result.
  have hlimit : ∀ depth, ((x found >>= carry found).run engine.toBackend s').1 =
        .error (.recursionLimit depth) ↔
      ((x found).run engine.toBackend s').1 = .error (.recursionLimit depth) := by
    intro depth
    rw [run_bind]
    rcases (x found).run engine.toBackend s' with ⟨e | own, s''⟩
    · simp
    · have hne := (hcarry own).run_ne_recursionLimit engine.toBackend s'' depth
      simp [hne]
  constructor
  · have hquestions := hx.questions_le
    simp only [questions, hfound, questions_bind]
    rcases (x found).run engine.toBackend s' with ⟨e | own, s''⟩
    · dsimp only
      omega
    · -- The count, the look-up and four plucks are the six questions of this level.
      have hfour := (hcarry own).questions_le engine.toBackend s''
      dsimp only
      omega
  · simp only [run, hfound]
    rw [hlimit, Place.exceeds_succ_iff_next hnext]
    exact hx.limit_iff
  · intro depth h
    simp only [run, hfound] at h
    have hfailed := (hlimit depth).mp h
    obtain ⟨hdepth, hplucks⟩ := hx.of_limit depth hfailed
    refine ⟨hdepth, ?_⟩
    simp only [plucks, hfound, plucks_bind, hplucks, List.nil_append]
    rcases hrun : (x found).run engine.toBackend s' with ⟨e | own, s''⟩
    · rfl
    · rw [hrun] at hfailed
      cases hfailed

/-- What is made of a result does not matter. -/
theorem KeepsDepth.map {x : Compilation α} (hx : KeepsDepth engine maxDepth levels place s x)
    (f : α → β) : KeepsDepth engine maxDepth levels place s (f <$> x) := by
  -- mapping a result touches no failure
  have hlimit : ∀ depth, ((f <$> x).run engine.toBackend s).1 = .error (.recursionLimit depth) ↔
      (x.run engine.toBackend s).1 = .error (.recursionLimit depth) := by
    intro depth
    rw [run_map]
    cases (x.run engine.toBackend s).1 <;> simp [Except.map]
  constructor
  · rw [questions_map]
    exact hx.questions_le
  · rw [hlimit]
    exact hx.limit_iff
  · intro depth h
    rw [plucks_map]
    exact hx.of_limit depth ((hlimit depth).mp h)

/-- Whatever follows a chain keeps to its depth. -/
theorem Descends.keepsDepth {settings : Settings} {limit : Option Nat}
    {x : Compilation (List Fragment)} (h : Descends engine settings limit levels place s x) :
    KeepsDepth engine settings.maxDepth levels place s x := by
  -- each kind of step of the descent keeps the depth in its own way
  induction h with
  | stop event hplace hresult => exact .stop event hplace hresult
  | beyond event hplace => exact .beyond event hplace
  | missing hnext hfound he => exact .missing hnext hfound he
  | follow hplace hnext hfound hcarry hx ih =>
    have hplucks := fun own => (hcarry own).plucks (fun _ => Heads.capped) fun _ => Limited.capped
    exact .follow hnext hfound hplucks ih

/-- Every ordering on an engine, whatever its executor answers, is done after at most six questions
for each level of the depth, and one more. It fails for its depth exactly if the chain from its field
makes more hops than that, and then it has asked the store for nothing. -/
theorem order_fails_beyond_depth (engine : Engine provider σ) (compiler : Compiler)
    (bound : Relation) (field : String) (direction : Direction) (options : OrderOptions) (s : σ) :
    let request := (compiler.bind bound).order field direction options
    let maxDepth := compiler.settings.maxDepth
    let start := Place.start (engine.cache s) compiler.entity field options
    let result := (request.run engine.toBackend s).1
    request.questions engine.toBackend s ≤ 6 * maxDepth + 1 ∧
      (result = .error (.recursionLimit maxDepth) ↔ start.Exceeds provider maxDepth) ∧
      ∀ depth, result = .error (.recursionLimit depth) →
        depth = maxDepth ∧ request.plucks engine.toBackend s = [] := by
  intro request maxDepth start result
  have hclauses := (descends_orderClauses engine compiler.settings maxDepth compiler.entity field
    direction options s).keepsDepth
  -- adding the terms to the relation changes neither questions nor failures
  have hrequest : KeepsDepth engine maxDepth maxDepth start s request := by
    rw [show request = _ from Compiler.order_bind compiler bound field direction options]
    exact hclauses.map _
  exact ⟨hrequest.questions_le, hrequest.limit_iff, hrequest.of_limit⟩

/-- Categories that are ordered by their parents, which are categories again. -/
def categories : Provider :=
  (Registry.ofList [{
    typeName := "Category"
    associations := [{ name := "parent", kind := .belongsTo, className := some "Category" }]
    defaultSort := some "parent" }]).provider fun _ _ => none

example :
    ((Entity.load categories "category").bind fun category =>
      (((Compiler.all ⟨.sqlite, 1000, 3⟩ category).order "parent" .ascending {}).run
        (Workspace.backend categories) {}).1) = .error (.recursionLimit 3) := by
  decide +kernel

end Compile

end FieldQuery
