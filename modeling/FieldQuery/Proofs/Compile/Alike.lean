import FieldQuery.Proofs.Compile.Trace
import FieldQuery.Proofs.Sql.KeySets

/-!
# Compilations that are alike

Two compilations are alike if they ask for the same entities, pluck relations whose statements have
the same text, and go on alike whenever they get the same number of keys. On backends that know the
same entities, their runs can be told apart only by the numbers of keys: as long as these agree, so
do the texts of the plucks, and if they agree to the end, the results are related.
-/

namespace FieldQuery

open FieldQuery.Sql

/-! ## Relations of the same text -/

namespace Sql

/-- Two relations that differ in nothing but the parameters of their fragments. -/
structure Relation.SameText (r r' : Relation) : Prop where
  table : r.table = r'.table
  joins : r.joins = r'.joins
  conditions : r.conditions.map (·.sql) = r'.conditions.map (·.sql)
  groups : r.groups = r'.groups
  havings : r.havings.map (·.sql) = r'.havings.map (·.sql)
  orders : r.orders.map (·.sql) = r'.orders.map (·.sql)
  limit : r.limit = r'.limit

namespace Relation.SameText

variable {r r' : Relation}

/-- A relation has the same text as itself. -/
theorem refl (r : Relation) : r.SameText r :=
  ⟨rfl, rfl, rfl, rfl, rfl, rfl, rfl⟩

/-- Conditions of the same text keep relations of the same text. -/
theorem filter (h : r.SameText r') {f f' : Fragment} (hf : f.sql = f'.sql) :
    (r.filter f).SameText (r'.filter f') := by
  have hconditions :
      (r.filter f).conditions.map (·.sql) = (r'.filter f').conditions.map (·.sql) := by
    simp [Relation.filter, h.conditions, hf]
  exact { h with conditions := hconditions }

/-- Orderings of the same texts keep relations of the same text. -/
theorem orderBy (h : r.SameText r') {fs fs' : List Fragment}
    (hfs : fs.map (·.sql) = fs'.map (·.sql)) : (r.orderBy fs).SameText (r'.orderBy fs') := by
  have horders : (r.orderBy fs).orders.map (·.sql) = (r'.orderBy fs').orders.map (·.sql) := by
    simp [Relation.orderBy, h.orders, hfs]
  exact { h with orders := horders }

/-- A limit keeps relations of the same text. -/
theorem take (h : r.SameText r') (n : Nat) : (r.take n).SameText (r'.take n) :=
  { h with limit := rfl }

private theorem conjunction_congr {conditions conditions' : List Fragment}
    (h : conditions.map (·.sql) = conditions'.map (·.sql)) :
    conjunction conditions = conjunction conditions' := by
  have hwrapped : ∀ fs : List Fragment, (fs.map fun c => "(" ++ c.sql ++ ")") =
      (fs.map (·.sql)).map fun text => "(" ++ text ++ ")" := fun fs => by simp
  have hlength : conditions.length = conditions'.length := by
    simpa using congrArg List.length h
  -- none, one or several conditions are written differently, and the texts agree on which it is
  match conditions, conditions' with
  | [], [] => rfl
  | [f], [f'] => exact (List.cons.inj h).1
  | _ :: _ :: _, _ :: _ :: _ => simp only [conjunction, hwrapped, h]
  | [], _ :: _ | _ :: _, [] | [_], _ :: _ :: _ | _ :: _ :: _, [_] => simp at hlength

private theorem clause_congr {keyword : String} (body : List Fragment → String) {fs fs' : List Fragment}
    (h : fs.map (·.sql) = fs'.map (·.sql)) (hbody : body fs = body fs') :
    clause keyword body fs = clause keyword body fs' := by
  have hempty : fs.isEmpty = fs'.isEmpty := by
    simpa using congrArg List.isEmpty h
  simp only [clause, hempty, hbody]

/-- The text of a statement does not depend on parameters. -/
theorem selectText_eq (h : r.SameText r') (projection : String) :
    r.selectText projection = r'.selectText projection := by
  -- every clause is a function of the texts of its fragments
  have hwhere : clause " WHERE " conjunction r.conditions =
      clause " WHERE " conjunction r'.conditions :=
    clause_congr conjunction h.conditions (conjunction_congr h.conditions)
  have hhaving : clause " HAVING " conjunction r.havings =
      clause " HAVING " conjunction r'.havings :=
    clause_congr conjunction h.havings (conjunction_congr h.havings)
  have horder : clause " ORDER BY " (fun os => ", ".intercalate (os.map (·.sql))) r.orders =
      clause " ORDER BY " (fun os => ", ".intercalate (os.map (·.sql))) r'.orders :=
    clause_congr (fun os => ", ".intercalate (os.map (·.sql))) h.orders (congrArg _ h.orders)
  unfold selectText
  rw [h.table, h.joins, hwhere, h.groups, hhaving, horder, h.limit]

/-- Statements of relations of the same text have the same text in every dialect. -/
theorem statement_sql_eq (h : r.SameText r') (dialect : Dialect) (projection : String) :
    (r.statement dialect projection).sql = (r'.statement dialect projection).sql := by
  simp only [statement, h.selectText_eq projection]

end Relation.SameText

end Sql

/-! ## Key sets of the same number of keys -/

namespace Sql.KeySet

variable {keys keys' : KeySet}

end Sql.KeySet

namespace Compilation

variable {α β : Type}

/-! ## Alike compilations -/

/-- Two compilations that differ only in parameters, as long as they get the same numbers of keys;
results that they come to are related. -/
inductive Alike (related : α → α → Prop) : Compilation α → Compilation α → Prop where
  | done {a a' : α} (h : related a a') : Alike related (.done a) (.done a')
  | fail (e e' : QueryError) : Alike related (.fail e) (.fail e')
  | lookup (identifier : String) {next next' : Entity → Compilation α}
      (h : ∀ entity, Alike related (next entity) (next' entity)) :
      Alike related (.lookup identifier next) (.lookup identifier next')
  | pluck {r r' : Relation} (column : String) {next next' : KeySet → Compilation α}
      (hr : r.SameText r')
      (h : ∀ keys keys' : KeySet, keys.size = keys'.size →
        Alike related (next keys) (next' keys')) :
      Alike related (.pluck r column next) (.pluck r' column next')
  | count (event event' : CompileEvent) {next next' : Compilation α}
      (h : Alike related next next') :
      Alike related (.count event next) (.count event' next')

namespace Alike

variable {related : α → α → Prop}

/-- Compilations that are alike, followed by ones that are, are alike. -/
theorem bind {related' : β → β → Prop} {x x' : Compilation α} {f f' : α → Compilation β}
    (hx : Alike related x x') (hf : ∀ a a', related a a' → Alike related' (f a) (f' a')) :
    Alike related' (x >>= f) (x' >>= f') := by
  change Alike related' (x.bind f) (x'.bind f')
  -- induction on how the two runs go side by side; both go on with the same question
  induction hx with
  | done h => exact hf _ _ h
  | fail e e' => exact .fail e e'
  | lookup identifier _ ih => exact .lookup identifier ih
  | pluck column hr _ ih => exact .pluck column hr ih
  | count event event' _ ih => exact .count event event' ih

/-- Related results are alike. -/
theorem pure {a a' : α} (h : related a a') : Alike related (Pure.pure a) (Pure.pure a') :=
  .done h

/-- Plucks from relations of the same text are alike: as many keys may follow. -/
theorem keys {r r' : Relation} (column : String) (hr : r.SameText r') :
    Alike (fun keys keys' : KeySet => keys.size = keys'.size)
      (Compilation.keys r column) (Compilation.keys r' column) :=
  .pluck column hr fun _ _ h => .done h

/-- Counts are alike, whatever is counted. -/
theorem note (event event' : CompileEvent) :
    Alike (fun _ _ => True) (Compilation.note event) (Compilation.note event') :=
  .count event event' (.done trivial)

/-- Without questions to the store and without parameters, a computation is like itself. -/
theorem entity (identifier : String) :
    Alike (fun found found' => found = found') (Compilation.entity identifier)
      (Compilation.entity identifier) :=
  .lookup identifier fun _ => .done rfl

/-- A step that asks nothing is alike to itself. -/
theorem ofExcept (result : Except QueryError α) :
    Alike (fun a a' => a = a') (Compilation.ofExcept result) (Compilation.ofExcept result) := by
  cases result with
  | ok a => exact .done rfl
  | error e => exact .fail e e

end Alike

/-! ## Runs that can be told apart only by numbers of keys -/

variable {σ σ' : Type}

/-- A backend that knows given entities, whatever it was asked before, as long as it starts in a
state of a given kind. -/
structure Backend.Serves (backend : Backend σ) (found : String → Except QueryError Entity)
    (inv : σ → Prop) : Prop where
  entity : ∀ identifier s, inv s →
    (backend.entity identifier s).1 = found identifier ∧ inv (backend.entity identifier s).2
  pluck : ∀ r column s, inv s → inv (backend.pluck r column s).2
  count : ∀ event s, inv s → inv (backend.count event s)

/-- The text of the statement of a pluck. -/
def Plucked.text (dialect : Dialect) (p : Plucked) : String :=
  (p.relation.statement dialect p.column).sql

/-- The number of keys that a pluck gave, if it did not fail. -/
def Plucked.size (p : Plucked) : Option Nat :=
  match p.answer with
  | .ok column => some (KeySet.ofPlucked column).size
  | .error _ => none

private theorem error_ne_ok {e : QueryError} {a : α} {s s' : σ} :
    ((.error e, s) : Except QueryError α × σ) ≠ (.ok a, s') := by
  simp

/-- As long as the numbers of keys agree, so do the texts of the plucks, and that of the next one;
if all of them agree, the results are related. -/
theorem Alike.runs {related : α → α → Prop} {x x' : Compilation α} (h : Alike related x x')
    {backend : Backend σ} {backend' : Backend σ'} {found : String → Except QueryError Entity}
    {inv : σ → Prop} {inv' : σ' → Prop} (hserves : backend.Serves found inv)
    (hserves' : backend'.Serves found inv') {s : σ} {s' : σ'} (hs : inv s) (hs' : inv' s')
    (dialect : Dialect) :
    (∀ n, ((x.plucks backend s).map Plucked.size).take n =
        ((x'.plucks backend' s').map Plucked.size).take n →
      ((x.plucks backend s).map (Plucked.text dialect)).take (n + 1) =
        ((x'.plucks backend' s').map (Plucked.text dialect)).take (n + 1)) ∧
    ((x.plucks backend s).map Plucked.size = (x'.plucks backend' s').map Plucked.size →
      ∀ a a' t t', x.run backend s = (.ok a, t) → x'.run backend' s' = (.ok a', t') →
        related a a') := by
  induction h generalizing s s' with
  | done h =>
    refine ⟨fun _ _ => rfl, fun _ a a' t t' ha ha' => ?_⟩
    cases ha
    cases ha'
    exact h
  | fail e e' => exact ⟨fun _ _ => rfl, fun _ _ _ _ _ ha => absurd ha error_ne_ok⟩
  | @lookup identifier next next' _ ih =>
    obtain ⟨hfound, hnext⟩ := hserves.entity identifier s hs
    obtain ⟨hfound', hnext'⟩ := hserves'.entity identifier s' hs'
    rcases hstep : backend.entity identifier s with ⟨result, s₁⟩
    rcases hstep' : backend'.entity identifier s' with ⟨result', s₁'⟩
    simp only [hstep, hstep'] at hfound hfound' hnext hnext'
    subst hfound hfound'
    simp only [plucks, run, hstep, hstep']
    cases found identifier with
    | ok entity => exact ih entity hnext hnext'
    | error e => exact ⟨fun _ _ => rfl, fun _ _ _ _ _ ha => absurd ha error_ne_ok⟩
  | @pluck r r' column next next' hr _ ih =>
    have hnext := hserves.pluck r column s hs
    have hnext' := hserves'.pluck r' column s' hs'
    have htext : (r.statement dialect column).sql = (r'.statement dialect column).sql :=
      hr.statement_sql_eq dialect column
    rcases hstep : backend.pluck r column s with ⟨answer, s₁⟩
    rcases hstep' : backend'.pluck r' column s' with ⟨answer', s₁'⟩
    simp only [hstep, hstep'] at hnext hnext'
    simp only [plucks, run, hstep, hstep']
    -- The texts of this pluck agree in any case. If one of the answers is an error, the run ends.
    cases answer with
    | error e =>
      cases answer' with
      | error e' =>
        refine ⟨fun n _ => ?_, fun _ _ _ _ _ ha => absurd ha error_ne_ok⟩
        simp only [List.map_cons, List.map_nil, Plucked.text, htext]
      | ok values' =>
        refine ⟨fun n hn => ?_, fun _ _ _ _ _ ha => absurd ha error_ne_ok⟩
        cases n with
        | zero => simp [Plucked.text, htext]
        | succ n => simp [Plucked.size] at hn
    | ok values =>
      cases answer' with
      | error e' =>
        refine ⟨fun n hn => ?_, fun _ _ _ _ _ _ ha' => absurd ha' error_ne_ok⟩
        cases n with
        | zero => simp [Plucked.text, htext]
        | succ n => simp [Plucked.size] at hn
      | ok values' =>
        simp only [List.map_cons]
        refine ⟨fun n hn => ?_, fun hsizes => ?_⟩
        · cases n with
          | zero => simp [Plucked.text, htext]
          | succ n =>
            rw [List.take_succ_cons, List.take_succ_cons, List.cons.injEq] at hn
            have hsize := Option.some.inj hn.1
            rw [List.take_succ_cons, List.take_succ_cons, (ih _ _ hsize hnext hnext').1 n hn.2]
            simp only [Plucked.text, htext]
        · rw [List.cons.injEq] at hsizes
          have hsize := Option.some.inj hsizes.1
          exact (ih _ _ hsize hnext hnext').2 hsizes.2
  | @count event event' next next' _ ih =>
    exact ih (hserves.count event s hs) (hserves'.count event' s' hs')

end Compilation

end FieldQuery
