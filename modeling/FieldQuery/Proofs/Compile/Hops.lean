import FieldQuery.Proofs.Compile.Ranking
import FieldQuery.Proofs.Compile.Series
import FieldQuery.Proofs.Compile.Stopping

/-!
# Hops of an ordering

An ordering by an association or by addresses first orders the rows of another entity, and then
carries their keys back. Carrying back asks for no entity: it consists of at most four plucks, the
first of them from the ordered rows themselves, and each of them is limited. It stops at a pluck
that gives no key.
-/

namespace FieldQuery

open FieldQuery.Catalog FieldQuery.Compile FieldQuery.Sql

/-! ## Compilations that only pluck -/

namespace Compilation

variable {α β σ : Type}

/-- At most `n` plucks of relations of one kind, and no question besides. An error is none of
depth. -/
inductive Plucks (kind : Relation → Prop) : Nat → Compilation α → Prop where
  | done (n : Nat) (a : α) : Plucks kind n (.done a)
  | fail (n : Nat) {e : QueryError} (h : ∀ depth, e ≠ .recursionLimit depth) :
    Plucks kind n (.fail e)
  | pluck {n : Nat} {r : Relation} {column : String} {next : KeySet → Compilation α}
    (hr : kind r) (hnext : ∀ keys, Plucks kind n (next keys)) :
    Plucks kind (n + 1) (.pluck r column next)

/-- A first pluck and at most `n` further ones; or an error that is none of depth. -/
inductive Begins (first kind : Relation → Prop) (n : Nat) : Compilation α → Prop where
  | fail {e : QueryError} (h : ∀ depth, e ≠ .recursionLimit depth) : Begins first kind n (.fail e)
  | pluck {r : Relation} {column : String} {next : KeySet → Compilation α}
    (hr : first r) (hnext : ∀ keys, Plucks kind n (next keys)) :
    Begins first kind n (.pluck r column next)

variable {first kind : Relation → Prop} {m n : Nat} {x : Compilation α} {f : α → Compilation β}

/-- Plucks of one kind are plucks of a wider one. -/
theorem Plucks.imp {kind' : Relation → Prop} (hx : x.Plucks kind n)
    (hkind : ∀ r, kind r → kind' r) : x.Plucks kind' n := by
  induction hx with
  | done n a => exact .done n a
  | fail n he => exact .fail n he
  | pluck hr _ ih => exact .pluck (hkind _ hr) ih

/-- A bound on the number of plucks may be raised. -/
theorem Plucks.mono (hx : x.Plucks kind m) (h : m ≤ n) : x.Plucks kind n := by
  -- induction on the plucks: each takes one off the number, so there is one to spare for the rest
  induction hx generalizing n with
  | done _ a => exact .done n a
  | fail _ he => exact .fail n he
  | pluck hr _ ih =>
    cases n with
    | zero => cases h
    | succ n => exact .pluck hr fun keys => ih keys (Nat.le_of_succ_le_succ h)

/-- The plucks of two steps are counted together. -/
theorem Plucks.bind (hx : x.Plucks kind m) (hf : ∀ a, (f a).Plucks kind n) :
    (x >>= f).Plucks kind (m + n) := by
  -- induction on the plucks of the first computation, before which those of the second do not start
  induction hx with
  | done m a => exact (hf a).mono (Nat.le_add_left n m)
  | fail m he => exact .fail (m + n) he
  | pluck hr _ ih =>
    rw [Nat.succ_add]
    exact .pluck hr ih

/-- Keys take one pluck. -/
theorem Plucks.keys {r : Relation} (hr : kind r) (column : String) :
    (Compilation.keys r column).Plucks kind 1 :=
  .pluck hr fun keys => .done 0 keys

/-- What begins with a pluck goes on with those of the next step. -/
theorem Begins.bind (hx : x.Begins first kind m) (hf : ∀ a, (f a).Plucks kind n) :
    (x >>= f).Begins first kind (m + n) := by
  cases hx with
  | fail he => exact .fail he
  | pluck hr hnext => exact .pluck hr fun keys => (hnext keys).bind hf

/-- Keys begin with a pluck, and no other follows. -/
theorem Begins.keys {r : Relation} (hr : first r) (column : String) :
    (Compilation.keys r column).Begins first kind 0 :=
  .pluck hr fun keys => .done 0 keys

/-- A bound on the number of later plucks may be raised. -/
theorem Begins.mono (hx : x.Begins first kind m) (h : m ≤ n) : x.Begins first kind n := by
  cases hx with
  | fail he => exact .fail he
  | pluck hr hnext => exact .pluck hr fun keys => (hnext keys).mono h

/-- The first pluck may be counted among the others. -/
theorem Begins.plucks {kind' : Relation → Prop} (hx : x.Begins first kind n)
    (hfirst : ∀ r, first r → kind' r) (hkind : ∀ r, kind r → kind' r) :
    x.Plucks kind' (n + 1) := by
  cases hx with
  | fail he => exact .fail _ he
  | pluck hr hnext => exact .pluck (hfirst _ hr) fun keys => (hnext keys).imp hkind

end Compilation

/-! ## Carrying back -/

namespace Compile

open Compilation

variable {settings : Settings}

/-- Limited as the sub-queries of an engine are. -/
def Limited (settings : Settings) (r : Relation) : Prop :=
  r.limit = some settings.keyLimit

private theorem limited_narrow {column : String} {keys : KeySet} {r : Relation} :
    Limited settings (narrow settings .rank column keys r) := by
  simp [Limited, narrow, Relation.take, Settings.cap]

/-- A condition on the type keeps a limit. -/
theorem Limited.restrict {condition : Option Fragment} {r : Relation} (h : Limited settings r) :
    Limited settings (restrict condition r) := by
  cases condition <;> exact h

private theorem throughJoinTable_plucks {table targetKey ownerKey : String} {targets : KeySet} :
    (throughJoinTable settings .rank table targetKey ownerKey targets).Plucks
      (Limited settings) 1 := by
  unfold throughJoinTable
  split
  · -- without keys nothing is plucked, and one pluck is still allowed
    exact .done 1 _
  · exact .keys limited_narrow _

private theorem keysBack_begins {first : Relation → Prop} {link : Link} {target : Target}
    {rows : Relation} (hrows : first rows) :
    (keysBack settings .rank link target rows).Begins first (Limited settings) 1 := by
  unfold keysBack
  split
  · exact (Begins.keys hrows _).mono (Nat.zero_le 1)
  · exact (Begins.keys hrows _).mono (Nat.zero_le 1)
  · exact (Begins.keys hrows _).mono (Nat.zero_le 1)
  · -- a join table adds the one pluck that is no longer of the rows given
    exact (Begins.keys hrows _).bind fun _ => throughJoinTable_plucks

/-- The rows of the target are plucked first, and there are at most two plucks for each of two
steps. -/
theorem correlate_begins {owner target : Target} {rows : Relation} (association : Association) :
    (correlate settings .rank owner target rows association).Begins
      (fun r => ∃ condition, r = restrict condition rows) (Limited settings) 3 := by
  have hrows (condition : Option Fragment) :
      ∃ condition', restrict condition rows = restrict condition' rows := ⟨condition, rfl⟩
  refine correlate_cases (motive := fun _ way =>
    (way rows).Begins (fun r => ∃ condition, r = restrict condition rows) (Limited settings) 3)
    ?step ?two ?unsupported association
  case step =>
    exact fun link =>
      ((keysBack_begins (hrows _)).bind (n := 0) fun keys => .done 0 _).mono (by decide)
  case two =>
    intro _ _ via source _ _ middle _
    refine (keysBack_begins (hrows _)).bind (n := 2) fun found => ?_
    split
    · exact .done 2 _
    · -- The rows between the two steps are limited as well.
      refine Plucks.bind (m := 2) (n := 0) ?_ fun keys => .done 0 _
      exact (keysBack_begins limited_narrow.restrict).plucks (fun _ h => h) fun _ h => h
  case unsupported => exact fun _ _ _ => .fail nofun

/-! ## Where a field leads -/

end Compile

/-- Where an ordering goes on: the target that it leads to, and which rows of it are ordered. -/
structure Hop where
  target : Target
  rows : Entity → Relation

/-- The hop of an ordering by a field: one to the target of an association if this is known, or one
to the addresses of a category. -/
def Entity.hop? (entity : Entity) (field : String) (type : Option FieldType) : Option Hop :=
  let resolved := entity.resolveWith field type
  if resolved.type.isAssociation then
    (resolved.association.bind Association.target?).map (⟨·, Entity.relation⟩)
  else if resolved.type = .addresses then
    (entity.catalog.addressScope? field).map fun scope =>
      ⟨scope.target, fun _ => scope.relation entity.typeName⟩
  else none

namespace Compile

open Compilation

variable {entity : Entity} {field : String} {options : OrderOptions}

/-- Ordered and limited rows of a relation, on further conditions. -/
def Heads (settings : Settings) (limit : Option Nat) (own : List Fragment) (rows r : Relation) :
    Prop :=
  ∃ condition, r = restrict condition (ordered settings limit own rows)

/-- A field that is neither an association nor addresses is ordered by expressions of its own. -/
theorem exists_orderWith_of_plain (settings : Settings) (direction : Direction)
    {type : FieldType} {association : Option Association}
    (hfield : entity.resolveWith field options.type = ⟨type, association⟩)
    (htype : type.isAssociation = false) (haddresses : type ≠ .addresses) :
    ∃ expressions, ∀ orderTarget,
      orderWith settings orderTarget entity field direction options =
        .count (.order type) (.done expressions) := by
  unfold orderWith
  rw [hfield]
  -- every other type is ordered by a text that is made without asking anything
  cases type <;> first | exact absurd rfl haddresses | exact ⟨_, fun _ => rfl⟩ | cases htype

private theorem orderWith_of_addresses (settings : Settings) (direction : Direction)
    {association : Option Association}
    (hfield : entity.resolveWith field options.type = ⟨.addresses, association⟩)
    (orderTarget : TargetOrdering) :
    orderWith settings orderTarget entity field direction options =
      .count (.order .addresses) (do
        let rank ← rankByAddresses settings orderTarget entity field options
        pure (rank ++ [.ofSql (entity.keyColumn ++ " " ++ direction.sql)])) := by
  unfold orderWith
  rw [hfield]
  rfl

private theorem orderWith_of_require_eq_none (settings : Settings) (direction : Direction)
    {type : FieldType}
    (hfield : entity.resolveWith field options.type = ⟨type, none⟩)
    (htype : type.isAssociation = true) (orderTarget : TargetOrdering) :
    orderWith settings orderTarget entity field direction options =
      .count (.order type) (.fail (.unknownAssociation entity.typeName field)) := by
  unfold orderWith
  rw [hfield]
  cases type <;> first | rfl | cases htype

/-- A relation with a limit that the engine allows. -/
def Capped (settings : Settings) (r : Relation) : Prop :=
  ∃ n, r.limit = some n ∧ n ≤ settings.keyLimit

/-- The limit of the engine is a cap. -/
theorem Limited.capped {settings : Settings} {r : Relation} (h : Limited settings r) :
    Capped settings r :=
  ⟨settings.keyLimit, h, Nat.le_refl _⟩

/-- The head of a level is capped. -/
theorem Heads.capped {settings : Settings} {limit : Option Nat} {own : List Fragment}
    {rows r : Relation} (h : Heads settings limit own rows r) : Capped settings r := by
  obtain ⟨condition, rfl⟩ := h
  exact ⟨settings.cap limit, by cases condition <;> rfl, Nat.min_le_right _ _⟩

/-- An ordering that goes no further asks nothing: it counts itself and has its result at once,
which is no error of depth. -/
theorem exists_orderWith_of_hop?_eq_none (settings : Settings) (direction : Direction)
    (h : entity.hop? field options.type = none) :
    ∃ result : Except QueryError (List Fragment),
      (∀ depth, result ≠ .error (.recursionLimit depth)) ∧
      ∀ orderTarget, orderWith settings orderTarget entity field direction options =
        .count (.order (entity.resolveWith field options.type).type) (.ofExcept result) := by
  rcases hfield : entity.resolveWith field options.type with ⟨type, association⟩
  simp only [Entity.hop?, hfield] at h
  by_cases htype : type.isAssociation = true
  · rw [if_pos htype, Option.map_eq_none_iff] at h
    -- An association that is missing, or whose target varies, fails where it is required.
    cases association with
    | none =>
      exact ⟨.error (.unknownAssociation entity.typeName field), nofun,
        orderWith_of_require_eq_none settings direction hfield htype⟩
    | some association =>
      refine ⟨.error (.unsupportedAssociation association.name .targetVaries), nofun, ?_⟩
      intro orderTarget
      have htarget : association.target? = none := h
      rw [orderWith_of_isAssociation hfield htype, rankByAssociation, Association.requireTarget,
        htarget]
      rfl
  rw [if_neg htype] at h
  by_cases haddresses : type = .addresses
  · subst haddresses
    rw [if_pos rfl, Option.map_eq_none_iff] at h
    refine ⟨.error (.unknownAssociation entity.typeName field), nofun, fun orderTarget => ?_⟩
    rw [orderWith_of_addresses settings direction hfield, rankByAddresses, h]
    rfl
  · obtain ⟨expressions, hexpressions⟩ := exists_orderWith_of_plain settings direction
      hfield (Bool.eq_false_iff.mpr htype) haddresses
    exact ⟨.ok expressions, nofun, hexpressions⟩

/-- The expressions of an ordering that goes on, for a ranking of the owners. Without keys to rank by
only the fixed ones are left. -/
def orderExpressions (entity : Entity) (field : String) (direction : Direction)
    (options : OrderOptions) (rank : List Fragment) : List Fragment :=
  framed (entity.resolveWith field options.type).type (entity.columnFor field options.sqlColumn)
    (entity.keyColumn ++ " " ++ direction.sql) rank

/-- What carries the rows of the target of a hop back, from the target and the expressions by which
it is ordered. -/
structure CarriesBack (settings : Settings) (limit : Option Nat) (rows : Entity → Relation)
    (fixed : List Fragment) (carry : Entity → List Fragment → Compilation (List Fragment)) :
    Prop where
  begins : ∀ found own,
    (carry found own).Begins (Heads settings limit own (rows found)) (Limited settings) 3
  stopsAt : ∀ found own, (carry found own).StopsAt fixed

/-- An ordering that goes on counts itself, orders the target, and carries its keys back. -/
theorem exists_orderWith_of_hop? (settings : Settings) (direction : Direction) {hop : Hop}
    (h : entity.hop? field options.type = some hop) :
    ∃ carry : Entity → List Fragment → Compilation (List Fragment),
      CarriesBack settings options.limit hop.rows (orderExpressions entity field direction options [])
        carry ∧
      ∀ orderTarget, orderWith settings orderTarget entity field direction options =
        .count (.order (entity.resolveWith field options.type).type)
          (orderTarget hop.target.name.typeName options.sortField >>= fun answer =>
            carry answer.1 answer.2) := by
  rcases hfield : entity.resolveWith field options.type with ⟨type, association⟩
  simp only [Entity.hop?, hfield] at h
  by_cases htype : type.isAssociation = true
  · rw [if_pos htype, Option.map_eq_some_iff] at h
    obtain ⟨target, htarget, rfl⟩ := h
    obtain ⟨association, rfl, htarget⟩ := Option.bind_eq_some_iff.mp htarget
    change association.target? = some target at htarget
    refine ⟨fun found own => do
      let carried ← correlate settings .rank entity.asTarget target
        (ordered settings options.limit own found.relation) association
      pure (orderExpressions entity field direction options (rankBy carried.1 carried.2)),
      ⟨fun found own => ?_, fun found own => ?_⟩, fun orderTarget => ?_⟩
    · exact (correlate_begins association).bind (n := 0) fun answer => .done 0 _
    · exact (correlate_stopsAt _ _ _ association).bind rfl fun _ => trivial
    · rw [orderWith_of_isAssociation hfield htype, rankByAssociation, Association.requireTarget,
        htarget]
      simp only [ofExcept_ok_bind, bind_assoc, pure_bind, orderExpressions, hfield]
      rfl
  rw [if_neg htype] at h
  by_cases haddresses : type = .addresses
  · subst haddresses
    rw [if_pos rfl, Option.map_eq_some_iff] at h
    obtain ⟨scope, hscope, rfl⟩ := h
    refine ⟨fun found own => do
      let keys ← .keys (ordered settings options.limit own (scope.relation entity.typeName))
        (scope.target.column scope.link.foreignKey)
      pure (rankBy entity.keyColumn keys ++
        [.ofSql (entity.keyColumn ++ " " ++ direction.sql)]),
      ⟨fun found own => ?_, fun found own => ?_⟩, fun orderTarget => ?_⟩
    · -- The rows of the scope hold the keys themselves, so there is nothing to follow.
      refine (Begins.keys ?_ _).bind (m := 0) (n := 3) fun keys => .done 3 _
      exact ⟨none, rfl⟩
    · have hfixed : orderExpressions entity field direction options [] =
          [.ofSql (entity.keyColumn ++ " " ++ direction.sql)] := by
        rw [orderExpressions, hfield]
        rfl
      rw [hfixed]
      exact (StopsAt.keys _ _).bind rfl fun _ => trivial
    · rw [orderWith_of_addresses settings direction hfield, rankByAddresses, hscope]
      simp only [bind_assoc, pure_bind]
  · rw [if_neg haddresses] at h
    cases h

/-- How an ordering with some levels left orders its targets. -/
def targetOrdering (settings : Settings) (levels : Nat) (direction : Direction)
    (limit : Option Nat) : TargetOrdering :=
  match levels with
  | 0 => fun _ _ => .fail (.recursionLimit settings.maxDepth)
  | levels + 1 => fun typeName sortField => do
    let found ← .entity typeName
    let own ← orderClauses settings levels found (sortField.getD found.defaultSortField) direction
      { limit, reorder := true }
    pure (found, own)

/-- At every number of levels an ordering is one level over those that are left. -/
theorem orderClauses_eq (settings : Settings) (levels : Nat) (entity : Entity) (field : String)
    (direction : Direction) (options : OrderOptions) :
    orderClauses settings levels entity field direction options =
      orderWith settings (targetOrdering settings levels direction options.limit) entity field
        direction options := by
  cases levels <;> rfl

/-- An ordering that goes no further is the same on every number of levels. -/
theorem exists_orderClauses_of_hop?_eq_none (settings : Settings) (direction : Direction)
    (h : entity.hop? field options.type = none) :
    ∃ result : Except QueryError (List Fragment),
      (∀ depth, result ≠ .error (.recursionLimit depth)) ∧
      ∀ levels, orderClauses settings levels entity field direction options =
        .count (.order (entity.resolveWith field options.type).type) (.ofExcept result) := by
  obtain ⟨result, hresult, horder⟩ := exists_orderWith_of_hop?_eq_none settings direction h
  refine ⟨result, hresult, fun levels => ?_⟩
  cases levels <;> rw [orderClauses, horder]

/-- Where levels are left, the target is looked up and ordered on the others. -/
theorem exists_orderClauses_of_hop? (settings : Settings) (direction : Direction) {hop : Hop}
    (h : entity.hop? field options.type = some hop) :
    ∃ carry : Entity → List Fragment → Compilation (List Fragment),
      CarriesBack settings options.limit hop.rows (orderExpressions entity field direction options [])
        carry ∧
      orderClauses settings 0 entity field direction options =
        .count (.order (entity.resolveWith field options.type).type)
          (.fail (.recursionLimit settings.maxDepth)) ∧
      ∀ levels, orderClauses settings (levels + 1) entity field direction options =
        .count (.order (entity.resolveWith field options.type).type)
          (.lookup hop.target.name.typeName fun found =>
            orderClauses settings levels found (options.sortField.getD found.defaultSortField)
              direction { limit := options.limit, reorder := true } >>= carry found) := by
  obtain ⟨carry, hcarry, horder⟩ := exists_orderWith_of_hop? settings direction h
  refine ⟨carry, hcarry, ?_, fun levels => ?_⟩
  · rw [orderClauses, horder]
    -- with a hop left the target's entity is looked up first, and its ordering carried back
    rfl
  · rw [orderClauses, horder]
    simp only [bind_assoc, pure_bind]
    rfl

end Compile

end FieldQuery
