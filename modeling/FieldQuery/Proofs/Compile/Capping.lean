import FieldQuery.Proofs.Compile.Chain
import Mathlib.Data.List.Forall2

/-!
# The sub-queries of an ordering

The plucks of an ordering come in blocks, one for every target on the chain from its field, the last
target first. A block starts from the ordered rows of its target, under the limit of the request,
and goes on with at most three plucks that carry the keys back to the owner. All of them are limited
as the engine says, whatever the store has answered before.
-/

namespace FieldQuery

open FieldQuery.Compilation FieldQuery.Compile FieldQuery.Schema FieldQuery.Sql

variable {provider : Provider} {σ α : Type}

/-! ## The plucks of one level -/

namespace Compilation

variable {backend : Backend σ} {first kind : Relation → Prop} {n : Nat} {x : Compilation α}

private theorem Plucks.length_plucks_le (hx : x.Plucks kind n) (s : σ) :
    (x.plucks backend s).length ≤ n := by
  -- induction on the plucks: a failed one ends the list
  induction hx generalizing s with
  | done _ a => exact Nat.zero_le _
  | fail _ he => exact Nat.zero_le _
  | @pluck n r c next _ _ ih =>
    simp only [plucks]
    rcases backend.pluck r c s with ⟨e | answer, s'⟩
    · exact Nat.succ_le_succ (Nat.zero_le n)
    · exact Nat.succ_le_succ (ih _ s')

/-- What begins with a pluck has made one if it has a result. -/
theorem Begins.plucks_ne_nil (hx : x.Begins first kind n) {a : α} {s : σ}
    (h : (x.run backend s).1 = .ok a) : x.plucks backend s ≠ [] := by
  cases hx with
  | fail he => cases h
  | pluck hr hnext => exact plucks_pluck_ne_nil

private theorem Plucks.forall_mem_plucks (hx : x.Plucks kind n) (s : σ) :
    ∀ p ∈ x.plucks backend s, kind p.relation := by
  -- induction on the plucks, each of which is of the kind when it is asked for
  induction hx generalizing s with
  | done _ a => exact List.forall_mem_nil _
  | fail _ he => exact List.forall_mem_nil _
  | @pluck n r c next hr _ ih =>
    simp only [plucks]
    rcases backend.pluck r c s with ⟨e | answer, s'⟩
    · exact List.forall_mem_singleton.mpr hr
    · exact List.forall_mem_cons.mpr ⟨hr, ih _ s'⟩

end Compilation

namespace Compile

/-- The plucks that carry the rows of one target back: first of the ordered rows themselves, under
the limit of the request, and then of at most three relations with the limit of the engine. -/
structure Block (settings : Settings) (limit : Option Nat) (rows : Relation)
    (plucks : List Plucked) : Prop where
  length_le : plucks.length ≤ 4
  head : ∀ p ∈ plucks.head?, ∃ own, Heads settings limit own rows p.relation
  tail : ∀ p ∈ plucks.tail, Limited settings p.relation

variable {settings : Settings} {limit : Option Nat} {rows : Relation}

/-- No plucks are a block. -/
theorem Block.nil : Block settings limit rows [] := by
  refine ⟨Nat.zero_le 4, fun p hp => ?_, fun p hp => ?_⟩
  · cases hp
  · cases hp

private theorem Block.of_begins {backend : Backend σ} {own : List Fragment} {x : Compilation α}
    (hx : x.Begins (Heads settings limit own rows) (Limited settings) 3) (s : σ) :
    Block settings limit rows (x.plucks backend s) := by
  cases hx with
  | fail he => exact .nil
  | @pluck r c next hr hnext =>
    have hfirst (answer : Except StorageError (List (Option Key))) :
        ∀ p ∈ some (⟨r, c, answer⟩ : Plucked), ∃ own, Heads settings limit own rows p.relation := by
      intro p hp
      obtain rfl := Option.some.inj hp
      exact ⟨own, hr⟩
    simp only [plucks]
    rcases backend.pluck r c s with ⟨e | answer, s'⟩
    · -- A pluck that the store does not answer is the last one.
      refine ⟨Nat.le_of_ble_eq_true rfl, hfirst _, fun p hp => ?_⟩
      cases hp
    · exact ⟨Nat.succ_le_succ ((hnext _).length_plucks_le s'), hfirst _,
        (hnext _).forall_mem_plucks s'⟩

private theorem Heads.limit_eq {own : List Fragment} {r : Relation}
    (h : Heads settings limit own rows r) :
    r.limit = some (settings.cap limit) := by
  obtain ⟨condition, rfl⟩ := h
  cases condition <;> rfl

/-- Every relation of a block is capped. -/
theorem Block.capped {plucks : List Plucked} (h : Block settings limit rows plucks) :
    ∀ p ∈ plucks, Capped settings p.relation := by
  intro p hp
  cases plucks with
  | nil => cases hp
  -- the first pluck is limited by the request, the others by the settings
  | cons first rest =>
    rcases List.mem_cons.mp hp with rfl | hrest
    · obtain ⟨own, hhead⟩ := h.head p rfl
      exact hhead.capped
    · exact (h.tail p hrest).capped

/-- Blocks for a list of targets are no longer than four plucks for each. -/
theorem length_flatten_le {targets : List Relation} {blocks : List (List Plucked)}
    (h : List.Forall₂ (Block settings limit) targets blocks) :
    blocks.flatten.length ≤ 4 * targets.length := by
  -- induction on the blocks, four plucks each
  induction h with
  | nil => exact Nat.le_refl 0
  | cons hblock _ ih =>
    have hlength := hblock.length_le
    simp only [List.flatten_cons, List.length_append, List.length_cons]
    omega

private theorem capped_of_mem_flatten {targets : List Relation} {blocks : List (List Plucked)}
    (h : List.Forall₂ (Block settings limit) targets blocks) :
    ∀ p ∈ blocks.flatten, Capped settings p.relation := by
  induction h with
  | nil => exact nofun
  | cons hblock _ ih =>
    rw [List.flatten_cons]
    intro p hp
    rcases List.mem_append.mp hp with hfirst | hrest
    · exact hblock.capped p hfirst
    · exact ih p hrest

end Compile

/-! ## The targets of a chain -/

namespace Place

/-- The rows that the first `n` hops from a place lead to. -/
def targets (provider : Provider) : Nat → Place → List Relation
  | 0, _ => []
  | n + 1, place =>
    match place.hop?, place.next? provider with
    | some hop, some next => hop.rows next.entity :: next.targets provider n
    | _, _ => []

private theorem targets_of_hop?_eq_none {place : Place} (h : place.hop? = none) (n : Nat) :
    place.targets provider n = [] := by
  cases n with
  | zero => rfl
  | succ n => rw [targets, h]

private theorem targets_of_next?_eq_none {place : Place} (h : place.next? provider = none) (n : Nat) :
    place.targets provider n = [] := by
  cases n with
  | zero => rfl
  | succ n =>
    rw [targets, h]
    cases place.hop? <;> rfl

private theorem targets_succ {place next : Place} {hop : Hop} (hplace : place.hop? = some hop)
    (hnext : place.next? provider = some next) (n : Nat) :
    place.targets provider (n + 1) = hop.rows next.entity :: next.targets provider n := by
  rw [targets, hplace, hnext]

private theorem length_targets_le (n : Nat) (place : Place) :
    (place.targets provider n).length ≤ n := by
  -- induction on the hops that are left: each leads to one target
  induction n generalizing place with
  | zero => exact Nat.le_refl 0
  | succ n ih =>
    unfold targets
    split
    · exact Nat.succ_le_succ (ih _)
    · exact Nat.zero_le _

end Place

namespace Compile

/-- The plucks of an ordering with some levels left are blocks for the targets of its chain. A block
is empty only if the ordering fails. -/
structure HasBlocks (engine : Engine provider σ) (settings : Settings) (limit : Option Nat)
    (levels : Nat) (place : Place) (s : σ) (x : Compilation α) (blocks : List (List Plucked)) :
    Prop where
  plucks_eq : x.plucks engine.toBackend s = blocks.flatten
  aligned : List.Forall₂ (Block settings limit) (place.targets provider levels).reverse blocks
  complete : ∀ a, (x.run engine.toBackend s).1 = .ok a → ∀ block ∈ blocks, block ≠ []

variable {engine : Engine provider σ} {settings : Settings} {limit : Option Nat} {levels : Nat}
  {place : Place} {s : σ}

/-- What does not pluck has blocks if there are no targets. -/
theorem HasBlocks.of_targets_eq_nil {x : Compilation α}
    (hplucks : x.plucks engine.toBackend s = []) (htargets : place.targets provider levels = []) :
    HasBlocks engine settings limit levels place s x [] where
  plucks_eq := hplucks
  aligned := by
    rw [htargets]
    exact .nil
  complete _ _ block hblock := absurd hblock List.not_mem_nil

/-- One level: the blocks of the targets further down, and then that of this target. -/
theorem HasBlocks.follow {next : Place} {event : CompileEvent} {identifier : String} {s' : σ}
    {hop : Hop} {x : Entity → Compilation (List Fragment)}
    {carry : Entity → List Fragment → Compilation (List Fragment)} {blocks : List (List Plucked)}
    (hplace : place.hop? = some hop) (hnext : place.next? provider = some next)
    (hfound : engine.entity identifier (engine.count event s) = (.ok next.entity, s'))
    (hcarry : ∀ own, (carry next.entity own).Begins
      (Heads settings limit own (hop.rows next.entity)) (Limited settings) 3)
    (hx : HasBlocks engine settings limit levels next s' (x next.entity) blocks) :
    ∃ block, HasBlocks engine settings limit (levels + 1) place s
      (.count event (.lookup identifier fun found => x found >>= carry found))
      (blocks ++ [block]) := by
  have htargets : (place.targets provider (levels + 1)).reverse =
      (next.targets provider levels).reverse ++ [hop.rows next.entity] := by
    rw [Place.targets_succ hplace hnext, List.reverse_cons]
  have haligned {block : List Plucked} (hblock : Block settings limit (hop.rows next.entity) block) :
      List.Forall₂ (Block settings limit) (place.targets provider (levels + 1)).reverse
        (blocks ++ [block]) := by
    rw [htargets]
    exact List.rel_append hx.aligned (.cons hblock .nil)
  rcases hrun : (x next.entity).run engine.toBackend s' with ⟨e | own, s''⟩
  · -- The ordering of the target has failed, so nothing is carried back.
    refine ⟨[], ?_, haligned .nil, fun a h => ?_⟩
    · simp [plucks, hfound, plucks_bind, hrun, hx.plucks_eq]
    · simp [run, hfound, run_bind, hrun] at h
  · refine ⟨(carry next.entity own).plucks engine.toBackend s'', ?_,
      haligned (.of_begins (hcarry own) s''), fun a h block hblock => ?_⟩
    · simp [plucks, hfound, plucks_bind, hrun, hx.plucks_eq]
    · simp only [run, hfound, run_bind, hrun] at h
      rcases List.mem_append.mp hblock with hinner | hlast
      · exact hx.complete own (congrArg Prod.fst hrun) block hinner
      · rw [List.mem_singleton.mp hlast]
        exact (hcarry own).plucks_ne_nil h

/-- Whatever follows a chain plucks in blocks. -/
theorem Descends.exists_blocks {x : Compilation (List Fragment)}
    (h : Descends engine settings limit levels place s x) :
    ∃ blocks, HasBlocks engine settings limit levels place s x blocks := by
  -- induction on the descent: it stops with no block, and every hop it follows adds one at the end
  induction h with
  | @stop levels place s event result hplace hresult =>
    refine ⟨[], .of_targets_eq_nil ?_ (Place.targets_of_hop?_eq_none hplace levels)⟩
    cases result <;> rfl
  | beyond event hplace => exact ⟨[], .of_targets_eq_nil rfl rfl⟩
  | missing hnext hfound he =>
    refine ⟨[], .of_targets_eq_nil ?_ (Place.targets_of_next?_eq_none hnext _)⟩
    simp only [plucks, hfound]
  | follow hplace hnext hfound hcarry hx ih =>
    obtain ⟨blocks, hblocks⟩ := ih
    obtain ⟨block, hlast⟩ := HasBlocks.follow hplace hnext hfound hcarry hblocks
    exact ⟨blocks ++ [block], hlast⟩

/-- All sub-queries of an ordering are limited, whatever the store answers. There are at most four
for each level of the depth. They come in blocks for the targets of the chain, the last one first;
the rows of the target itself are plucked first in its block, and under the limit of the request.
No target is left out if the ordering has a result. -/
theorem order_plucks_capped (engine : Engine provider σ) (compiler : Compiler) (bound : Relation)
    (field : String) (direction : Direction) (options : OrderOptions) (s : σ) :
    let request := (compiler.bind bound).order field direction options
    let plucks := request.plucks engine.toBackend s
    let settings := compiler.settings
    let targets := Place.targets provider settings.maxDepth
      (.start (engine.cache s) compiler.entity field options)
    (∀ p ∈ plucks, ∃ n, p.relation.limit = some n ∧ n ≤ settings.keyLimit) ∧
      plucks.length ≤ 4 * settings.maxDepth ∧
      ∃ blocks : List (List Plucked), plucks = blocks.flatten ∧
        List.Forall₂ (fun rows block => block.length ≤ 4 ∧
          (∀ p ∈ block.head?, ∃ own, Heads settings options.limit own rows p.relation ∧
            p.relation.limit =
              some (min (options.limit.getD settings.keyLimit) settings.keyLimit)) ∧
          ∀ p ∈ block.tail, p.relation.limit = some settings.keyLimit) targets.reverse blocks ∧
        ∀ relation, (request.run engine.toBackend s).1 = .ok relation →
          ∀ block ∈ blocks, block ≠ [] := by
  intro request plucks settings targets
  obtain ⟨blocks, hplucks, hblocks, hne⟩ := (descends_orderClauses engine settings
    settings.maxDepth compiler.entity field direction options s).exists_blocks
  -- the request is the ordering's terms appended to the relation, and plucks no more than they do
  have hrequest : request = _ := Compiler.order_bind compiler bound field direction options
  have hflatten : plucks = blocks.flatten := by
    rw [show plucks = _ from congrArg (·.plucks engine.toBackend s) hrequest, plucks_map, hplucks]
  have hdepth : targets.reverse.length ≤ settings.maxDepth := by
    rw [List.length_reverse]
    exact Place.length_targets_le settings.maxDepth _
  refine ⟨?capped, ?length, blocks, hflatten,
    hblocks.imp fun rows block h => ⟨h.length_le, ?head, h.tail⟩, ?complete⟩
  case capped =>
    rw [hflatten]
    exact capped_of_mem_flatten hblocks
  case length =>
    rw [hflatten]
    calc blocks.flatten.length ≤ 4 * targets.reverse.length := length_flatten_le hblocks
      _ ≤ 4 * settings.maxDepth := Nat.mul_le_mul_left 4 hdepth
  case head =>
    intro p hp
    obtain ⟨own, hhead⟩ := h.head p hp
    exact ⟨own, hhead, hhead.limit_eq⟩
  case complete =>
    intro relation hrelation
    rw [hrequest, run_map] at hrelation
    -- only an ordering that succeeded has come to the end of its chain, and so plucked on every hop
    cases hclauses : ((orderClauses settings settings.maxDepth compiler.entity field direction
        options).run engine.toBackend s).1 with
    | error e =>
      rw [hclauses] at hrelation
      cases hrelation
    | ok own => exact hne own hclauses

end Compile

end FieldQuery
