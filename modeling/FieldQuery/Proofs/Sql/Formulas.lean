import FieldQuery.Proofs.Sql.Tokens

/-!
# Conditions as formulas

A condition is read as a formula over atoms, with AND binding tighter than OR: a disjunction of
conjunctions of operands, where an operand is an atom or a formula in parentheses. An atom is
anything else with paired parentheses, such as a comparison or a call. A text has at most one
reading.

The placeholders are numbered before a text is read, so that atoms of the same text with different
parameters are different atoms, and so that it does not matter whether a dialect writes the numbers.
Main statements: tokens are read in one way, whether they can be read does not depend on the texts of
their words, and two conjunctions with AND between them are read as one that holds if both do.
-/

namespace FieldQuery.Sql

open FieldQuery.Text

/-! ## Formulas -/

/-- A reading of a condition. -/
inductive Formula where
  | atom (tokens : List Token)
  | and (f g : Formula)
  | or (f g : Formula)
deriving DecidableEq, Repr

/-- The truth of a formula under a truth assignment to the atoms. -/
def Formula.Holds (truth : List Token → Prop) : Formula → Prop
  | atom tokens => truth tokens
  | and f g => f.Holds truth ∧ g.Holds truth
  | or f g => f.Holds truth ∨ g.Holds truth

/-! ## Parentheses -/

/-- How many parentheses are open after one more token, unless it closes one that is not open. -/
def Token.depth? (depth : Nat) : Token → Option Nat
  | .opening => some (depth + 1)
  | .closing => if depth = 0 then none else some (depth - 1)
  | _ => some depth

/-- How many parentheses are open after some more tokens. -/
def depthAfter? (depth : Nat) (tokens : List Token) : Option Nat :=
  tokens.foldlM Token.depth? depth

/-- Every parenthesis has its other half. -/
def Paired (tokens : List Token) : Prop :=
  depthAfter? 0 tokens = some 0

/-- The tokens that stand outside all parentheses, of which some may be open before. -/
def surface (depth : Nat) : List Token → List Token
  | [] => []
  | .opening :: rest => surface (depth + 1) rest
  | .closing :: rest => surface (depth - 1) rest
  | token :: rest => if depth = 0 then token :: surface depth rest else surface depth rest

private theorem depthAfter?_cons (depth : Nat) (token : Token) (rest : List Token) :
    depthAfter? depth (token :: rest) = (token.depth? depth).bind (depthAfter? · rest) :=
  rfl

/-- The depth after two lists of tokens is reached over the one between them. -/
theorem depthAfter?_append (depth : Nat) (a b : List Token) :
    depthAfter? depth (a ++ b) = (depthAfter? depth a).bind (depthAfter? · b) :=
  List.foldlM_append

/-- Parentheses that are open before stay open. -/
theorem depthAfter?_add {depth after : Nat} {tokens : List Token}
    (h : depthAfter? depth tokens = some after) (more : Nat) :
    depthAfter? (depth + more) tokens = some (after + more) := by
  -- induction on the tokens: every depth on the way is higher by `more`
  induction tokens generalizing depth with
  | nil =>
    obtain rfl : depth = after := Option.some.inj h
    rfl
  | cons token rest ih =>
    rw [depthAfter?_cons] at h ⊢
    obtain ⟨d, hd, hrest⟩ := Option.bind_eq_some_iff.mp h
    have hmore : token.depth? (depth + more) = some (d + more) := by
      cases token with
      | closing =>
        simp only [Token.depth?] at hd ⊢
        split at hd
        · cases hd
        · cases hd
          rw [if_neg (by omega), Nat.sub_add_comm (by omega)]
      | opening => cases hd; simp [Token.depth?, Nat.add_right_comm]
      | _ => cases hd; rfl
    rw [hmore]
    exact ih hrest

/-- The surface of two lists of tokens is the one of the first and then of the second. -/
theorem surface_append {depth after : Nat} {a : List Token}
    (h : depthAfter? depth a = some after) (b : List Token) :
    surface depth (a ++ b) = surface depth a ++ surface after b := by
  -- induction on the first tokens, along the depths they reach
  induction a generalizing depth with
  | nil =>
    obtain rfl : depth = after := Option.some.inj h
    rfl
  | cons token rest ih =>
    rw [depthAfter?_cons] at h
    obtain ⟨d, hd, hrest⟩ := Option.bind_eq_some_iff.mp h
    cases token with
    | closing =>
      simp only [Token.depth?] at hd
      split at hd
      · cases hd
      · cases hd
        exact ih hrest
    | opening => cases hd; exact ih hrest
    | _ =>
      cases hd
      simp only [List.cons_append, surface, ih hrest]
      split <;> rfl

/-- Nothing is outside a parenthesis that stays open. -/
theorem surface_eq_nil {depth after : Nat} {tokens : List Token}
    (h : depthAfter? depth tokens = some after) (more : Nat) :
    surface (depth + more + 1) tokens = [] := by
  -- induction on the tokens: below the surface there is nothing to see, however deep
  induction tokens generalizing depth with
  | nil => rfl
  | cons token rest ih =>
    rw [depthAfter?_cons] at h
    obtain ⟨d, hd, hrest⟩ := Option.bind_eq_some_iff.mp h
    cases token with
    | closing =>
      simp only [Token.depth?] at hd
      split at hd
      · cases hd
      · cases hd
        have hdepth : depth + more + 1 - 1 = depth - 1 + more + 1 := by omega
        rw [surface, hdepth]
        exact ih hrest
    | opening =>
      cases hd
      rw [surface, Nat.add_right_comm depth more 1]
      exact ih hrest
    | _ =>
      cases hd
      simpa [surface] using ih hrest

namespace Paired

variable {a b : List Token}

/-- Paired lists of tokens are paired together. -/
theorem append (ha : Paired a) (hb : Paired b) : Paired (a ++ b) := by
  rw [Paired, depthAfter?_append, ha]
  exact hb

private theorem of_append (ha : Paired a) (h : Paired (a ++ b)) : Paired b := by
  rwa [Paired, depthAfter?_append, ha] at h

/-- Paired tokens between two parts that leave parentheses open. -/
theorem between (hb : Paired b) {pre post : List Token} {depth : Nat}
    (hpre : depthAfter? 0 pre = some depth) (hpost : depthAfter? depth post = some 0) :
    Paired (pre ++ b ++ post) := by
  have hb' := depthAfter?_add hb depth
  rw [Nat.zero_add] at hb'
  simp only [Paired, depthAfter?_append, hpre, hb', hpost, Option.bind_some]

/-- After a paired list the surface begins anew. -/
theorem surface_append (ha : Paired a) (b : List Token) :
    surface 0 (a ++ b) = surface 0 a ++ surface 0 b :=
  Sql.surface_append ha b

/-- Paired tokens do not show where they stand inside parentheses. -/
theorem surface_between (hb : Paired b) {pre post : List Token} {depth : Nat}
    (hpre : depthAfter? 0 pre = some (depth + 1)) :
    surface 0 (pre ++ b ++ post) = surface 0 pre ++ surface (depth + 1) post := by
  have hb' := depthAfter?_add hb (depth + 1)
  rw [Nat.zero_add] at hb'
  have hinner : surface (depth + 1) b = [] := by simpa using surface_eq_nil hb depth
  rw [List.append_assoc, Sql.surface_append hpre, Sql.surface_append hb', hinner, List.nil_append]

end Paired

/-! ## Reading -/

/-- Paired parentheses and no AND or OR outside of them. -/
structure Unjoined (tokens : List Token) : Prop where
  paired : Paired tokens
  and_not_mem : Token.and ∉ surface 0 tokens
  or_not_mem : Token.or ∉ surface 0 tokens

/-- What counts as one atom. Something of it is outside parentheses, unlike with a formula that is
put into parentheses. -/
structure IsAtom (tokens : List Token) : Prop extends Unjoined tokens where
  surface_ne_nil : surface 0 tokens ≠ []

/-- How tightly the outermost connective of a formula binds. -/
inductive Level where
  | operand
  | conjunction
  | disjunction
deriving DecidableEq, Repr

/-- The readings of tokens, by the precedence of SQL. -/
inductive Reads : Level → List Token → Formula → Prop
  | atom {tokens : List Token} (h : IsAtom tokens) : Reads .operand tokens (.atom tokens)
  | group {tokens : List Token} {f : Formula} (h : Reads .disjunction tokens f) :
      Reads .operand (.opening :: tokens ++ [.closing]) f
  | operand {tokens : List Token} {f : Formula} (h : Reads .operand tokens f) :
      Reads .conjunction tokens f
  | and {a b : List Token} {f g : Formula} (hf : Reads .conjunction a f)
      (hg : Reads .operand b g) : Reads .conjunction (a ++ .and :: b) (.and f g)
  | conjunction {tokens : List Token} {f : Formula} (h : Reads .conjunction tokens f) :
      Reads .disjunction tokens f
  | or {a b : List Token} {f g : Formula} (hf : Reads .disjunction a f)
      (hg : Reads .conjunction b g) : Reads .disjunction (a ++ .or :: b) (.or f g)

namespace Reads

variable {level : Level} {tokens : List Token} {f g : Formula}

/-- What is read as a formula has its parentheses paired. -/
theorem paired (h : Reads level tokens f) : Paired tokens := by
  -- induction on the reading: brackets come from atoms and from groups, and both close them
  induction h with
  | atom h => exact h.paired
  | group _ ih =>
    have hopening : depthAfter? 0 [.opening] = some 1 := rfl
    have hclosing : depthAfter? 1 [.closing] = some 0 := rfl
    exact Paired.between ih hopening hclosing
  | operand _ ih => exact ih
  | and _ _ iha ihb => exact iha.append ihb
  | conjunction _ ih => exact ih
  | or _ _ iha ihb => exact iha.append ihb

/-! ### Where a reading can come from -/

private theorem operand_inv (h : Reads .operand tokens f) :
    IsAtom tokens ∧ f = .atom tokens ∨
      ∃ inner, tokens = .opening :: inner ++ [.closing] ∧ Reads .disjunction inner f := by
  cases h with
  | atom h => exact .inl ⟨h, rfl⟩
  | group h => exact .inr ⟨_, rfl, h⟩

private theorem conjunction_inv (h : Reads .conjunction tokens f) :
    Reads .operand tokens f ∨
      ∃ a b f₁ f₂, tokens = a ++ .and :: b ∧ f = .and f₁ f₂ ∧ Reads .conjunction a f₁ ∧
        Reads .operand b f₂ := by
  cases h with
  | operand h => exact .inl h
  | and hf hg => exact .inr ⟨_, _, _, _, rfl, rfl, hf, hg⟩

private theorem disjunction_inv (h : Reads .disjunction tokens f) :
    Reads .conjunction tokens f ∨
      ∃ a b f₁ f₂, tokens = a ++ .or :: b ∧ f = .or f₁ f₂ ∧ Reads .disjunction a f₁ ∧
        Reads .conjunction b f₂ := by
  cases h with
  | conjunction h => exact .inl h
  | or hf hg => exact .inr ⟨_, _, _, _, rfl, rfl, hf, hg⟩

/-! ### What stands outside parentheses -/

private theorem surface_group (h : Reads .disjunction tokens f) :
    surface 0 (.opening :: tokens ++ [.closing]) = [] := by
  have hopening : depthAfter? 0 [.opening] = some (0 + 1) := rfl
  exact h.paired.surface_between hopening

/-- No AND is outside the parentheses of an operand. -/
theorem and_not_mem_surface (h : Reads .operand tokens f) : Token.and ∉ surface 0 tokens := by
  rcases h.operand_inv with ⟨hatom, -⟩ | ⟨inner, rfl, hinner⟩
  · exact hatom.and_not_mem
  · rw [hinner.surface_group]
    exact List.not_mem_nil

/-- No OR is outside the parentheses of a conjunction. -/
theorem or_not_mem_surface (h : Reads level tokens f) (hlevel : level ≠ .disjunction) :
    Token.or ∉ surface 0 tokens := by
  -- induction on the reading: an OR outside all brackets is of a disjunction
  induction h with
  | atom h => exact h.or_not_mem
  | group h _ =>
    rw [h.surface_group]
    exact List.not_mem_nil
  | operand _ ih => exact ih nofun
  | and ha _ iha ihb =>
    rw [ha.paired.surface_append]
    simp [surface, iha, ihb]
  | conjunction => exact absurd rfl hlevel
  | or => exact absurd rfl hlevel

end Reads

/-! ## Unambiguity -/

/-- The two connectives. -/
def Token.IsConnective (t : Token) : Prop :=
  t = .and ∨ t = .or

namespace Token.IsConnective

variable {t : Token} {a b : List Token}

private theorem surface_cons (ht : t.IsConnective) : surface 0 (t :: b) = t :: surface 0 b := by
  rcases ht with rfl | rfl <;> rfl

private theorem paired_cons_iff (ht : t.IsConnective) : Paired (t :: b) ↔ Paired b := by
  rcases ht with rfl | rfl <;> exact Iff.rfl

/-- A connective after paired parentheses is outside of them. -/
theorem mem_surface (ht : t.IsConnective) (ha : Paired a) : t ∈ surface 0 (a ++ t :: b) := by
  rw [ha.surface_append, ht.surface_cons]
  exact List.mem_append_right _ List.mem_cons_self

/-- If a connective comes up outside parentheses for the last time after `a`, then it does not come
up for the last time after more tokens. -/
theorem eq_nil_of_append (ht : t.IsConnective) {rest b' : List Token} (ha : Paired a)
    (ha' : Paired (a ++ rest)) (hb : t ∉ surface 0 b) (h : t :: b = rest ++ t :: b') :
    rest = [] := by
  cases rest with
  | nil => rfl
  | cons token rest =>
    rw [List.cons_append] at h
    obtain ⟨rfl, rfl⟩ := List.cons.inj h
    -- The connective comes up again in `b`, and there it is outside parentheses.
    have hrest : Paired rest := ht.paired_cons_iff.mp (ha.of_append ha')
    exact absurd (ht.mem_surface hrest) hb

/-- A connective cuts tokens in one way only, if it does not come up again outside parentheses. -/
theorem append_cons_inj (ht : t.IsConnective) {a' b' : List Token} (ha : Paired a)
    (ha' : Paired a') (hb : t ∉ surface 0 b) (hb' : t ∉ surface 0 b')
    (h : a ++ t :: b = a' ++ t :: b') : a = a' ∧ b = b' := by
  -- One of the first parts begins with the other one, and has nothing after it.
  rcases List.append_eq_append_iff.mp h with ⟨rest, rfl, hrest⟩ | ⟨rest, rfl, hrest⟩
  · obtain rfl := ht.eq_nil_of_append ha ha' hb hrest
    exact ⟨(List.append_nil a).symm, (List.cons.inj hrest).2⟩
  · obtain rfl := ht.eq_nil_of_append ha' ha hb' hrest
    exact ⟨List.append_nil a', (List.cons.inj hrest).2.symm⟩

end Token.IsConnective

/-- Tokens are read in one way. -/
theorem Reads.unique {level : Level} {tokens : List Token} {f g : Formula}
    (hf : Reads level tokens f) (hg : Reads level tokens g) : f = g := by
  have hand : Token.IsConnective .and := .inl rfl
  have hor : Token.IsConnective .or := .inr rfl
  -- The first reading says what is outside parentheses, which leaves one form to the second one.
  induction hf generalizing g with
  | atom h =>
    rcases hg.operand_inv with ⟨-, rfl⟩ | ⟨inner, rfl, hinner⟩
    · rfl
    · exact absurd hinner.surface_group h.surface_ne_nil
  | group h ih =>
    rcases hg.operand_inv with ⟨hatom, -⟩ | ⟨inner, htokens, hinner⟩
    · exact absurd h.surface_group hatom.surface_ne_nil
    · obtain rfl := List.append_cancel_right (List.cons.inj htokens).2
      exact ih hinner
  | operand h ih =>
    rcases hg.conjunction_inv with hoperand | ⟨a, b, f₁, f₂, rfl, -, ha, -⟩
    · exact ih hoperand
    · exact absurd (hand.mem_surface ha.paired) h.and_not_mem_surface
  | and ha hb iha ihb =>
    rcases hg.conjunction_inv with hoperand | ⟨a', b', f₁, f₂, htokens, rfl, ha', hb'⟩
    · exact absurd (hand.mem_surface ha.paired) hoperand.and_not_mem_surface
    · obtain ⟨rfl, rfl⟩ := hand.append_cons_inj ha.paired ha'.paired hb.and_not_mem_surface
        hb'.and_not_mem_surface htokens
      rw [iha ha', ihb hb']
  | conjunction h ih =>
    rcases hg.disjunction_inv with hconjunction | ⟨a, b, f₁, f₂, rfl, -, ha, -⟩
    · exact ih hconjunction
    · exact absurd (hor.mem_surface ha.paired) (h.or_not_mem_surface nofun)
  | or ha hb iha ihb =>
    rcases hg.disjunction_inv with hconjunction | ⟨a', b', f₁, f₂, htokens, rfl, ha', hb'⟩
    · exact absurd (hor.mem_surface ha.paired) (hconjunction.or_not_mem_surface nofun)
    · obtain ⟨rfl, rfl⟩ := hor.append_cons_inj ha.paired ha'.paired
        (hb.or_not_mem_surface nofun) (hb'.or_not_mem_surface nofun) htokens
      rw [iha ha', ihb hb']

/-! ## Words do not matter -/

namespace Token

/-- A token that is no word has its shape to itself. -/
@[simp]
theorem shape_eq_iff {t u : Token} (h : ∀ text, u ≠ .word text) : t.shape = u.shape ↔ t = u := by
  cases t <;> cases u <;> simp_all [shape]

@[simp]
theorem depth?_shape (depth : Nat) (t : Token) : t.shape.depth? depth = t.depth? depth := by
  cases t <;> rfl

end Token

private theorem depthAfter?_map_shape (depth : Nat) (tokens : List Token) :
    depthAfter? depth (tokens.map Token.shape) = depthAfter? depth tokens := by
  induction tokens generalizing depth with
  | nil => rfl
  | cons token rest ih => simp [depthAfter?_cons, ih]

private theorem surface_map_shape (depth : Nat) (tokens : List Token) :
    surface depth (tokens.map Token.shape) = (surface depth tokens).map Token.shape := by
  -- induction on the tokens: brackets are their own shapes, so the depths agree
  induction tokens generalizing depth with
  | nil => rfl
  | cons token rest ih =>
    cases token with
    | opening => exact ih _
    | closing => exact ih _
    | _ =>
      simp only [List.map_cons, Token.shape, surface, ih]
      split <;> rfl

private theorem mem_of_map_shape_eq {a b : List Token} {t : Token}
    (h : b.map Token.shape = a.map Token.shape) (hmem : t ∈ b) (ht : ∀ text, t ≠ .word text) :
    t ∈ a := by
  have hshape : t.shape ∈ a.map Token.shape := h ▸ List.mem_map_of_mem hmem
  obtain ⟨u, hu, hshape⟩ := List.mem_map.mp hshape
  obtain rfl := (Token.shape_eq_iff ht).mp hshape
  exact hu

/-- Tokens of the same shape as some tokens around a connective or a parenthesis. -/
theorem exists_append_cons_of_map_shape_eq {tokens a b : List Token} {t : Token}
    (h : tokens.map Token.shape = (a ++ t :: b).map Token.shape) (ht : ∀ text, t ≠ .word text) :
    ∃ a' b', tokens = a' ++ t :: b' ∧ a'.map Token.shape = a.map Token.shape ∧
      b'.map Token.shape = b.map Token.shape := by
  rw [List.map_append, List.map_cons] at h
  obtain ⟨a', rest, rfl, ha, hrest⟩ := List.map_eq_append_iff.mp h
  -- a token that is no word is the only one of its shape
  obtain ⟨u, b', rfl, hu, hb⟩ := List.map_eq_cons_iff.mp hrest
  obtain rfl := (Token.shape_eq_iff ht).mp hu
  exact ⟨a', b', rfl, ha, hb⟩

private theorem IsAtom.of_map_shape_eq {a b : List Token} (ha : IsAtom a)
    (h : b.map Token.shape = a.map Token.shape) : IsAtom b := by
  -- shapes forget the texts of words only, so the surfaces agree in every connective
  have hsurface : (surface 0 b).map Token.shape = (surface 0 a).map Token.shape := by
    rw [← surface_map_shape, h, surface_map_shape]
  refine ⟨⟨?_, fun hmem => ?_, fun hmem => ?_⟩, fun hnil => ?_⟩
  · rw [Paired, ← depthAfter?_map_shape, h, depthAfter?_map_shape]
    exact ha.paired
  · exact ha.and_not_mem (mem_of_map_shape_eq hsurface hmem nofun)
  · exact ha.or_not_mem (mem_of_map_shape_eq hsurface hmem nofun)
  · rw [hnil, List.map_nil, eq_comm, List.map_eq_nil_iff] at hsurface
    exact ha.surface_ne_nil hsurface

/-- Whether tokens can be read does not depend on the texts of their words. -/
theorem Reads.exists_of_map_shape_eq {level : Level} {a b : List Token} {f : Formula}
    (ha : Reads level a f) (h : b.map Token.shape = a.map Token.shape) : ∃ g, Reads level b g := by
  -- Parentheses and connectives have shapes of their own, so both readings split at the same places.
  induction ha generalizing b with
  | atom hatom => exact ⟨_, .atom (hatom.of_map_shape_eq h)⟩
  | group _ ih =>
    obtain ⟨start, rest, rfl, hstart, hrest⟩ :=
      exists_append_cons_of_map_shape_eq (a := []) h nofun
    obtain rfl := List.map_eq_nil_iff.mp hstart
    obtain ⟨inner, last, rfl, hinner, hlast⟩ := exists_append_cons_of_map_shape_eq hrest nofun
    obtain rfl := List.map_eq_nil_iff.mp hlast
    obtain ⟨g, hg⟩ := ih hinner
    exact ⟨g, .group hg⟩
  | operand _ ih =>
    obtain ⟨g, hg⟩ := ih h
    exact ⟨g, .operand hg⟩
  | and _ _ iha ihb =>
    obtain ⟨first, second, rfl, hfirst, hsecond⟩ := exists_append_cons_of_map_shape_eq h nofun
    obtain ⟨f, hf⟩ := iha hfirst
    obtain ⟨g, hg⟩ := ihb hsecond
    exact ⟨_, .and hf hg⟩
  | conjunction _ ih =>
    obtain ⟨g, hg⟩ := ih h
    exact ⟨g, .conjunction hg⟩
  | or _ _ iha ihb =>
    obtain ⟨first, second, rfl, hfirst, hsecond⟩ := exists_append_cons_of_map_shape_eq h nofun
    obtain ⟨f, hf⟩ := iha hfirst
    obtain ⟨g, hg⟩ := ihb hsecond
    exact ⟨_, .or hf hg⟩

/-! ## Conjunctions -/

/-- Two conjunctions with AND between them are one conjunction. -/
theorem Reads.exists_and {level : Level} {a b : List Token} {f g : Formula}
    (ha : Reads .conjunction a f) (hb : Reads level b g) (hlevel : level ≠ .disjunction) :
    ∃ h, Reads .conjunction (a ++ .and :: b) h ∧
      ∀ truth, h.Holds truth ↔ f.Holds truth ∧ g.Holds truth := by
  induction hb with
  | atom hatom => exact ⟨_, .and ha (.atom hatom), fun _ => Iff.rfl⟩
  | group hinner _ => exact ⟨_, .and ha (.group hinner), fun _ => Iff.rfl⟩
  | operand _ ih => exact ih nofun
  | @and first last _ _ _ hlast ih _ =>
    -- The last operand of the second conjunction is the last one of the whole.
    obtain ⟨h, hh, hholds⟩ := ih nofun
    have hwhole := Reads.and hh hlast
    rw [List.append_assoc, List.cons_append] at hwhole
    refine ⟨_, hwhole, fun truth => ?_⟩
    simp only [Formula.Holds, hholds, and_assoc]
  | conjunction => exact absurd rfl hlevel
  | or => exact absurd rfl hlevel

end FieldQuery.Sql
