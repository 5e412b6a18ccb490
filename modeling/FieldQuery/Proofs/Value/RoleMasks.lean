import FieldQuery.Value.Roles
import FieldQuery.Proofs.Text.Trimming
import Mathlib.Data.List.Basic

/-!
# Masks of roles

A set of roles is read from a text that lists their names. A name counts for the first role that has
it, up to ASCII case, and a role counts if its position is one of the bits. Main statement: when a
text is read, which bits the number has then, and why a text is refused otherwise. So neither the
order of the names nor repetitions nor what stands between the names matters.
-/

namespace FieldQuery.Value

open FieldQuery.Text

/-! ## The names in a text -/

/-- What stands between the names in a text. -/
def betweenNames (c : Char) : Bool :=
  c == ',' || isBlank c

/-- A text lists names: each of them goes on as long as no comma and no white space comes up. -/
inductive Lists : List Char → List (List Char) → Prop
  | nil : Lists [] []
  | gap {c : Char} {rest : List Char} {names : List (List Char)} (hc : betweenNames c = true)
      (h : Lists rest names) : Lists (c :: rest) names
  | name {name rest : List Char} {names : List (List Char)} (hne : name ≠ [])
      (hname : ∀ c ∈ name, betweenNames c = false)
      (hrest : ∀ c ∈ rest.head?, betweenNames c = true) (h : Lists rest names) :
      Lists (name ++ rest) (name :: names)

variable {text text' : List Char} {names names' : List (List Char)}

private theorem roleNames_eq (text : List Char) :
    roleNames text = (text.splitOnP betweenNames).filter fun name => !name.isEmpty := rfl

private theorem roleNames_gap {c : Char} (hc : betweenNames c = true) (rest : List Char) :
    roleNames (c :: rest) = roleNames rest := by
  rw [roleNames_eq, roleNames_eq, List.splitOnP_cons_eq_if_modifyHead, if_pos hc]
  rfl

private theorem roleNames_name {name rest : List Char} (hne : name ≠ [])
    (hname : ∀ c ∈ name, betweenNames c = false)
    (hrest : ∀ c ∈ rest.head?, betweenNames c = true) :
    roleNames (name ++ rest) = name :: roleNames rest := by
  cases rest with
  | nil =>
    rw [roleNames_eq, List.append_nil, List.splitOnP_eq_singleton hname]
    simp [roleNames_eq, hne]
  | cons separator rest =>
    -- The separator belongs to no name, so it may be taken off what is left.
    have hseparator : betweenNames separator = true := hrest separator rfl
    rw [roleNames_gap hseparator, roleNames_eq,
      List.splitOnP_append_cons_of_forall_mem hname separator hseparator]
    simp [roleNames_eq, hne]

/-- The names that are found are those that the text lists. -/
theorem Lists.roleNames_eq (h : Lists text names) : roleNames text = names := by
  induction h with
  | nil => rfl
  | gap hc _ ih => rw [roleNames_gap hc, ih]
  | name hne hname hrest _ ih => rw [roleNames_name hne hname hrest, ih]

/-- Every text lists names. -/
theorem lists_roleNames (text : List Char) : Lists text (roleNames text) := by
  -- On the length of the text: a separator or a whole name is taken off its front.
  induction hlength : text.length using Nat.strong_induction_on generalizing text with
  | _ n ih =>
    rcases text with _ | ⟨c, rest⟩
    · exact .nil
    by_cases hc : betweenNames c = true
    · rw [roleNames_gap hc]
      exact .gap hc (ih rest.length (by simp [← hlength]) rest rfl)
    · let inName := fun c => !betweenNames c
      have hinName : inName c = true := by simp [inName, hc]
      have hne : (c :: rest).takeWhile inName ≠ [] := by simp [hinName]
      have hname : ∀ d ∈ (c :: rest).takeWhile inName, betweenNames d = false := by
        intro d hd
        simpa [inName] using List.mem_takeWhile_imp hd
      have hrest : ∀ d ∈ ((c :: rest).dropWhile inName).head?, betweenNames d = true := by
        intro d hd
        simpa [inName] using head?_dropWhile d hd
      have hshorter : ((c :: rest).dropWhile inName).length < n := by
        have hle := (List.dropWhile_sublist inName (l := rest)).length_le
        simp [hinName, ← hlength]
        omega
      rw [← List.takeWhile_append_dropWhile (p := inName) (l := c :: rest),
        roleNames_name hne hname hrest]
      exact .name hne hname hrest (ih _ hshorter _ rfl)

/-- A text lists these names and no others. -/
theorem lists_iff : Lists text names ↔ names = roleNames text :=
  ⟨fun h => h.roleNames_eq.symm, fun h => h ▸ lists_roleNames text⟩

/-! ## The bit of a name -/

/-- A name stands for the role at a position: the first one that has this name, up to ASCII case. -/
structure IsFirst (roles : List String) (name : List Char) (position : ℕ) : Prop where
  named : ∃ role, roles[position]? = some role ∧ sameIgnoringCase role.toList name = true
  first : ∀ earlier < position, ∀ role, roles[earlier]? = some role →
    sameIgnoringCase role.toList name = false

/-- Why a name is refused: no role has it, or the position of the role is none of the bits. -/
inductive Refuses (roles : List String) (name : List Char) : ParseFault → Prop
  | unknown (h : ∀ role ∈ roles, sameIgnoringCase role.toList name = false) :
      Refuses roles name (.unknownRole (String.ofList name))
  | beyond {position : ℕ} (h : IsFirst roles name position) (hbeyond : roleBits ≤ position) :
      Refuses roles name (.roleWithoutBit (String.ofList name))

variable {roles : List String} {name name' : List Char} {bit : ℕ}

private theorem findIdx?_eq_some_iff_isFirst :
    roles.findIdx? (fun role => sameIgnoringCase role.toList name) = some bit ↔
      IsFirst roles name bit := by
  -- the first position found is the one nothing before it matches
  rw [List.findIdx?_eq_some_iff_getElem]
  constructor
  · intro h
    obtain ⟨hbit, hnamed, hfirst⟩ := h
    refine ⟨⟨roles[bit], List.getElem?_eq_getElem hbit, hnamed⟩,
      fun earlier hearlier role hrole => ?_⟩
    obtain ⟨_, rfl⟩ := List.getElem?_eq_some_iff.mp hrole
    simpa using hfirst earlier hearlier
  · intro h
    obtain ⟨role, hrole, hnamed⟩ := h.named
    obtain ⟨hbit, rfl⟩ := List.getElem?_eq_some_iff.mp hrole
    refine ⟨hbit, hnamed, fun earlier hearlier => ?_⟩
    simpa using h.first earlier hearlier _ (List.getElem?_eq_getElem (hearlier.trans hbit))

/-- A name stands first at one place. -/
theorem IsFirst.unique {bit' : ℕ} (h : IsFirst roles name bit) (h' : IsFirst roles name bit') :
    bit = bit' := by
  have hfound := findIdx?_eq_some_iff_isFirst.mpr h
  rw [findIdx?_eq_some_iff_isFirst.mpr h'] at hfound
  exact (Option.some.inj hfound).symm

/-- The case of a name does not matter. -/
theorem IsFirst.congr (hsame : sameIgnoringCase name name' = true) :
    IsFirst roles name bit ↔ IsFirst roles name' bit := by
  have hlower : asciiLower name = asciiLower name' := by simpa [sameIgnoringCase] using hsame
  rw [← findIdx?_eq_some_iff_isFirst, ← findIdx?_eq_some_iff_isFirst]
  simp only [sameIgnoringCase, hlower]

private theorem roleBit_eq_ok_iff :
    roleBit roles name = .ok bit ↔ IsFirst roles name bit ∧ bit < roleBits := by
  rw [← findIdx?_eq_some_iff_isFirst]
  unfold roleBit
  -- no role of the name has no bit, and a role too far along has none either
  cases roles.findIdx? fun role => sameIgnoringCase role.toList name with
  | none => simp
  | some position =>
    simp only [Option.some.injEq]
    split
    · next hbit =>
      simp only [Except.ok.injEq]
      exact ⟨fun h => ⟨h, h ▸ hbit⟩, And.left⟩
    · next hbeyond => exact ⟨nofun, fun h => absurd (h.1 ▸ h.2) hbeyond⟩

private theorem refuses_of_roleBit {fault : ParseFault} (h : roleBit roles name = .error fault) :
    Refuses roles name fault := by
  unfold roleBit at h
  split at h
  · next hnone =>
    cases h
    exact .unknown (List.findIdx?_eq_none_iff.mp hnone)
  · next position hfound =>
    split at h
    · simp at h
    · next hbeyond =>
      cases h
      exact .beyond (findIdx?_eq_some_iff_isFirst.mp hfound) (not_lt.mp hbeyond)

/-! ## The bits of names -/

/-- A name that counts for one of the bits. -/
def HasBit (roles : List String) (name : List Char) : Prop :=
  ∃ bit, IsFirst roles name bit ∧ bit < roleBits

private theorem addRoles_cons (mask : ℕ) (rest : List (List Char)) :
    addRoles roles mask (name :: rest) =
      (roleBit roles name).bind fun bit => addRoles roles (mask ||| 1 <<< bit) rest := rfl

private theorem testBit_one_shiftLeft (bit i : ℕ) : (1 <<< bit).testBit i = true ↔ bit = i := by
  rw [Nat.one_shiftLeft, Nat.testBit_two_pow, decide_eq_true_eq]

/-- The bits that come in are those of the names. -/
theorem testBit_addRoles {mask total : ℕ} (h : addRoles roles mask names = .ok total) :
    (∀ name ∈ names, HasBit roles name) ∧
      ∀ i, total.testBit i = true ↔
        mask.testBit i = true ∨ ∃ name ∈ names, IsFirst roles name i := by
  -- induction on the names: each sets the bit of the first role it names
  induction names generalizing mask with
  | nil =>
    cases h
    simp
  | cons name rest ih =>
    rw [addRoles_cons] at h
    cases hbit : roleBit roles name with
    | error fault =>
      rw [hbit] at h
      cases h
    | ok bit =>
      rw [hbit] at h
      obtain ⟨hfirst, hlt⟩ := roleBit_eq_ok_iff.mp hbit
      obtain ⟨hrest, htotal⟩ := ih h
      have hown (i : ℕ) : bit = i ↔ IsFirst roles name i :=
        ⟨fun heq => heq ▸ hfirst, fun hi => hfirst.unique hi⟩
      refine ⟨List.forall_mem_cons.mpr ⟨⟨bit, hfirst, hlt⟩, hrest⟩, fun i => ?_⟩
      rw [htotal, Nat.testBit_or, Bool.or_eq_true, testBit_one_shiftLeft, hown, or_assoc]
      simp

/-- Names that have bits are added. -/
theorem exists_addRoles (mask : ℕ) (h : ∀ name ∈ names, HasBit roles name) :
    ∃ total, addRoles roles mask names = .ok total := by
  -- induction on the names: each has a bit, so none is refused
  induction names generalizing mask with
  | nil => exact ⟨mask, rfl⟩
  | cons name rest ih =>
    obtain ⟨⟨bit, hbit⟩, hrest⟩ := List.forall_mem_cons.mp h
    rw [addRoles_cons, roleBit_eq_ok_iff.mpr hbit]
    exact ih _ hrest

/-- The first name without a bit is the one that is reported. -/
theorem refuses_of_addRoles {mask : ℕ} {fault : ParseFault}
    (h : addRoles roles mask names = .error fault) :
    ∃ before name after, names = before ++ name :: after ∧
      (∀ earlier ∈ before, HasBit roles earlier) ∧ Refuses roles name fault := by
  -- induction on the names: the first one without a bit is refused, the ones before it had theirs
  induction names generalizing mask with
  | nil => cases h
  | cons name rest ih =>
    rw [addRoles_cons] at h
    cases hbit : roleBit roles name with
    | error fault' =>
      rw [hbit] at h
      cases h
      exact ⟨[], name, rest, rfl, by simp, refuses_of_roleBit hbit⟩
    | ok bit =>
      rw [hbit] at h
      obtain ⟨before, refused, after, rfl, hbefore, hrefused⟩ := ih h
      have hname : HasBit roles name := ⟨bit, roleBit_eq_ok_iff.mp hbit⟩
      exact ⟨name :: before, refused, after, rfl, List.forall_mem_cons.mpr ⟨hname, hbefore⟩,
        hrefused⟩

/-! ## The mask -/

/-- A mask of named roles: its bits are those of the names. -/
structure Masks (roles : List String) (names : List (List Char)) (mask : Int64) : Prop where
  pos : 0 < mask
  bit_iff : ∀ i, mask.toBitVec.getLsbD i = true ↔ ∃ name ∈ names, IsFirst roles name i

/-- The bits determine the mask. -/
theorem Masks.unique {mask mask' : Int64} (h : Masks roles names mask)
    (h' : Masks roles names' mask')
    (hnames : ∀ i, (∃ name ∈ names, IsFirst roles name i) ↔ ∃ name ∈ names', IsFirst roles name i) :
    mask = mask' := by
  -- masks are compared bit by bit, and each bit is that of some name
  apply Int64.toBitVec_inj.mp
  apply BitVec.eq_of_getLsbD_eq
  intro i _
  rw [Bool.eq_iff_iff, h.bit_iff, h'.bit_iff, hnames]

/-- The sign bit stays free, so the number is positive. -/
theorem masks_of_addRoles {total : ℕ} (hne : names ≠ [])
    (h : addRoles roles 0 names = .ok total) : Masks roles names (Int64.ofNat total) := by
  obtain ⟨hbits, htotal⟩ := testBit_addRoles h
  simp only [Nat.zero_testBit, Bool.false_eq_true, false_or] at htotal
  have hlt : total < 2 ^ roleBits := by
    apply Nat.lt_pow_two_of_testBit
    intro i hi
    by_contra hset
    obtain ⟨name, hname, hfirst⟩ := (htotal i).mp (by simpa using hset)
    obtain ⟨bit, hbit, hbelow⟩ := hbits name hname
    rw [hbit.unique hfirst] at hbelow
    exact absurd hbelow (not_lt.mpr hi)
  have hpos : 0 < total := by
    obtain ⟨name, rest, rfl⟩ := List.exists_cons_of_ne_nil hne
    obtain ⟨bit, hbit, -⟩ := hbits name List.mem_cons_self
    apply Nat.pos_of_ne_zero
    intro hzero
    have hset := (htotal bit).mpr ⟨name, List.mem_cons_self, hbit⟩
    simp [hzero] at hset
  constructor
  · rw [Int64.lt_iff_toInt_lt, Int64.toInt_ofNat_of_lt hlt]
    exact Int.natCast_pos.mpr hpos
  · intro i
    rw [Int64.toBitVec_ofNat', BitVec.getLsbD_ofNat, ← htotal, Bool.and_eq_true, decide_eq_true_eq]
    refine and_iff_right_of_imp fun hset => ?_
    -- A number below the sign bit has no bit beyond it.
    by_contra hi
    have hbits : roleBits ≤ i := by
      unfold roleBits
      omega
    have hbeyond := Nat.testBit_lt_two_pow (hlt.trans_le (Nat.pow_le_pow_right (by decide) hbits))
    simp [hbeyond] at hset

/-! ## Reading roles -/

private theorem parseRoles_of_names (roles : List String) {text : String}
    (hne : roleNames text.toList ≠ []) :
    parseRoles roles text = ((reported .roles text (addRoles roles 0 (roleNames text.toList))).map
      fun total => .integer (Int64.ofNat total)) := by
  unfold parseRoles roleMask
  split
  · next hnil => exact absurd hnil hne
  · cases addRoles roles 0 (roleNames text.toList) <;> rfl

private theorem parseRoles_of_no_names (roles : List String) {text : String}
    (hnil : roleNames text.toList = []) :
    parseRoles roles text = .error (.parse .roles text .noRoles) := by
  unfold parseRoles roleMask
  rw [hnil]
  rfl

/-- What is read from a text is the mask of its names, and each of these has a bit. -/
theorem masks_of_parseRoles {text : String} {term : Term} (h : parseRoles roles text = .ok term) :
    (roleNames text.toList ≠ [] ∧ ∀ name ∈ roleNames text.toList, HasBit roles name) ∧
      ∃ mask, term = .integer mask ∧ Masks roles (roleNames text.toList) mask := by
  by_cases hnil : roleNames text.toList = []
  · rw [parseRoles_of_no_names roles hnil] at h
    cases h
  · rw [parseRoles_of_names roles hnil] at h
    cases htotal : addRoles roles 0 (roleNames text.toList) with
    | error fault =>
      rw [htotal] at h
      cases h
    | ok total =>
      rw [htotal] at h
      cases h
      exact ⟨⟨hnil, (testBit_addRoles htotal).1⟩, _, rfl, masks_of_addRoles hnil htotal⟩

private theorem exists_parseRoles {text : String} (hne : roleNames text.toList ≠ [])
    (hbits : ∀ name ∈ roleNames text.toList, HasBit roles name) :
    ∃ term, parseRoles roles text = .ok term := by
  obtain ⟨total, htotal⟩ := exists_addRoles 0 hbits
  rw [parseRoles_of_names roles hne, htotal]
  exact ⟨_, rfl⟩

/-- A text is refused because it lists no names, or because of the first one without a bit. -/
theorem refuses_of_parseRoles {text : String} {e : QueryError}
    (h : parseRoles roles text = .error e) :
    ∃ fault, e = .parse .roles text fault ∧
      (roleNames text.toList = [] ∧ fault = .noRoles ∨
        ∃ before name after, roleNames text.toList = before ++ name :: after ∧
          (∀ earlier ∈ before, HasBit roles earlier) ∧ Refuses roles name fault) := by
  by_cases hnil : roleNames text.toList = []
  · rw [parseRoles_of_no_names roles hnil] at h
    cases h
    exact ⟨_, rfl, Or.inl ⟨hnil, rfl⟩⟩
  · rw [parseRoles_of_names roles hnil] at h
    cases htotal : addRoles roles 0 (roleNames text.toList) with
    | ok total =>
      rw [htotal] at h
      cases h
    | error fault =>
      rw [htotal] at h
      cases h
      exact ⟨fault, rfl, Or.inr (refuses_of_addRoles htotal)⟩

/-- Every name of the one list is, up to ASCII case, a name of the other. -/
def Covers (names names' : List (List Char)) : Prop :=
  ∀ name ∈ names, ∃ name' ∈ names', sameIgnoringCase name name' = true

private theorem Covers.exists_isFirst (h : Covers names names') {i : ℕ}
    (hi : ∃ name ∈ names, IsFirst roles name i) : ∃ name ∈ names', IsFirst roles name i := by
  obtain ⟨name, hname, hfirst⟩ := hi
  obtain ⟨name', hname', hsame⟩ := h name hname
  exact ⟨name', hname', (IsFirst.congr hsame).mp hfirst⟩

private theorem Covers.hasBit (h : Covers names names') (hbits : ∀ name ∈ names', HasBit roles name) :
    ∀ name ∈ names, HasBit roles name := by
  intro name hname
  obtain ⟨name', hname', hsame⟩ := h name hname
  obtain ⟨bit, hfirst, hlt⟩ := hbits name' hname'
  exact ⟨bit, (IsFirst.congr hsame).mpr hfirst, hlt⟩

/-- Two texts with the same names are read as the same mask. -/
theorem parseRoles_of_covers {text text' : String} {term : Term}
    (hcovers : Covers (roleNames text.toList) (roleNames text'.toList))
    (hcovers' : Covers (roleNames text'.toList) (roleNames text.toList))
    (h : parseRoles roles text = .ok term) : parseRoles roles text' = .ok term := by
  obtain ⟨⟨hne, hbits⟩, mask, rfl, hmask⟩ := masks_of_parseRoles h
  -- the names cover each other, so both texts name a role
  have hne' : roleNames text'.toList ≠ [] := by
    obtain ⟨name, rest, heq⟩ := List.exists_cons_of_ne_nil hne
    obtain ⟨name', hname', -⟩ := hcovers name (heq ▸ List.mem_cons_self)
    exact List.ne_nil_of_mem hname'
  obtain ⟨term', hterm'⟩ := exists_parseRoles hne' (hcovers'.hasBit hbits)
  obtain ⟨-, mask', rfl, hmask'⟩ := masks_of_parseRoles hterm'
  rw [hterm', hmask'.unique hmask fun i => ⟨hcovers'.exists_isFirst, hcovers.exists_isFirst⟩]

/-- A text lists certain names and no others. It is read as a set of roles if there are names and
each of them counts for one of the bits. The number is positive then, and its bits are those of the
names. A text is refused because there are no names or because of the first one without a bit. Texts
with the same names, in any order, any case and any number, are read as the same set. -/
theorem parseRoles_masks_names (roles : List String) (text : String) :
    ∃ names, (∀ names', Lists text.toList names' ↔ names' = names) ∧
      ((∃ term, parseRoles roles text = .ok term) ↔
        names ≠ [] ∧ ∀ name ∈ names, ∃ bit, IsFirst roles name bit ∧ bit < 63) ∧
      (∀ term, parseRoles roles text = .ok term →
        ∃ mask, term = .integer mask ∧ Masks roles names mask) ∧
      (∀ e, parseRoles roles text = .error e →
        ∃ fault, e = .parse .roles text fault ∧
          (names = [] ∧ fault = .noRoles ∨
            ∃ before name after, names = before ++ name :: after ∧
              (∀ earlier ∈ before, HasBit roles earlier) ∧ Refuses roles name fault)) ∧
      ∀ (text' : String) (names' : List (List Char)), Lists text'.toList names' →
        Covers names names' → Covers names' names →
          ∀ term, parseRoles roles text = .ok term ↔ parseRoles roles text' = .ok term := by
  -- the names are the ones the text lists; the parts follow from the mask and from the refusal
  refine ⟨roleNames text.toList, fun names' => lists_iff, ⟨?_, ?_⟩, ?_, ?_, ?_⟩
  · intro h
    obtain ⟨term, hterm⟩ := h
    exact (masks_of_parseRoles hterm).1
  · intro h
    exact exists_parseRoles h.1 h.2
  · intro term hterm
    exact (masks_of_parseRoles hterm).2
  · intro e he
    exact refuses_of_parseRoles he
  · intro text' names' hlists hcovers hcovers' term
    rw [lists_iff] at hlists
    subst hlists
    exact ⟨parseRoles_of_covers hcovers hcovers', parseRoles_of_covers hcovers' hcovers⟩

example : parseRoles ["admin", "Member", "guest"] "GUEST,, member guest" = .ok (.integer 6) := by
  decide +kernel

end FieldQuery.Value
