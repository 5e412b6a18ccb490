import FieldQuery.Proofs.Number.Doubles
import FieldQuery.Proofs.Number.Rounding
import FieldQuery.Retry
import Mathlib.Logic.Function.Iterate

/-!
# The calls of a repeated operation

An operation has a sequence of outcomes without an end, and a policy bounds how many of them are asked
for. What is promised is that the calls go on up to the first success, or up to the last attempt if there
is none. Main statement: the promise is kept when every wait that comes up is one that a clock can
measure, and the repetition breaks off without a result at the first wait that is not. Either way a loop
that would go on for ever if nothing ended it comes to its end within the attempts.
-/

namespace FieldQuery

open FieldQuery.Number

variable {ε α : Type}

/-! ## Waits -/

namespace Wait

/-- What is no length of time that a clock can measure. -/
def OutOfRange (seconds : Binary64) : Prop :=
  seconds.isFinite = false ∨ seconds.value < 0 ∨ 2 ^ 64 ≤ seconds.value

/-- A number of nanoseconds is too large when the number of seconds that it is rounded from is. -/
theorem lt_roundHalfEven_iff {x : Magnitude} (hx : x.Canonical) :
    roundHalfEven (x.numerator * secondNanos) x.denominator < twoTo 64 * secondNanos ↔
      x.value < 2 ^ 64 := by
  have hrounds : RoundsTo (x.value * secondNanos)
      (roundHalfEven (x.numerator * secondNanos) x.denominator) := by
    have h := roundsTo_roundHalfEven (x.numerator * secondNanos) x.denominator_pos
    rwa [Nat.cast_mul, mul_div_right_comm, x.numerator_div_denominator] at h
  have hnanos : (0 : ℚ) < secondNanos := by norm_num [secondNanos]
  constructor
  · contrapose!
    intro hlarge
    refine (roundsTo_natCast _).mono hrounds ?_
    rw [Nat.cast_mul, cast_twoTo]
    exact mul_le_mul_of_nonneg_right hlarge hnanos.le
  · intro hsmall
    -- Below `2 ^ 53` there is room enough to round up, and from there on nothing is rounded.
    rcases lt_or_ge x.exponent 0 with hfraction | hwhole
    · have hvalue : x.value ≤ 2 ^ 53 := by
        have hsignificand : (x.significand : ℚ) ≤ 2 ^ 53 := by exact_mod_cast hx.significand_lt.le
        have hpow : (2 : ℚ) ^ x.exponent ≤ 1 := zpow_le_one_of_nonpos₀ one_le_two hfraction.le
        exact (mul_le_of_le_one_right (by positivity) hpow).trans hsignificand
      have hle : roundHalfEven (x.numerator * secondNanos) x.denominator ≤ 2 ^ 53 * secondNanos := by
        refine hrounds.mono (roundsTo_natCast _) ?_
        rw [Nat.cast_mul, Nat.cast_pow]
        exact mul_le_mul_of_nonneg_right hvalue hnanos.le
      exact lt_of_le_of_lt hle (by decide)
    · have hdenominator : x.denominator = 1 := by
        rw [Magnitude.denominator, Int.toNat_of_nonpos (neg_nonpos.mpr hwhole)]
        rfl
      have hvalue : (x.numerator : ℚ) = x.value := by
        rw [← x.numerator_div_denominator, hdenominator, Nat.cast_one, div_one]
      rw [hdenominator, roundHalfEven_one]
      refine Nat.mul_lt_mul_of_pos_right ?_ (by decide)
      rw [← Nat.cast_lt (α := ℚ), hvalue, cast_twoTo]
      exact hsmall

/-- A double is below zero when its sign bit is set and it is not zero. -/
theorem value_neg_iff (x : Binary64) :
    x.value < 0 ↔ (x.isNegative && x.isNonzero) = true := by
  have hzero : x.magnitude.value ≠ 0 ↔ x.isNonzero = true := by
    rw [Ne, Magnitude.value_eq_zero_iff, Binary64.magnitude, Binary64.isNonzero]
    split <;> simp_all [twoTo]
  rw [Bool.and_eq_true, ← hzero, ← x.magnitude.value_nonneg.lt_iff_ne', Binary64.value]
  split <;> simp_all [x.magnitude.value_nonneg]

/-- There is no wait for a number of seconds that is out of range, and for no other. -/
theorem ofSeconds?_eq_none_iff (x : Binary64) : ofSeconds? x = none ↔ OutOfRange x := by
  have hround := lt_roundHalfEven_iff x.canonical_magnitude
  have hvalue : x.value < 0 ∨ x.value = x.magnitude.value := by
    have hnonneg := x.magnitude.value_nonneg
    unfold Binary64.value
    split
    · exact hnonneg.eq_or_lt.symm.imp neg_neg_of_pos fun h => by rw [← h, neg_zero]
    · exact .inr rfl
  -- the test reads the sign bit and the magnitude apart; the two readings of `hvalue` join them
  unfold ofSeconds? OutOfRange
  split
  case isTrue hrange =>
    rw [Bool.or_eq_true, Bool.not_eq_true', ← value_neg_iff] at hrange
    exact iff_of_true rfl (hrange.imp_right .inl)
  case isFalse hrange =>
    rw [Bool.or_eq_true, Bool.not_eq_true', ← value_neg_iff, not_or] at hrange
    obtain ⟨hfinite, hnonneg⟩ := hrange
    rw [← hvalue.resolve_left hnonneg] at hround
    simp only [hfinite, hnonneg, false_or, dite_eq_right_iff, reduceCtorEq, imp_false, hround, not_lt]

end Wait

/-! ## Repeated calls -/

namespace RetryPolicy

variable {policy : RetryPolicy} {outcomes : Nat → Except ε α} {call more : Nat}

/-- The calls are those that the attempts of the policy allow, up to the first success; the result is
that of the last call. -/
def Promised (outcomes : Nat → Except ε α) (limit : Nat) (attempted : Attempted ε α) : Prop :=
  (∃ i < limit, ∃ a, outcomes i = .ok a ∧ (∀ j < i, ∃ e, outcomes j = .error e) ∧
    attempted = ⟨some (.ok a), i + 1⟩) ∨
  ((∀ i < limit, ∃ e, outcomes i = .error e) ∧
    ∃ e, outcomes (limit - 1) = .error e ∧ attempted = ⟨some (.error e), limit⟩)

private theorem Promised.isSome_result {limit : Nat} {attempted : Attempted ε α}
    (h : Promised outcomes limit attempted) : attempted.result.isSome := by
  obtain ⟨i, hi, a, ha, hbefore, rfl⟩ | ⟨hfailures, e, he, rfl⟩ := h <;> rfl

/-- An attempt is made, after its wait, and fails. -/
def Fails (policy : RetryPolicy) (outcomes : Nat → Except ε α) (i : Nat) : Prop :=
  (policy.waitBefore? i).isSome ∧ ∃ e, outcomes i = .error e

/-- The ways in which a repetition ends, all after some failures: at a success, at the last failure, or
at a wait that there is not. -/
inductive ComesTo (policy : RetryPolicy) (outcomes : Nat → Except ε α) (limit : Nat) :
    Attempted ε α → Prop where
  | success {i : Nat} {a : α} (hi : i < limit) (hbefore : ∀ j < i, policy.Fails outcomes j)
      (hwait : (policy.waitBefore? i).isSome) (h : outcomes i = .ok a) :
      ComesTo policy outcomes limit ⟨some (.ok a), i + 1⟩
  | failure {i : Nat} {e : ε} (hi : i + 1 = limit) (hbefore : ∀ j < i, policy.Fails outcomes j)
      (hwait : (policy.waitBefore? i).isSome) (h : outcomes i = .error e) :
      ComesTo policy outcomes limit ⟨some (.error e), i + 1⟩
  | breakOff {i : Nat} (hi : i < limit) (hbefore : ∀ j < i, policy.Fails outcomes j)
      (hwait : policy.waitBefore? i = none) :
      ComesTo policy outcomes limit ⟨none, i⟩

private theorem attemptFrom_of_none (h : policy.waitBefore? call = none) :
    policy.attemptFrom outcomes call more = ⟨none, call⟩ := by
  rw [attemptFrom.eq_def, h]

private theorem attemptFrom_of_ok {a : α} (hwait : (policy.waitBefore? call).isSome)
    (h : outcomes call = .ok a) :
    policy.attemptFrom outcomes call more = ⟨some (.ok a), call + 1⟩ := by
  obtain ⟨wait, hwait⟩ := Option.isSome_iff_exists.mp hwait
  cases more <;> simp [attemptFrom, hwait, h]

private theorem attemptFrom_of_error {e : ε} (hwait : (policy.waitBefore? call).isSome)
    (h : outcomes call = .error e) :
    policy.attemptFrom outcomes call more =
      match more with
      | 0 => ⟨some (.error e), call + 1⟩
      | more + 1 => policy.attemptFrom outcomes (call + 1) more := by
  obtain ⟨wait, hwait⟩ := Option.isSome_iff_exists.mp hwait
  -- the failure is final only if no call is left
  cases more <;> simp [attemptFrom, hwait, h]

/-- A repetition that has failed so far comes to one of its ends. -/
theorem comesTo_attemptFrom (hbefore : ∀ j < call, policy.Fails outcomes j) :
    ComesTo policy outcomes (call + more + 1) (policy.attemptFrom outcomes call more) := by
  -- Each failure uses up one call and one of those that remain.
  induction more generalizing call with
  | zero =>
    rcases Option.eq_none_or_eq_some (policy.waitBefore? call) with hwait | ⟨wait, hwait⟩
    · rw [attemptFrom_of_none hwait]
      exact .breakOff (Nat.lt_succ_self call) hbefore hwait
    · have hwait : (policy.waitBefore? call).isSome := Option.isSome_of_eq_some hwait
      cases h : outcomes call with
      | ok a =>
        rw [attemptFrom_of_ok hwait h]
        exact .success (Nat.lt_succ_self call) hbefore hwait h
      | error e =>
        rw [attemptFrom_of_error hwait h]
        exact .failure rfl hbefore hwait h
  | succ more ih =>
    rcases Option.eq_none_or_eq_some (policy.waitBefore? call) with hwait | ⟨wait, hwait⟩
    · rw [attemptFrom_of_none hwait]
      exact .breakOff (by omega) hbefore hwait
    · have hwait : (policy.waitBefore? call).isSome := Option.isSome_of_eq_some hwait
      cases h : outcomes call with
      | ok a =>
        rw [attemptFrom_of_ok hwait h]
        exact .success (by omega) hbefore hwait h
      | error e =>
        rw [attemptFrom_of_error hwait h, show call + (more + 1) + 1 = call + 1 + more + 1 by omega]
        refine ih fun j hj => ?_
        obtain hj | rfl := Nat.lt_succ_iff_lt_or_eq.mp hj
        · exact hbefore j hj
        · exact ⟨hwait, e, h⟩

private theorem comesTo_retry (policy : RetryPolicy) (outcomes : Nat → Except ε α) :
    ComesTo policy outcomes (max policy.attempts 1) (retry policy outcomes) := by
  have hlimit : 0 + (max policy.attempts 1 - 1) + 1 = max policy.attempts 1 := by omega
  rw [← hlimit]
  exact comesTo_attemptFrom fun j hj => absurd hj (Nat.not_lt_zero j)

/-- The promise is kept when every wait that comes up exists. -/
theorem ComesTo.promised_iff {limit : Nat} {attempted : Attempted ε α}
    (h : ComesTo policy outcomes limit attempted) :
    Promised outcomes limit attempted ↔
      ∀ i < limit, (∀ j < i, ∃ e, outcomes j = .error e) → (policy.waitBefore? i).isSome := by
  cases h with
  | @success i a hi hbefore hwait hsuccess =>
    refine iff_of_true (.inl ⟨i, hi, a, hsuccess, fun j hj => (hbefore j hj).2, rfl⟩) ?_
    -- No wait comes up after the success.
    intro k hk hfailures
    rcases Nat.lt_trichotomy k i with hlt | rfl | hgt
    · exact (hbefore k hlt).1
    · exact hwait
    · obtain ⟨e, he⟩ := hfailures i hgt
      exact absurd (hsuccess.symm.trans he) nofun
  | @failure i e hi hbefore hwait hfailure =>
    subst hi
    refine iff_of_true (.inr ⟨fun j hj => ?_, e, hfailure, rfl⟩) fun k hk _ => ?_
    · obtain hj | rfl := Nat.lt_succ_iff_lt_or_eq.mp hj
      · exact (hbefore j hj).2
      · exact ⟨e, hfailure⟩
    · obtain hk | rfl := Nat.lt_succ_iff_lt_or_eq.mp hk
      · exact (hbefore k hk).1
      · exact hwait
  | @breakOff i hi hbefore hwait =>
    refine iff_of_false (fun h => absurd h.isSome_result nofun) fun hwaits => ?_
    · have hsome := hwaits i hi fun j hj => (hbefore j hj).2
      rw [hwait] at hsome
      exact absurd hsome nofun

/-- There is no wait before an attempt when the growth is out of range. -/
theorem waitBefore?_eq_none_iff (policy : RetryPolicy) (i : Nat) :
    policy.waitBefore? i = none ↔ i ≠ 0 ∧ Wait.OutOfRange (policy.grown i) := by
  rw [← Wait.ofSeconds?_eq_none_iff]
  unfold waitBefore?
  split <;> simp_all

end RetryPolicy

/-- The steps that a loop takes to an end: one for each call, and one for a wait that there is not. -/
def Attempted.steps (attempted : Attempted ε α) : Nat :=
  if attempted.result.isSome then attempted.calls else attempted.calls + 1

private theorem RetryPolicy.ComesTo.steps_le {policy : RetryPolicy} {outcomes : Nat → Except ε α}
    {limit : Nat} {attempted : Attempted ε α} (h : ComesTo policy outcomes limit attempted) :
    attempted.steps ≤ limit := by
  cases h <;> simp only [Attempted.steps] <;> grind

/-! ## The loop -/

/-- Where a loop is: before its next wait, after some failures, or at its end. -/
inductive Stage (ε α : Type) where
  | trying (failures : Nat)
  | ended (result : Option (Except ε α))

/-- A loop and the number of calls that it has made. -/
structure Loop (ε α : Type) where
  stage : Stage ε α
  calls : Nat

namespace Loop

/-- A loop that begins. -/
def start : Loop ε α :=
  ⟨.trying 0, 0⟩

/-- One step of a loop: the next wait, which ends it if there is none, and the next call, which ends it
with a success, or with a failure if there have been as many as the limit. -/
def step (policy : RetryPolicy) (limit : Nat) (outcomes : Nat → Except ε α) (loop : Loop ε α) :
    Loop ε α :=
  match loop.stage with
  | .ended _ => loop
  | .trying failures =>
    match policy.waitBefore? failures with
    | none => ⟨.ended none, loop.calls⟩
    | some _ =>
      match outcomes loop.calls with
      | .ok a => ⟨.ended (some (.ok a)), loop.calls + 1⟩
      | .error e =>
        if limit ≤ failures + 1 then ⟨.ended (some (.error e)), loop.calls + 1⟩
        else ⟨.trying (failures + 1), loop.calls + 1⟩

variable {policy : RetryPolicy} {outcomes : Nat → Except ε α} {limit call : Nat}

/-- After its end a loop does nothing. -/
theorem iterate_step_ended (result : Option (Except ε α)) (calls n : Nat) :
    (step policy limit outcomes)^[n] ⟨.ended result, calls⟩ = ⟨.ended result, calls⟩ :=
  Function.iterate_fixed rfl n

/-- A loop goes on after a failure that is not the last one. -/
theorem step_of_fails (h : policy.Fails outcomes call) (hlimit : call + 1 < limit) :
    step policy limit outcomes ⟨.trying call, call⟩ = ⟨.trying (call + 1), call + 1⟩ := by
  obtain ⟨hwait, e, he⟩ := h
  obtain ⟨wait, hwait⟩ := Option.isSome_iff_exists.mp hwait
  simp [step, hwait, he, Nat.not_le.mpr hlimit]

/-- Failures are counted, one in each step. -/
theorem iterate_step_start {n : Nat} (hn : n < limit) (h : ∀ j < n, policy.Fails outcomes j) :
    (step policy limit outcomes)^[n] start = ⟨.trying n, n⟩ := by
  induction n with
  | zero => rfl
  | succ n ih =>
    rw [Function.iterate_succ_apply', ih (by omega) fun j hj => h j (by omega)]
    exact step_of_fails (h n (Nat.lt_succ_self n)) hn

/-- A loop that has counted `i` failures and then ends stays at this end. -/
theorem iterate_step_of_ends {i calls : Nat} {result : Option (Except ε α)} (hi : i < limit)
    (hbefore : ∀ j < i, policy.Fails outcomes j)
    (hend : step policy limit outcomes ⟨.trying i, i⟩ = ⟨.ended result, calls⟩) (n : Nat) :
    (step policy limit outcomes)^[n] start =
      if n < i + 1 then ⟨.trying n, n⟩ else ⟨.ended result, calls⟩ := by
  -- up to the end the loop counts its calls; from there on it stands still
  split
  case isTrue hn =>
    exact iterate_step_start (by omega) fun j hj => hbefore j (by omega)
  case isFalse hn =>
    obtain ⟨rest, rfl⟩ := Nat.exists_eq_add_of_le' (Nat.not_lt.mp hn)
    rw [Function.iterate_add_apply, Function.iterate_succ_apply', iterate_step_start hi hbefore, hend,
      iterate_step_ended]

/-- The steps of a loop are the repeated calls, up to their end. -/
theorem iterate_step_of_comesTo {attempted : Attempted ε α}
    (h : policy.ComesTo outcomes limit attempted) (n : Nat) :
    (step policy limit outcomes)^[n] start =
      if n < attempted.steps then ⟨.trying n, n⟩ else ⟨.ended attempted.result, attempted.calls⟩ := by
  -- each way of ending is one step of the loop, taken in the state the calls before it led to
  cases h with
  | @success i a hi hbefore hwait hsuccess =>
    obtain ⟨wait, hwait⟩ := Option.isSome_iff_exists.mp hwait
    exact iterate_step_of_ends hi hbefore (by simp [step, hwait, hsuccess]) n
  | @failure i e hi hbefore hwait hfailure =>
    obtain ⟨wait, hwait⟩ := Option.isSome_iff_exists.mp hwait
    exact iterate_step_of_ends (by omega) hbefore (by simp [step, hwait, hfailure, hi]) n
  | @breakOff i hi hbefore hwait =>
    exact iterate_step_of_ends hi hbefore (by simp [step, hwait]) n

end Loop

/-- An operation is called until its first success, if that is among the attempts of the policy, of
which there is at least one, and as many times as there are attempts otherwise, with the result of the
last call, exactly if the waits that come up on the way all exist. A wait does not exist if the factor
makes the seconds before the limit negative, infinite, too many, or no number at all; then the calls
before it are made, and there is no result. A loop that waits and calls in each step comes to this end
and to no other within the attempts, and stays there. -/
theorem retry_calls (policy : RetryPolicy) (outcomes : Nat → Except ε α) :
    let limit := max policy.attempts 1
    let attempted := retry policy outcomes
    policy.ComesTo outcomes limit attempted ∧
    (RetryPolicy.Promised outcomes limit attempted ↔
      ∀ i < limit, (∀ j < i, ∃ e, outcomes j = .error e) → (policy.waitBefore? i).isSome) ∧
    (∀ i, policy.waitBefore? i = none ↔ i ≠ 0 ∧ Wait.OutOfRange (policy.grown i)) ∧
    attempted.steps ≤ limit ∧
    ∀ n, (Loop.step policy limit outcomes)^[n] .start =
      if n < attempted.steps then ⟨.trying n, n⟩ else ⟨.ended attempted.result, attempted.calls⟩ := by
  intro limit attempted
  -- what the repetition comes to settles all the rest
  have hcomes : policy.ComesTo outcomes limit attempted := policy.comesTo_retry outcomes
  exact ⟨hcomes, hcomes.promised_iff, policy.waitBefore?_eq_none_iff, hcomes.steps_le,
    Loop.iterate_step_of_comesTo hcomes⟩

/-- A wait of one second that grows by twenty each time, up to thirty seconds. -/
def RetryPolicy.twentyfold : RetryPolicy where
  attempts := 20
  initialWait := .ofMillis 1000
  longestWait := .ofMillis 30000
  factor := .ofInt 20

/-- The promise is broken by an operation that always fails: of twenty calls sixteen are made, and none
of the errors is returned. The waits up to there are at most thirty seconds, and the last thirteen of
them are just that. -/
theorem retry_twentyfold :
    (retry .twentyfold (.error : Nat → Except Nat Unit)).result = none ∧
      (retry .twentyfold (.error : Nat → Except Nat Unit)).calls = 16 ∧
      ¬ RetryPolicy.Promised (.error : Nat → Except Nat Unit) (max RetryPolicy.twentyfold.attempts 1)
        (retry .twentyfold .error) ∧
      ∀ i < 16, 3 ≤ i → RetryPolicy.twentyfold.waitBefore? i = some (.ofMillis 30000) := by
  have hresult : (retry .twentyfold (.error : Nat → Except Nat Unit)).result = none := by
    decide +kernel
  refine ⟨hresult, by decide +kernel, fun h => ?_, by decide +kernel⟩
  -- a promise names a result, and this loop broke off without one
  have hsome := h.isSome_result
  rw [hresult] at hsome
  exact absurd hsome nofun

/-- The policy for a connection keeps the promise. -/
theorem retry_connect_calls (attempts : Nat) (outcomes : Nat → Except ε α) :
    RetryPolicy.Promised outcomes (max attempts 1) (retry (.connect attempts) outcomes) :=
  (RetryPolicy.comesTo_retry (.connect attempts) outcomes).promised_iff.mpr fun i _ _ =>
    RetryPolicy.isSome_waitBefore?_connect attempts i

end FieldQuery
