import FieldQuery.Number.Binary64

/-!
# Bounded retry

An operation that may fail is called until it succeeds or the attempts are used up; then its last
error is the result. The wait before an attempt grows by a factor up to a limit. The growth comes
before the limit, so a factor may call for a wait that is too long for any clock, or is below zero;
then the repetition breaks off, with neither a success nor an error of the operation.
-/

namespace FieldQuery

open FieldQuery.Number

/-- The nanoseconds of a second. -/
def secondNanos : Nat := 1000000000

/-- The nanoseconds of a millisecond. -/
def milliNanos : Nat := 1000000

/-- A length of time to the nanosecond, shorter than `2 ^ 64` seconds. -/
structure Wait where
  nanos : Nat
  nanos_lt : nanos < twoTo 64 * secondNanos
deriving DecidableEq, Repr

namespace Wait

/-- No time at all. -/
def zero : Wait :=
  ⟨0, by decide⟩

/-- A number of milliseconds. -/
def ofMillis (millis : UInt64) : Wait :=
  ⟨millis.toNat * milliNanos, by
    have hmillis : millis.toNat < 18446744073709551616 := millis.toNat_lt
    have hbound : twoTo 64 * secondNanos = 18446744073709551616000000000 := by decide
    rw [hbound, milliNanos]
    omega⟩

/-- The shorter of two waits. -/
def shorter (a b : Wait) : Wait :=
  if a.nanos ≤ b.nanos then a else b

/-- A wait in seconds. Whole seconds and the rest are rounded on their own. -/
def seconds (wait : Wait) : Binary64 :=
  .ofMagnitude false ((Magnitude.ofNat (wait.nanos / secondNanos)).add
    ((Magnitude.ofNat (wait.nanos % secondNanos)).div (Magnitude.ofNat secondNanos)))

/-- The wait that is nearest to a number of seconds, a tie going to the even nanosecond. There is
none for a number below zero, for one that is too large, and for what is no number. -/
def ofSeconds? (seconds : Binary64) : Option Wait :=
  if !seconds.isFinite || (seconds.isNegative && seconds.isNonzero) then none
  else
    -- seconds are a quotient, so the nanoseconds are one rounded division
    let size := seconds.magnitude
    let nanos := roundHalfEven (size.numerator * secondNanos) size.denominator
    if h : nanos < twoTo 64 * secondNanos then some ⟨nanos, h⟩ else none

end Wait

/-- How often to try, and how long to wait in between. -/
structure RetryPolicy where
  /-- All attempts, the first one included. Zero counts as one. -/
  attempts : Nat
  initialWait : Wait
  longestWait : Wait
  factor : Binary64
deriving Repr

/-- What repeated calls come to, and how many there were. -/
structure Attempted (ε α : Type) where
  /-- The outcome of the last call, unless the repetition broke off for want of a wait. -/
  result : Option (Except ε α)
  calls : Nat
deriving Repr

namespace RetryPolicy

/-- The policy for opening a connection: 200 ms at first, twice as long each time, at most 2 s. -/
def connect (attempts : Nat) : RetryPolicy where
  attempts
  initialWait := .ofMillis 200
  longestWait := .ofMillis 2000
  factor := .ofInt 2

/-- What the wait before an attempt has grown to, in seconds. The factor is applied at most sixteen
times. -/
def grown (policy : RetryPolicy) (attempt : Nat) : Binary64 :=
  (policy.factor.pow (min (attempt - 1) 16)).mul policy.initialWait.seconds

/-- The wait before an attempt, counted from zero, if there is one. The first attempt does not
wait. -/
def waitBefore? (policy : RetryPolicy) (attempt : Nat) : Option Wait :=
  if attempt = 0 then some .zero
  else (Wait.ofSeconds? (policy.grown attempt)).map fun wait => wait.shorter policy.longestWait

/-- Whatever is tried, the policy for a connection has a wait for it. -/
theorem isSome_waitBefore?_connect (attempts attempt : Nat) :
    ((connect attempts).waitBefore? attempt).isSome := by
  have hgrowth : ∀ times < 17, (Wait.ofSeconds?
      (((connect 0).factor.pow times).mul (connect 0).initialWait.seconds)).isSome := by
    decide +kernel
  unfold waitBefore?
  split
  · rfl
  · rw [Option.isSome_map]
    exact hgrowth _ (by omega)

/-- Calls `operation` for the numbers from `call` on, each time after the wait of the policy, until
it succeeds, at most `more` times after the first one. -/
def attemptFrom {ε α : Type} (policy : RetryPolicy) (operation : Nat → Except ε α) (call : Nat)
    (more : Nat) : Attempted ε α :=
  match policy.waitBefore? call with
  | none => ⟨none, call⟩
  -- the wait is spent, and only its being there matters
  | some _ =>
    match operation call, more with
    | .ok a, _ => ⟨some (.ok a), call + 1⟩
    | .error e, 0 => ⟨some (.error e), call + 1⟩
    | .error _, more + 1 => policy.attemptFrom operation (call + 1) more

/-- With all its waits a repetition comes to an outcome. -/
theorem isSome_attemptFrom {ε α : Type} {policy : RetryPolicy}
    (hwaits : ∀ attempt, (policy.waitBefore? attempt).isSome) (operation : Nat → Except ε α)
    (call more : Nat) : (policy.attemptFrom operation call more).result.isSome := by
  induction more generalizing call with
  | zero =>
    obtain ⟨wait, hwait⟩ := Option.isSome_iff_exists.mp (hwaits call)
    cases hcall : operation call <;> simp [attemptFrom, hwait, hcall]
  | succ more ih =>
    obtain ⟨wait, hwait⟩ := Option.isSome_iff_exists.mp (hwaits call)
    cases hcall : operation call with
    | ok a => simp [attemptFrom, hwait, hcall]
    | error e => simpa [attemptFrom, hwait, hcall] using ih (call + 1)

end RetryPolicy

/-- Calls an operation until it succeeds or the attempts of the policy are used up. The operation
is given the number of the call, from zero. -/
def retry {ε α : Type} (policy : RetryPolicy) (operation : Nat → Except ε α) : Attempted ε α :=
  policy.attemptFrom operation 0 (max policy.attempts 1 - 1)

end FieldQuery
