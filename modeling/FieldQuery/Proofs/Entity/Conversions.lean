import FieldQuery.Entity.Field

/-!
# What values are converted to

A value that is no null marker is converted to a term of a shape that the type of the field decides,
or it is refused as a value of this type. Nothing else comes of a conversion.
-/

namespace FieldQuery.Value

open FieldQuery.Calendar FieldQuery.Number

/-- What the conversion of a value for a type may come to, null markers apart. -/
inductive Conversion : FieldType → Except QueryError Term → Prop
  | refused {type : FieldType} (text : String) (fault : ParseFault) :
      Conversion type (.error (.parse type text fault))
  | text {type : FieldType} (h : type ∈ [.string, .text, .email, .binary, .json]) (value : String) :
      Conversion type (.ok (.text value))
  | integer {type : FieldType} (h : type ∈ [.integer, .price, .obfuscatedId, .roles])
      (value : Int64) : Conversion type (.ok (.integer value))
  | decimal {type : FieldType} (h : type ∈ [.decimal, .float, .currency, .percentage])
      (value : Decimal) : Conversion type (.ok (.decimal value))
  | duration (seconds : Int64) : Conversion .duration (.ok (.duration seconds))
  | boolean (value : Bool) : Conversion .boolean (.ok (.boolean value))
  | moment {type : FieldType} (h : type ∈ [.date, .datetime]) (start : Moment)
      (precision : Precision) : Conversion type (.ok (.moment start precision))
  | time (value : TimeOfDay) : Conversion .time (.ok (.time value))
  /-- Associations are searched by other means, and a token may stand for no key. -/
  | raw {type : FieldType} (h : type ∈ [.directReference, .polymorphicReference, .reversedSingle,
      .reversedMany, .manyToMany, .addresses, .obfuscatedId]) (value : String) :
      Conversion type (.ok (.raw value))

namespace Conversion

variable {α : Type} {type : FieldType} {f : α → Term}

/-- A fault in a value is reported for the type. -/
theorem reported (h : ∀ a, Conversion type (.ok (f a))) (text : String)
    (result : Except ParseFault α) : Conversion type ((Value.reported type text result).map f) := by
  cases result with
  | error fault => exact .refused text fault
  | ok a => exact h a

/-- A time is read as a time, or not at all. -/
theorem parseTime (text : String) : Conversion .time ((Value.parseTime text).map .time) := by
  unfold Value.parseTime
  simp only
  split
  · -- A whole date is read as one, and its time is taken.
    unfold parseTimestamp
    cases timestampOf (String.ofList (Text.trim text.toList)).toList with
    | error fault => exact .refused _ fault
    | ok found => exact .time _
  · exact reported (fun time => .time time) _ _

/-- What a value without regard to its entity is converted to. -/
theorem parseValue {value : Json} (hvalue : value.isNullMarker = false)
    (htype : type ≠ .roles) : Conversion type (Value.parseValue type value) := by
  unfold Value.parseValue
  simp only [hvalue, Bool.false_eq_true, if_false]
  -- one case for each way a value is read; roles alone need the entity and are excluded
  cases type with
  | string | text | email | binary | json => exact .text (by simp) _
  | integer | price => exact reported (fun n => .integer (by simp) n) _ _
  | decimal | float | currency | percentage => exact reported (fun d => .decimal (by simp) d) _ _
  | duration => exact reported (fun seconds => .duration seconds) _ _
  | boolean => exact reported (fun b => .boolean b) _ _
  | date | datetime =>
    exact reported (fun (found : Moment × Precision) => .moment (by simp) found.1 found.2) _ _
  | time => exact parseTime _
  | directReference | polymorphicReference | reversedSingle | reversedMany | manyToMany
  | addresses | obfuscatedId => exact .raw (by simp) _
  | roles => exact absurd rfl htype

end Conversion

end FieldQuery.Value

namespace FieldQuery.Entity

open FieldQuery.Value

variable {entity : Entity} {value : Json}

/-- A marker for a missing value stands for one in every type. -/
theorem parseValue_of_isNullMarker (type : FieldType) (hvalue : value.isNullMarker = true) :
    entity.parseValue type value = .ok .null :=
  if_pos hvalue

/-- What a value is converted to for a field. -/
theorem conversion_parseValue (type : FieldType) (hvalue : value.isNullMarker = false) :
    Conversion type (entity.parseValue type value) := by
  unfold parseValue
  simp only [hvalue, Bool.false_eq_true, if_false]
  split
  · split
    · exact .integer (by simp) _
    · exact .raw (by simp) _
  · exact Conversion.reported (fun mask => .integer (by simp) mask) _ _
  · next hroles => exact Conversion.parseValue hvalue hroles

/-- A value that cannot be converted is refused as one of the type. -/
theorem exists_of_parseValue_eq_error {type : FieldType} {e : QueryError}
    (h : entity.parseValue type value = .error e) : ∃ text fault, e = .parse type text fault := by
  cases hvalue : value.isNullMarker with
  | true =>
    rw [parseValue_of_isNullMarker type hvalue] at h
    cases h
  | false =>
    have hconversion := entity.conversion_parseValue type hvalue
    -- of all conversions one alone is a failure, and it names the type
    rw [h] at hconversion
    cases hconversion with
    | refused text fault => exact ⟨text, fault, rfl⟩

/-- Only the null markers are converted to nothing. -/
theorem parseValue_eq_ok_null_iff (type : FieldType) :
    entity.parseValue type value = .ok .null ↔ value.isNullMarker = true := by
  refine ⟨fun h => ?_, parseValue_of_isNullMarker type⟩
  cases hmarker : value.isNullMarker with
  | true => rfl
  | false =>
    have hconversion := entity.conversion_parseValue type hmarker
    rw [h] at hconversion
    cases hconversion

end FieldQuery.Entity
