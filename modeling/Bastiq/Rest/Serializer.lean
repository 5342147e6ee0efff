import Bastiq.Rest.Value

/-!
# Serializer fields

The fields the request serializers are made of, as the REST framework runs them: a missing value, a
`null`, a blank and a value of the wrong type are told apart in that order, and validators run on
what is left. An error is recorded as the code the framework gives it, for which the framework has
the text.
-/

namespace Bastiq

/-- Why a field refuses its value. -/
inductive FieldError where
  | required
  | null
  | blank
  | notAString
  | maxLength (n : Nat)
  | nullCharacters
  | invalidEmail
  | invalidChoice (input : Json)
  | custom (message : String)

/-- The errors of a serializer: the field each one is about, and its errors. -/
abbrev FieldErrors := List (String × List FieldError)

/-- What a field makes of its input: a value, nothing (the field is skipped), or errors. -/
inductive FieldResult (α : Type) where
  | value (a : α)
  | skip
  | errors (es : List FieldError)

namespace FieldResult

variable {α β : Type}

/-- The value, when the field produced one. -/
def value? : FieldResult α → Option α
  | .value a => some a
  | _ => none

/-- The errors under the field's name, if there are any. -/
def named (name : String) : FieldResult α → FieldErrors
  | .errors es => [(name, es)]
  | _ => []

/-- A serializer's `validate_<field>`, which runs on the field's own result. -/
def andThen (f : α → FieldResult β) : FieldResult α → FieldResult β
  | .value a => f a
  | .skip => .skip
  | .errors es => .errors es

theorem andThen_eq_value {f : α → FieldResult β} {result : FieldResult α} {b : β} :
    result.andThen f = .value b ↔ ∃ a, result = .value a ∧ f a = .value b := by
  cases result <;> simp [andThen]

end FieldResult

/-- The options of a text field. `default` is what a missing optional value becomes; without one
the field is skipped. -/
structure CharField where
  required   : Bool := true
  allowBlank : Bool := false
  maxLength  : Option Nat := none
  default    : Option String := none

namespace CharField

/-- The validators, all of which run. -/
def validators (f : CharField) (value : String) : List FieldError :=
  (match f.maxLength with
    | some n => if value.length ≤ n then [] else [.maxLength n]
    | none => []) ++
  (if value.toList.contains (Char.ofNat 0) then [.nullCharacters] else [])

/-- `to_internal_value` and the validators: numbers are read as their text, whitespace is trimmed. -/
def convert (f : CharField) (text : String) : FieldResult String :=
  let value := Python.strip text
  match f.validators value with
  | [] => .value value
  | es => .errors es

/-- The field on its input, `none` when the body does not have it. In a partial update a missing
value is never an error. -/
def run (f : CharField) (partially : Bool) : Option Json → FieldResult String
  | none =>
      if partially then .skip
      else if f.required then .errors [.required]
      else match f.default with
        | some d => .value d
        | none => .skip
  | some .null => .errors [.null]
  | some (.str s) =>
      if Python.strip s == "" then
        if f.allowBlank then .value "" else .errors [.blank]
      else f.convert s
  | some (.int n) => f.convert (toString n)
  | some (.float repr) => f.convert repr
  | some _ => .errors [.notAString]

/-- A required text without further options is trimmed, and refused when that leaves nothing. -/
theorem run_str_eq_value {s value : String} :
    ({} : CharField).run false (some (.str s)) = .value value ↔
      value = Python.strip s ∧ Python.strip s ≠ "" ∧
        (Python.strip s).toList.contains (Char.ofNat 0) = false := by
  by_cases hblank : Python.strip s = ""
  · simp [run, hblank]
  · have hfield : ({} : CharField).run false (some (.str s)) = ({} : CharField).convert s := by
      simp [run, hblank]
    have hvalidators : ({} : CharField).validators (Python.strip s) =
        if (Python.strip s).toList.contains (Char.ofNat 0) then [.nullCharacters] else [] := by
      simp only [validators, List.nil_append]
    rw [hfield, convert, hvalidators]
    generalize Python.strip s = text at hblank ⊢
    cases text.toList.contains (Char.ofNat 0) with
    | true => simp
    | false =>
        constructor
        · intro h
          cases h
          exact ⟨rfl, hblank, rfl⟩
        · rintro ⟨rfl, -, -⟩
          rfl

end CharField

/-- A field that admits the given words only. -/
structure ChoiceField (α : Type) where
  choices : List (String × α)
  default : Option α := none

/-- The field on its input. Only a string can spell a choice. -/
def ChoiceField.run {α : Type} (f : ChoiceField α) : Option Json → FieldResult α
  | none => match f.default with
      | some a => .value a
      | none => .errors [.required]
  | some .null => .errors [.null]
  | some (.str s) => match f.choices.lookup s with
      | some a => .value a
      | none => .errors [.invalidChoice (.str s)]
  | some v => .errors [.invalidChoice v]

/-- The request body: a decoded value, or the error the parser answers with instead. -/
inductive RequestData where
  | json (value : Json)
  | unparsable (status : Nat) (message : String) (refused : 400 ≤ status)

/-- The name Python gives a value's type. -/
def Json.typeName : Json → String
  | .null => "NoneType"
  | .bool _ => "bool"
  | .int _ => "int"
  | .float _ => "float"
  | .str _ => "str"
  | .arr _ => "list"
  | .obj _ => "dict"

/-- What a serializer can read its fields from; anything but a dictionary is refused whole. -/
def Json.fields (v : Json) : Except FieldErrors (List (String × Json)) :=
  match v with
  | .obj fields => .ok fields
  | .null => .error [("non_field_errors", [.custom "No data provided"])]
  | v => .error [("non_field_errors",
      [.custom ("Invalid data. Expected a dictionary, but got " ++ v.typeName ++ ".")])]

end Bastiq
