import Bastiq.Models

/-!
# E-mail addresses in requests
-/

namespace Bastiq

/-- `EmailField`: a text field whose value must also pass Django's validator, which no address with
a NUL character does. -/
def emailField (E : Env) (input : Option Json) : FieldResult String :=
  match ({} : CharField).run false input with
  | .value email => if E.validEmail email then .value email else .errors [.invalidEmail]
  | .errors [.nullCharacters] => .errors [.nullCharacters, .invalidEmail]
  | result => result

/-- `value.strip().lower()`. -/
def normalizeEmail (E : Env) (email : String) : String := E.lower (Python.strip email)

theorem emailField_eq_value {E : Env} {s value : String}
    (h : emailField E (some (.str s)) = .value value) :
    value = Python.strip s ∧ Python.strip s ≠ "" := by
  unfold emailField at h
  split at h
  · next typed htyped =>
    obtain ⟨rfl, hblank, -⟩ := CharField.run_str_eq_value.mp htyped
    split at h
    · cases h
      exact ⟨rfl, hblank⟩
    · cases h
  · cases h
  · obtain ⟨rfl, hblank, -⟩ := CharField.run_str_eq_value.mp h
    exact ⟨rfl, hblank⟩

end Bastiq
