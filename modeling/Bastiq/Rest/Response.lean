import Bastiq.Rest.Serializer

/-!
# Responses, and how a view ends

A view either raises, which ends the request with the response the exception stands for, or returns
a response together with what it leaves in the database. `perform` puts the two together: a request
that raises leaves the database as it was. The few views that write and still answer with an error
return that error instead of raising it.
-/

namespace Bastiq

/-- What a response carries; `data` is what the view's serializer renders. -/
inductive Body (β : Type) where
  | empty
  | detail (message : String)
  | messages (texts : List String)
  | fieldErrors (errors : FieldErrors)
  | fieldMessage (field message : String)
  | data (b : β)

structure Response (β : Type) where
  status : Nat
  body   : Body β

/-- A computation of a view: a value, or the response it ends with early. -/
abbrev View (β α : Type) := Except (Response β) α

namespace View

variable {α β δ : Type}

/-- `NotAuthenticated`. -/
def unauthenticated : Response β :=
  ⟨401, .detail "Authentication credentials were not provided."⟩

/-- `PermissionDenied(message)`. -/
def forbidden (message : String) : Response β := ⟨403, .detail message⟩

/-- `Http404(message)`; without a message the framework supplies one. -/
def notFound (message : String := "Not found.") : Response β := ⟨404, .detail message⟩

/-- `ValidationError(message)`. -/
def badRequest (message : String) : Response β := ⟨400, .messages [message]⟩

/-- `serializer.is_valid(raise_exception=True)` on a serializer with errors. -/
def invalid (errors : FieldErrors) : Response β := ⟨400, .fieldErrors errors⟩

/-- What `api_exception_handler` makes of an exception the framework does not recognise. -/
def serverError : Response β := ⟨500, .detail "Internal server error."⟩

/-- `if not cond: raise`. -/
def require (cond : Bool) (otherwise : Response β) : View β Unit :=
  if cond then .ok () else .error otherwise

/-- The value of an optional, or the response when there is none. -/
def orElse (x : Option α) (otherwise : Response β) : View β α :=
  match x with
  | some a => .ok a
  | none => .error otherwise

/-- `request.data` read through a serializer's dictionary check. -/
def bodyFields : RequestData → View β (List (String × Json))
  | .unparsable status message _ => .error ⟨status, .detail message⟩
  | .json v => match v.fields with
      | .ok fields => .ok fields
      | .error es => .error (invalid es)

/-- The outcome of a request: its response, and the database it leaves. -/
def perform (db : δ) (view : View β (Response β × δ)) : Response β × δ :=
  match view with
  | .ok out => out
  | .error response => (response, db)

@[simp] theorem perform_ok (db : δ) (out : Response β × δ) : perform db (.ok out) = out := rfl

@[simp] theorem perform_error (db : δ) (r : Response β) :
    perform db (.error r : View β (Response β × δ)) = (r, db) := rfl

@[simp] theorem orElse_some (a : α) (r : Response β) : orElse (some a) r = .ok a := rfl

@[simp] theorem orElse_none (r : Response β) : (orElse none r : View β α) = .error r := rfl

theorem require_eq_ok {cond : Bool} {r : Response β} {u : Unit} :
    require cond r = .ok u ↔ cond = true := by
  cases cond <;> simp [require]

theorem require_eq_error {cond : Bool} {r e : Response β} :
    require cond r = .error e ↔ cond = false ∧ r = e := by
  cases cond <;> simp [require]

theorem orElse_eq_error {x : Option α} {r e : Response β} :
    orElse x r = .error e ↔ x = none ∧ r = e := by
  cases x <;> simp [orElse]

theorem orElse_eq_ok {x : Option α} {r : Response β} {a : α} :
    orElse x r = .ok a ↔ x = some a := by
  cases x <;> simp [orElse]

theorem refused_of_bodyFields {data : RequestData} {r : Response β}
    (h : bodyFields data = .error r) : 400 ≤ r.status := by
  cases data with
  | unparsable status message refused =>
      cases h
      exact refused
  | json v =>
      simp only [bodyFields] at h
      split at h
      · cases h
      · cases h
        exact Nat.le_refl 400

/-! A view that raises nothing but errors. -/

theorem refused_bind {γ : Type} {x : View β α} {f : α → View β γ}
    (hx : ∀ r, x = .error r → 400 ≤ r.status) (hf : ∀ a r, f a = .error r → 400 ≤ r.status)
    (r : Response β) (h : (x >>= f) = .error r) : 400 ≤ r.status := by
  rcases bind_eq_error.mp h with h | ⟨a, -, h⟩
  · exact hx r h
  · exact hf a r h

theorem refused_orElse {x : Option α} {otherwise : Response β} (hstatus : 400 ≤ otherwise.status)
    (r : Response β) (h : orElse x otherwise = .error r) : 400 ≤ r.status := by
  rw [← (orElse_eq_error.mp h).2]
  exact hstatus

theorem refused_require {cond : Bool} {otherwise : Response β}
    (hstatus : 400 ≤ otherwise.status) (r : Response β) (h : require cond otherwise = .error r) :
    400 ≤ r.status := by
  rw [← (require_eq_error.mp h).2]
  exact hstatus

/-- **What a request can leave behind**: the database it found, or what a view that did not raise
returned. -/
theorem perform_db_cases {motive : δ → Prop} (db : δ) (view : View β (Response β × δ))
    (same : motive db) (done : ∀ r db', view = .ok (r, db') → motive db') :
    motive (perform db view).2 := by
  cases view with
  | error r => exact same
  | ok out => exact done out.1 out.2 rfl

end View

end Bastiq
