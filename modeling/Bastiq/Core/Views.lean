import Bastiq.Models
import Bastiq.Rest.Response

/-!
# What every view shares

Content negotiation by the `format` query parameter, looking a row up by the key in the path, and
page-number pagination.
-/

namespace Bastiq

open Relational View

/-- `request.query_params.get(name)`: the last value given for the name. -/
def queryParam (query : List (String × String)) (name : String) : Option String :=
  ((query.filter fun kv => kv.1 == name).getLast?).map Prod.snd

/-- Content negotiation: the two configured renderers are `json` and `api`. -/
def checkFormat {β : Type} (query : List (String × String)) : View β Unit :=
  match queryParam query "format" with
  | none => .ok ()
  | some f => require (f == "" || f == "json" || f == "api") notFound

/-- The framework's `get_object_or_404(queryset, pk=pk)`: a key that is no number is a 404 too. -/
def getObjectOr404 {β ρ : Type} (model : String) (queryset : List (Row ρ)) (pk : String) :
    View β (Row ρ) :=
  match Python.int? pk with
  | none => .error notFound
  | some n => orElse (queryset.find? fun r => (r.id : Int) == n)
      (notFound ("No " ++ model ++ " matches the given query."))

theorem getObjectOr404_eq_ok {β ρ : Type} {model : String} {queryset : List (Row ρ)} {pk : String}
    {r : Row ρ} (h : getObjectOr404 (β := β) model queryset pk = .ok r) : r ∈ queryset := by
  unfold getObjectOr404 at h
  split at h
  · cases h
  · exact List.mem_of_find?_eq_some (orElse_eq_ok.mp h)

/-- The key in the path spells the key of the row. -/
theorem int?_of_getObjectOr404 {β ρ : Type} {model : String} {queryset : List (Row ρ)}
    {pk : String} {r : Row ρ} (h : getObjectOr404 (β := β) model queryset pk = .ok r) :
    Python.int? pk = some (r.id : Int) := by
  unfold getObjectOr404 at h
  split at h
  · cases h
  · next n hn =>
    have hid := List.find?_some (orElse_eq_ok.mp h)
    rw [hn, beq_iff_eq.mp hid]

/-- A number that names no row of the queryset gets the one answer. -/
theorem getObjectOr404_of_absent {β ρ : Type} {model : String} {queryset : List (Row ρ)}
    {pk : String} {k : Int} (hk : Python.int? pk = some k)
    (habsent : ∀ r ∈ queryset, (r.id : Int) ≠ k) :
    getObjectOr404 (β := β) model queryset pk =
      .error (notFound ("No " ++ model ++ " matches the given query.")) := by
  have hnone : queryset.find? (fun r => (r.id : Int) == k) = none := by
    rw [List.find?_eq_none]
    intro r hr
    simpa using habsent r hr
  simp only [getObjectOr404, hk, hnone, orElse_none]

/-- One page of a list, and the numbers of the pages its links point to. -/
structure Page (α : Type) where
  count    : Nat
  next     : Option Nat
  previous : Option Nat
  results  : List α

/-- The page the query asks for: the first by default, and `last` names the last. -/
def pageNumber (query : List (String × String)) (numPages : Nat) : Option Int :=
  match queryParam query "page" with
  | none => some 1
  | some s =>
      if s == "" then some 1
      else if s == "last" then some numPages
      else Python.int? s

/-- `PageNumberPagination.paginate_queryset`; a page size of zero turns pagination off. -/
def paginate {α β : Type} (pageSize : Nat) (query : List (String × String)) (rows : List α) :
    View β (Option (Page α)) :=
  if pageSize == 0 then .ok none
  else
    let numPages := max 1 ((rows.length + pageSize - 1) / pageSize)
    match pageNumber query numPages with
    | none => .error (notFound "Invalid page.")
    | some n =>
        if n < 1 || (numPages : Int) < n then .error (notFound "Invalid page.")
        else
          let k := n.toNat
          .ok (some {
            count := rows.length
            next := if k < numPages then some (k + 1) else none
            previous := if 1 < k then some (k - 1) else none
            results := (rows.drop ((k - 1) * pageSize)).take pageSize })

end Bastiq
