import Mathlib.Data.List.Basic
import Mathlib.Data.List.Nodup

/-!
# Keyed tables

A `Table ρ` is what a relational database keeps for one model: rows under primary keys handed out
by a sequence. Two facts travel with the rows, so no operation can lose them:

* the keys are strictly increasing in the order the rows were inserted. A query without an
  `ORDER BY` that takes the *first* match therefore takes the one of smallest key;
* the sequence is ahead of every stored key, so an inserted row never meets an old one.

The statements of SQL are the operations below: `select`, `first?`, `count`, `insert`, `update`,
`delete`. Predicates and `SET` clauses are Lean functions of a row.
-/

namespace Relational

universe u

/-- A stored row: its primary key and its columns. -/
structure Row (ρ : Type u) where
  id  : Nat
  val : ρ
  deriving DecidableEq, Repr

/-- The rows of a table and the sequence its next key comes from. -/
structure Table (ρ : Type u) where
  rows   : List (Row ρ)
  nextId : Nat
  sorted : rows.Pairwise (fun r s => r.id < s.id)
  fresh  : ∀ r ∈ rows, r.id < nextId

namespace Table

variable {ρ : Type u}

@[ext] theorem ext {s t : Table ρ} (hr : s.rows = t.rows) (hn : s.nextId = t.nextId) : s = t := by
  cases s; cases t; simp_all

instance [DecidableEq ρ] : DecidableEq (Table ρ) := fun s t =>
  decidable_of_iff (s.rows = t.rows ∧ s.nextId = t.nextId)
    ⟨fun h => ext h.1 h.2, fun h => h ▸ ⟨rfl, rfl⟩⟩

/-! ## Queries -/

/-- `SELECT ... WHERE p`, in key order. -/
def select (t : Table ρ) (p : Row ρ → Bool) : List (Row ρ) := t.rows.filter p

/-- The first row matching `p`. -/
def first? (t : Table ρ) (p : Row ρ → Bool) : Option (Row ρ) := t.rows.find? p

/-- The row under key `id`. -/
def get? (t : Table ρ) (id : Nat) : Option (Row ρ) := t.first? (·.id == id)

/-- `SELECT COUNT(*) WHERE p`. -/
def count (t : Table ρ) (p : Row ρ → Bool) : Nat := t.rows.countP p

/-- `SELECT EXISTS(... WHERE p)`. -/
def any (t : Table ρ) (p : Row ρ → Bool) : Bool := t.rows.any p

/-! ## Statements that write -/

/-- A table with no rows. -/
def empty : Table ρ := ⟨[], 1, .nil, by simp⟩

instance : Inhabited (Table ρ) := ⟨empty⟩

/-- `INSERT`: the new row takes the key the sequence stands at. -/
def insert (t : Table ρ) (v : ρ) : Table ρ where
  rows := t.rows ++ [⟨t.nextId, v⟩]
  nextId := t.nextId + 1
  sorted := by
    rw [List.pairwise_append]
    refine ⟨t.sorted, List.pairwise_singleton _ _, ?_⟩
    intro r hr s hs
    rw [List.mem_singleton.mp hs]
    exact t.fresh r hr
  fresh := by
    intro r hr
    rcases List.mem_append.mp hr with hr | hr
    · exact Nat.lt_succ_of_lt (t.fresh r hr)
    · rw [List.mem_singleton.mp hr]
      exact Nat.lt_succ_self _

/-- What `UPDATE ... SET f WHERE p` leaves of one row. -/
def setRow (p : Row ρ → Bool) (f : ρ → ρ) (r : Row ρ) : Row ρ :=
  if p r then ⟨r.id, f r.val⟩ else r

@[simp] theorem setRow_id (p : Row ρ → Bool) (f : ρ → ρ) (r : Row ρ) :
    (setRow p f r).id = r.id := by
  unfold setRow; split <;> rfl

theorem setRow_of_pos {p : Row ρ → Bool} {f : ρ → ρ} {r : Row ρ} (h : p r = true) :
    setRow p f r = ⟨r.id, f r.val⟩ := by
  simp [setRow, h]

theorem setRow_of_neg {p : Row ρ → Bool} {f : ρ → ρ} {r : Row ρ} (h : p r = false) :
    setRow p f r = r := by
  simp [setRow, h]

/-- `UPDATE ... SET f WHERE p`. Keys are never part of a `SET` clause. -/
def update (t : Table ρ) (p : Row ρ → Bool) (f : ρ → ρ) : Table ρ where
  rows := t.rows.map (setRow p f)
  nextId := t.nextId
  sorted := by
    rw [List.pairwise_map]
    exact t.sorted.imp (by simp)
  fresh := by
    intro r hr
    obtain ⟨s, hs, rfl⟩ := List.mem_map.mp hr
    rw [setRow_id]
    exact t.fresh s hs

/-- `UPDATE ... SET f WHERE id = id`. -/
def modify (t : Table ρ) (id : Nat) (f : ρ → ρ) : Table ρ := t.update (·.id == id) f

/-- `DELETE ... WHERE p`. -/
def delete (t : Table ρ) (p : Row ρ → Bool) : Table ρ where
  rows := t.rows.filter (fun r => !p r)
  nextId := t.nextId
  sorted := t.sorted.filter _
  fresh := fun r hr => t.fresh r (List.mem_of_mem_filter hr)

@[simp] theorem rows_empty : (empty : Table ρ).rows = [] := rfl

@[simp] theorem rows_insert (t : Table ρ) (v : ρ) :
    (t.insert v).rows = t.rows ++ [⟨t.nextId, v⟩] := rfl

@[simp] theorem rows_update (t : Table ρ) (p : Row ρ → Bool) (f : ρ → ρ) :
    (t.update p f).rows = t.rows.map (setRow p f) := rfl

@[simp] theorem rows_delete (t : Table ρ) (p : Row ρ → Bool) :
    (t.delete p).rows = t.rows.filter (fun r => !p r) := rfl

@[simp] theorem nextId_insert (t : Table ρ) (v : ρ) : (t.insert v).nextId = t.nextId + 1 := rfl

@[simp] theorem nextId_update (t : Table ρ) (p : Row ρ → Bool) (f : ρ → ρ) :
    (t.update p f).nextId = t.nextId := rfl

@[simp] theorem nextId_delete (t : Table ρ) (p : Row ρ → Bool) :
    (t.delete p).nextId = t.nextId := rfl

/-! ## Keys -/

theorem nodup_ids (t : Table ρ) : (t.rows.map Row.id).Nodup := by
  rw [List.Nodup, List.pairwise_map]
  exact t.sorted.imp Nat.ne_of_lt

/-- **A key names one row.** -/
theorem eq_of_id_eq (t : Table ρ) {r s : Row ρ} (hr : r ∈ t.rows) (hs : s ∈ t.rows)
    (h : r.id = s.id) : r = s :=
  List.inj_on_of_nodup_map t.nodup_ids hr hs h

theorem mem_of_first? {t : Table ρ} {p : Row ρ → Bool} {r : Row ρ} (h : t.first? p = some r) :
    r ∈ t.rows :=
  List.mem_of_find?_eq_some h

theorem pos_of_first? {t : Table ρ} {p : Row ρ → Bool} {r : Row ρ} (h : t.first? p = some r) :
    p r = true :=
  List.find?_some h

theorem get?_eq_some_iff {t : Table ρ} {id : Nat} {r : Row ρ} :
    t.get? id = some r ↔ r ∈ t.rows ∧ r.id = id := by
  constructor
  · intro h
    exact ⟨mem_of_first? h, by simpa using pos_of_first? h⟩
  · rintro ⟨hr, rfl⟩
    cases hf : t.get? r.id with
    | none =>
        have := List.find?_eq_none.mp hf r hr
        simp at this
    | some s =>
        have hs : s.id = r.id := by simpa using pos_of_first? hf
        rw [t.eq_of_id_eq (mem_of_first? hf) hr hs]

theorem mem_of_get? {t : Table ρ} {id : Nat} {r : Row ρ} (h : t.get? id = some r) : r ∈ t.rows :=
  (get?_eq_some_iff.mp h).1

theorem id_of_get? {t : Table ρ} {id : Nat} {r : Row ρ} (h : t.get? id = some r) : r.id = id :=
  (get?_eq_some_iff.mp h).2

theorem first?_eq_none_iff {t : Table ρ} {p : Row ρ → Bool} :
    t.first? p = none ↔ ∀ r ∈ t.rows, p r = false := by
  simp [first?, List.find?_eq_none]

theorem isSome_first?_iff {t : Table ρ} {p : Row ρ → Bool} :
    (t.first? p).isSome = true ↔ ∃ r ∈ t.rows, p r = true := by
  simp [first?]

theorem any_eq_false_iff {t : Table ρ} {p : Row ρ → Bool} :
    t.any p = false ↔ ∀ r ∈ t.rows, p r = false := by
  simp [any]

/-- The first match depends only on the rows that match. -/
theorem first?_eq_head? (t : Table ρ) (p : Row ρ → Bool) : t.first? p = (t.select p).head? := by
  rw [first?, select, List.head?_filter]

theorem count_eq_length (t : Table ρ) (p : Row ρ → Bool) : t.count p = (t.select p).length :=
  List.countP_eq_length_filter

theorem count_pos_iff {t : Table ρ} {p : Row ρ → Bool} :
    0 < t.count p ↔ ∃ r ∈ t.rows, p r = true :=
  List.countP_pos_iff

theorem count_eq_zero_iff {t : Table ρ} {p : Row ρ → Bool} :
    t.count p = 0 ↔ ∀ r ∈ t.rows, p r = false := by
  simp [count, List.countP_eq_zero]

theorem lt_nextId_of_mem_select {t : Table ρ} {p : Row ρ → Bool} {r : Row ρ}
    (h : r ∈ t.select p) : r.id < t.nextId :=
  t.fresh r (List.mem_of_mem_filter h)

/-! ## Membership after a write -/

theorem mem_insert {t : Table ρ} {v : ρ} {r : Row ρ} :
    r ∈ (t.insert v).rows ↔ r ∈ t.rows ∨ r = ⟨t.nextId, v⟩ := by
  simp

/-- An insert leaves a mark, if only on the ids to come. -/
theorem insert_ne (t : Table ρ) (v : ρ) : t.insert v ≠ t := by
  intro h
  have hnext := congrArg nextId h
  simp at hnext

theorem mem_update {t : Table ρ} {p : Row ρ → Bool} {f : ρ → ρ} {r : Row ρ} :
    r ∈ (t.update p f).rows ↔ ∃ s ∈ t.rows, setRow p f s = r := by
  simp

theorem mem_modify {t : Table ρ} {id : Nat} {f : ρ → ρ} {r : Row ρ} :
    r ∈ (t.modify id f).rows ↔
      (r ∈ t.rows ∧ r.id ≠ id) ∨ ∃ s ∈ t.rows, s.id = id ∧ r = ⟨id, f s.val⟩ := by
  rw [modify, mem_update]
  constructor
  · rintro ⟨s, hs, rfl⟩
    by_cases h : s.id = id
    · exact .inr ⟨s, hs, h, by rw [setRow_of_pos (by simpa using h), h]⟩
    · rw [setRow_of_neg (by simpa using h)]
      exact .inl ⟨hs, h⟩
  · rintro (⟨hr, h⟩ | ⟨s, hs, h, rfl⟩)
    · exact ⟨r, hr, setRow_of_neg (by simpa using h)⟩
    · exact ⟨s, hs, by rw [setRow_of_pos (by simpa using h), h]⟩

theorem mem_delete {t : Table ρ} {p : Row ρ → Bool} {r : Row ρ} :
    r ∈ (t.delete p).rows ↔ r ∈ t.rows ∧ p r = false := by
  simp

/-! ## Queries after a write

What a query sees after a statement, when the statement cannot change which rows the query
matches; and, where one row is changed or deleted, by how much a count moves. -/

theorem select_insert (t : Table ρ) (v : ρ) (p : Row ρ → Bool) :
    (t.insert v).select p = t.select p ++ [⟨t.nextId, v⟩].filter p := by
  simp [select]

/-- A row that is not asked for is not missed. -/
theorem select_insert_of_neg (t : Table ρ) {v : ρ} {p : Row ρ → Bool}
    (h : p ⟨t.nextId, v⟩ = false) : (t.insert v).select p = t.select p := by
  simp [select_insert, h]

theorem count_insert (t : Table ρ) (v : ρ) (p : Row ρ → Bool) :
    (t.insert v).count p = t.count p + if p ⟨t.nextId, v⟩ then 1 else 0 := by
  simp [count, List.countP_singleton]

theorem first?_insert (t : Table ρ) (v : ρ) (p : Row ρ → Bool) :
    (t.insert v).first? p =
      (t.first? p).or (if p ⟨t.nextId, v⟩ then some ⟨t.nextId, v⟩ else none) := by
  rw [first?, rows_insert, List.find?_append, List.find?_singleton]
  rfl

theorem first?_insert_of_neg (t : Table ρ) {v : ρ} {p : Row ρ → Bool}
    (h : p ⟨t.nextId, v⟩ = false) : (t.insert v).first? p = t.first? p := by
  rw [first?_eq_head?, first?_eq_head?, select_insert, List.filter_singleton, h]
  simp

theorem first?_insert_of_none (t : Table ρ) {v : ρ} {p : Row ρ → Bool} (hnone : t.first? p = none)
    (h : p ⟨t.nextId, v⟩ = true) : (t.insert v).first? p = some ⟨t.nextId, v⟩ := by
  rw [first?_insert, hnone, if_pos h, Option.none_or]

theorem first?_insert_of_some (t : Table ρ) {v : ρ} {p : Row ρ → Bool} {r : Row ρ}
    (h : t.first? p = some r) : (t.insert v).first? p = some r := by
  rw [first?_insert, h, Option.some_or]

/-- A query that a `SET` clause cannot move sees the updated rows of what it saw before. -/
theorem select_update (t : Table ρ) {p q : Row ρ → Bool} {f : ρ → ρ}
    (h : ∀ r ∈ t.rows, q (setRow p f r) = q r) :
    (t.update p f).select q = (t.select q).map (setRow p f) := by
  rw [select, select, rows_update, List.filter_map]
  congr 1
  exact List.filter_congr h

theorem count_update (t : Table ρ) {p q : Row ρ → Bool} {f : ρ → ρ}
    (h : ∀ r ∈ t.rows, q (setRow p f r) = q r) : (t.update p f).count q = t.count q := by
  rw [count_eq_length, count_eq_length, select_update t h, List.length_map]

theorem first?_update (t : Table ρ) {p q : Row ρ → Bool} {f : ρ → ρ}
    (h : ∀ r ∈ t.rows, q (setRow p f r) = q r) :
    (t.update p f).first? q = (t.first? q).map (setRow p f) := by
  rw [first?_eq_head?, first?_eq_head?, select_update t h, List.head?_map]

/-- A query that writing a row cannot move finds the row as it is written, or another one. -/
theorem first?_modify (t : Table ρ) {id : Nat} {f : ρ → ρ} {q : Row ρ → Bool}
    (h : ∀ r ∈ t.rows, r.id = id → q ⟨r.id, f r.val⟩ = q r) :
    (t.modify id f).first? q = (t.first? q).map (setRow (·.id == id) f) := by
  refine first?_update t fun r hr => ?_
  unfold setRow
  split
  · next hid => exact h r hr (beq_iff_eq.mp hid)
  · rfl

/-- Writing what is there changes nothing. -/
theorem update_eq_self (t : Table ρ) {p : Row ρ → Bool} {f : ρ → ρ}
    (h : ∀ r ∈ t.rows, p r = true → f r.val = r.val) : t.update p f = t := by
  refine ext ?_ rfl
  rw [rows_update]
  conv_rhs => rw [← List.map_id t.rows]
  refine List.map_congr_left fun r hr => ?_
  unfold setRow
  split
  · next hp => rw [h r hr hp]; rfl
  · rfl

theorem modify_eq_self (t : Table ρ) {id : Nat} {f : ρ → ρ}
    (h : ∀ r ∈ t.rows, r.id = id → f r.val = r.val) : t.modify id f = t :=
  update_eq_self t fun r hr hid => h r hr (beq_iff_eq.mp hid)

/-- An update that writes over what was written to a row does not see it. -/
theorem update_modify (t : Table ρ) {id : Nat} {p : Row ρ → Bool} {f g : ρ → ρ}
    (h : ∀ r ∈ t.rows, r.id = id → setRow p g ⟨id, f r.val⟩ = setRow p g r) :
    (t.modify id f).update p g = t.update p g := by
  refine ext ?_ rfl
  rw [modify, rows_update, rows_update, rows_update, List.map_map]
  refine List.map_congr_left fun r hr => ?_
  show setRow p g (setRow _ f r) = _
  by_cases hid : r.id = id
  · have hrow : setRow (·.id == id) f r = ⟨id, f r.val⟩ := by simp [setRow, hid]
    rw [hrow, h r hr hid]
  · have hrow : setRow (·.id == id) f r = r := by simp [setRow, hid]
    rw [hrow]

theorem select_delete (t : Table ρ) (p q : Row ρ → Bool) :
    (t.delete p).select q = (t.select q).filter (fun r => !p r) := by
  simp only [select, rows_delete, List.filter_filter]
  exact List.filter_congr fun r _ => Bool.and_comm _ _

theorem select_delete_of_disjoint (t : Table ρ) {p q : Row ρ → Bool}
    (hd : ∀ r ∈ t.rows, q r = true → p r = false) : (t.delete p).select q = t.select q := by
  rw [select_delete, List.filter_eq_self]
  intro r hr
  obtain ⟨hr, hqr⟩ := List.mem_filter.mp hr
  rw [hd r hr hqr]
  rfl

theorem first?_delete_of_disjoint (t : Table ρ) {p q : Row ρ → Bool}
    (hd : ∀ r ∈ t.rows, q r = true → p r = false) : (t.delete p).first? q = t.first? q := by
  rw [first?_eq_head?, first?_eq_head?, select_delete_of_disjoint t hd]

theorem get?_delete_of_ne (t : Table ρ) {id id' : Nat} (h : id' ≠ id) :
    (t.delete (·.id == id)).get? id' = t.get? id' := by
  refine first?_delete_of_disjoint t fun r _ hr => ?_
  rw [beq_iff_eq] at hr
  rw [hr]
  exact beq_false_of_ne h

theorem get?_modify_of_ne (t : Table ρ) {id id' : Nat} (h : id' ≠ id) (f : ρ → ρ) :
    (t.modify id f).get? id' = t.get? id' := by
  ext r
  rw [get?_eq_some_iff, get?_eq_some_iff, mem_modify]
  constructor
  · rintro ⟨⟨hr, -⟩ | ⟨s, -, -, rfl⟩, hid⟩
    · exact ⟨hr, hid⟩
    · exact absurd hid.symm h
  · rintro ⟨hr, rfl⟩
    exact ⟨.inl ⟨hr, h⟩, rfl⟩

theorem count_delete_le (t : Table ρ) (p q : Row ρ → Bool) :
    (t.delete p).count q ≤ t.count q := by
  rw [count_eq_length, count_eq_length, select_delete]
  exact List.length_filter_le _ _

theorem count_delete_of_disjoint (t : Table ρ) {p q : Row ρ → Bool}
    (hd : ∀ r ∈ t.rows, q r = true → p r = false) : (t.delete p).count q = t.count q := by
  rw [count_eq_length, count_eq_length, select_delete_of_disjoint t hd]

/-- Where every row that is counted has a row that was, there are no more of them. -/
theorem count_le_of_ids {t t' : Table ρ} {p p' : Row ρ → Bool}
    (h : ∀ r' ∈ t'.rows, p' r' = true → ∃ r ∈ t.rows, p r = true ∧ r.id = r'.id) :
    t'.count p' ≤ t.count p := by
  have hnodup : ((t'.select p').map Row.id).Nodup :=
    t'.nodup_ids.sublist (List.filter_sublist.map Row.id)
  have hsubset : (t'.select p').map Row.id ⊆ (t.select p).map Row.id := by
    intro id hid
    obtain ⟨r', hr', rfl⟩ := List.mem_map.mp hid
    obtain ⟨hmem', hp'⟩ := List.mem_filter.mp hr'
    obtain ⟨r, hr, hp, hid⟩ := h r' hmem' hp'
    rw [← hid]
    exact List.mem_map_of_mem (List.mem_filter.mpr ⟨hr, hp⟩)
  have hle := hnodup.length_le_of_subset hsubset
  rwa [List.length_map, List.length_map, ← count_eq_length, ← count_eq_length] at hle

/-! ### One row among the others -/

/-- The rows around a row carry other keys. -/
theorem exists_split {t : Table ρ} {r : Row ρ} (hr : r ∈ t.rows) :
    ∃ pre post, t.rows = pre ++ r :: post ∧ (∀ s ∈ pre, s.id ≠ r.id) ∧
      ∀ s ∈ post, s.id ≠ r.id := by
  obtain ⟨pre, post, hsplit⟩ := List.append_of_mem hr
  have hnodup := t.nodup_ids
  rw [hsplit, List.map_append, List.map_cons, List.nodup_append] at hnodup
  obtain ⟨-, htail, hpre⟩ := hnodup
  refine ⟨pre, post, hsplit, ?_, ?_⟩
  · intro s hs
    exact hpre s.id (List.mem_map_of_mem hs) r.id List.mem_cons_self
  · intro s hs heq
    apply (List.nodup_cons.mp htail).1
    rw [← heq]
    exact List.mem_map_of_mem hs

theorem map_setRow_of_ne {rows : List (Row ρ)} {id : Nat} (h : ∀ s ∈ rows, s.id ≠ id) (f : ρ → ρ) :
    rows.map (setRow (·.id == id) f) = rows := by
  conv_rhs => rw [← List.map_id rows]
  apply List.map_congr_left
  intro s hs
  apply setRow_of_neg
  simpa using h s hs

/-- A write to a row that is not asked for, before or after, is not seen. -/
theorem select_modify_of_neg (t : Table ρ) {id : Nat} {f : ρ → ρ} {p : Row ρ → Bool}
    (h : ∀ r ∈ t.rows, r.id = id → p r = false ∧ p ⟨id, f r.val⟩ = false) :
    (t.modify id f).select p = t.select p := by
  have hkept : ∀ r ∈ t.rows, p (setRow (·.id == id) f r) = p r := by
    intro r hr
    by_cases hid : r.id = id
    · obtain ⟨hbefore, hafter⟩ := h r hr hid
      rw [setRow_of_pos (by simpa using hid), hbefore, hid, hafter]
    · rw [setRow_of_neg (by simpa using hid)]
  rw [modify, select_update t hkept]
  refine map_setRow_of_ne (fun r hr hid => ?_) f
  obtain ⟨hr, hp⟩ := List.mem_filter.mp hr
  rw [(h r hr hid).1] at hp
  cases hp

/-- What is written to a row just inserted could have been inserted. -/
theorem modify_insert (t : Table ρ) (v : ρ) (f : ρ → ρ) :
    (t.insert v).modify t.nextId f = t.insert (f v) := by
  refine ext ?_ rfl
  have hold := map_setRow_of_ne (fun r hr => Nat.ne_of_lt (t.fresh r hr)) f
  rw [modify, rows_update, rows_insert, rows_insert, List.map_append, hold]
  simp [setRow]

theorem filter_of_ne {rows : List (Row ρ)} {id : Nat} (h : ∀ s ∈ rows, s.id ≠ id) :
    rows.filter (fun s => !(s.id == id)) = rows := by
  apply List.filter_eq_self.mpr
  intro s hs
  simpa using h s hs

/-- **What one changed row does to a count.** -/
theorem count_modify {t : Table ρ} {r : Row ρ} (hr : r ∈ t.rows) (f : ρ → ρ) (q : Row ρ → Bool) :
    (t.modify r.id f).count q + (if q r then 1 else 0) =
      t.count q + (if q ⟨r.id, f r.val⟩ then 1 else 0) := by
  obtain ⟨pre, post, hsplit, hpre, hpost⟩ := exists_split hr
  have hrow : setRow (·.id == r.id) f r = ⟨r.id, f r.val⟩ := setRow_of_pos (by simp)
  have hrows : (t.modify r.id f).rows = pre ++ ⟨r.id, f r.val⟩ :: post := by
    rw [modify, rows_update, hsplit, List.map_append, List.map_cons, map_setRow_of_ne hpre,
      map_setRow_of_ne hpost, hrow]
  simp only [count, hrows, hsplit, List.countP_append, List.countP_cons]
  omega

/-- Deleting one row lowers a count by what the row contributed to it. -/
theorem count_delete_id {t : Table ρ} {r : Row ρ} (hr : r ∈ t.rows) (q : Row ρ → Bool) :
    (t.delete (·.id == r.id)).count q + (if q r then 1 else 0) = t.count q := by
  obtain ⟨pre, post, hsplit, hpre, hpost⟩ := exists_split hr
  have hrows : (t.delete (·.id == r.id)).rows = pre ++ post := by
    simp [rows_delete, hsplit, List.filter_append, filter_of_ne hpre, filter_of_ne hpost]
  simp only [count, hrows, hsplit, List.countP_append, List.countP_cons]
  omega

end Table

end Relational
