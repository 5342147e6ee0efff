import Bastiq.Relational.Table

/-!
# Foreign keys and unique constraints

The two constraints a schema puts between rows, and which statements keep them. `References` is a
`FOREIGN KEY` column, which may be null: what it holds is the key of a row of another table.
`Unique` is a `UNIQUE` constraint on what `key` makes of a row.

A row that others refer to goes in one of three ways, as its `ON DELETE` says: the referring rows go
too (`cascade`), they forget it (`setNull`), or it stays as long as there are any (`protect`).
-/

namespace Relational

universe u v w

namespace Table

variable {ρ : Type u} {σ : Type v} {κ : Type w}

/-- `FOREIGN KEY (fk) REFERENCES target`. -/
def References (t : Table ρ) (fk : ρ → Option Nat) (target : Table σ) : Prop :=
  ∀ r ∈ t.rows, ∀ k, fk r.val = some k → ∃ s ∈ target.rows, s.id = k

/-- `UNIQUE (key)`. -/
def Unique (t : Table ρ) (key : ρ → κ) : Prop :=
  ∀ r ∈ t.rows, ∀ s ∈ t.rows, key r.val = key s.val → r = s

@[simp] theorem references_empty (fk : ρ → Option Nat) (target : Table σ) :
    (empty : Table ρ).References fk target := by
  simp [References]

@[simp] theorem unique_empty (key : ρ → κ) : (empty : Table ρ).Unique key := by
  simp [Unique]

/-! ## Statements on the table that refers -/

section Referring

variable {t : Table ρ} {target : Table σ} {fk : ρ → Option Nat} {p : Row ρ → Bool} {f : ρ → ρ}

/-- The row under a key that a row holds. -/
theorem References.row (h : t.References fk target) {r : Row ρ} (hr : r ∈ t.rows) {k : Nat}
    (hk : fk r.val = some k) : ∃ s ∈ target.rows, s.id = k :=
  h r hr k hk

theorem References.insert (h : t.References fk target) {v : ρ}
    (hv : ∀ k, fk v = some k → ∃ s ∈ target.rows, s.id = k) :
    (t.insert v).References fk target := by
  intro r hr k hk
  rcases mem_insert.mp hr with hr | rfl
  · exact h r hr k hk
  · exact hv k hk

/-- A key that is written names a row, or was there before. -/
theorem References.update (h : t.References fk target)
    (hf : ∀ r ∈ t.rows, p r = true → ∀ k, fk (f r.val) = some k →
      fk r.val = some k ∨ ∃ s ∈ target.rows, s.id = k) :
    (t.update p f).References fk target := by
  intro r hr k hk
  obtain ⟨s, hs, rfl⟩ := mem_update.mp hr
  unfold setRow at hk
  split at hk
  · next hp =>
    rcases hf s hs hp k hk with hk | hrow
    · exact h s hs k hk
    · exact hrow
  · exact h s hs k hk

/-- A `SET` clause that leaves the column alone. -/
theorem References.update_same (h : t.References fk target) (hf : ∀ v, fk (f v) = fk v) :
    (t.update p f).References fk target :=
  h.update fun r _ _ _ hk => .inl (hf r.val ▸ hk)

theorem References.modify_same (h : t.References fk target) {id : Nat} (hf : ∀ v, fk (f v) = fk v) :
    (t.modify id f).References fk target :=
  h.update_same hf

/-- One row is written over by another whose key names a row. -/
theorem References.modify_row (h : t.References fk target) {id : Nat} {v : ρ}
    (hv : ∀ k, fk v = some k → ∃ s ∈ target.rows, s.id = k) :
    (t.modify id fun _ => v).References fk target :=
  h.update fun _ _ _ k hk => .inr (hv k hk)

theorem References.delete (h : t.References fk target) (p : Row ρ → Bool) :
    (t.delete p).References fk target := by
  intro r hr k hk
  exact h r (mem_delete.mp hr).1 k hk

end Referring

/-! ## Statements on the table that is referred to -/

section Referred

variable {t : Table ρ} {target : Table σ} {fk : ρ → Option Nat} {q : Row σ → Bool}

/-- It is the keys that count. -/
theorem References.of_ids (h : t.References fk target) {target' : Table σ}
    (hids : ∀ s ∈ target.rows, ∃ s' ∈ target'.rows, s'.id = s.id) : t.References fk target' := by
  intro r hr k hk
  obtain ⟨s, hs, rfl⟩ := h r hr k hk
  exact hids s hs

theorem References.insert_target (h : t.References fk target) (v : σ) :
    t.References fk (target.insert v) :=
  h.of_ids fun s hs => ⟨s, mem_insert.mpr (.inl hs), rfl⟩

theorem References.update_target (h : t.References fk target) (p : Row σ → Bool) (f : σ → σ) :
    t.References fk (target.update p f) :=
  h.of_ids fun s hs => ⟨setRow p f s, mem_update.mpr ⟨s, hs, rfl⟩, setRow_id p f s⟩

theorem References.modify_target (h : t.References fk target) (id : Nat) (f : σ → σ) :
    t.References fk (target.modify id f) :=
  h.update_target _ f

/-- Rows may go that no row refers to. -/
theorem References.delete_target (h : t.References fk target)
    (hfree : ∀ r ∈ t.rows, ∀ k, fk r.val = some k → ∀ s ∈ target.rows, s.id = k → q s = false) :
    t.References fk (target.delete q) := by
  intro r hr k hk
  obtain ⟨s, hs, hid⟩ := h r hr k hk
  exact ⟨s, mem_delete.mpr ⟨hs, hfree r hr k hk s hs hid⟩, hid⟩

/-- **`ON DELETE CASCADE`**: the rows that refer to the one that goes are among those that go. -/
theorem References.cascade (h : t.References fk target) {k : Nat} {p : Row ρ → Bool}
    (hp : ∀ r ∈ t.rows, fk r.val = some k → p r = true) :
    (t.delete p).References fk (target.delete (·.id == k)) := by
  refine (h.delete p).delete_target fun r hr k' hk s _ hid => ?_
  obtain ⟨hr, hkept⟩ := mem_delete.mp hr
  refine beq_false_of_ne fun hgone => ?_
  rw [hp r hr (by rw [hk, ← hid, hgone])] at hkept
  cases hkept

/-- **`ON DELETE SET NULL`**. -/
theorem References.setNull (h : t.References fk target) {k : Nat} {p : Row ρ → Bool} {f : ρ → ρ}
    (hp : ∀ r ∈ t.rows, fk r.val = some k → p r = true) (hf : ∀ v, fk (f v) = none) :
    (t.update p f).References fk (target.delete (·.id == k)) := by
  have hupdated : (t.update p f).References fk target := by
    refine h.update fun r _ _ k hk => ?_
    rw [hf] at hk
    cases hk
  refine hupdated.delete_target fun r hr k' hk s _ hid => ?_
  obtain ⟨r', hr', rfl⟩ := mem_update.mp hr
  unfold setRow at hk
  split at hk
  · rw [hf] at hk
    cases hk
  · next hkept =>
    refine beq_false_of_ne fun hgone => hkept ?_
    exact hp r' hr' (by rw [hk, ← hid, hgone])

/-- **`ON DELETE PROTECT`**: nothing is deleted that a row refers to. -/
theorem References.protect (h : t.References fk target) {k : Nat}
    (hfree : ∀ r ∈ t.rows, fk r.val ≠ some k) : t.References fk (target.delete (·.id == k)) := by
  refine h.delete_target fun r hr k' hk s _ hid => ?_
  refine beq_false_of_ne fun hgone => hfree r hr ?_
  rw [hk, ← hid, hgone]

end Referred

/-! ## Unique constraints -/

section Unique

variable {t : Table ρ} {key : ρ → κ} {p : Row ρ → Bool} {f : ρ → ρ}

theorem Unique.insert (h : t.Unique key) {v : ρ} (hnew : ∀ r ∈ t.rows, key r.val ≠ key v) :
    (t.insert v).Unique key := by
  intro r hr s hs heq
  rcases mem_insert.mp hr with hr | rfl
  · rcases mem_insert.mp hs with hs | rfl
    · exact h r hr s hs heq
    · exact absurd heq (hnew r hr)
  · rcases mem_insert.mp hs with hs | rfl
    · exact absurd heq.symm (hnew s hs)
    · rfl

theorem Unique.delete (h : t.Unique key) (p : Row ρ → Bool) : (t.delete p).Unique key :=
  fun r hr s hs => h r (mem_delete.mp hr).1 s (mem_delete.mp hs).1

/-- Where rows keep their keys, they keep them apart. -/
theorem Unique.update (h : t.Unique key)
    (hf : ∀ r ∈ t.rows, p r = true → key (f r.val) = key r.val) : (t.update p f).Unique key := by
  have hkey : ∀ r ∈ t.rows, key (setRow p f r).val = key r.val := by
    intro r hr
    unfold setRow
    split
    · next hp => exact hf r hr hp
    · rfl
  intro r hr s hs heq
  obtain ⟨r', hr', rfl⟩ := mem_update.mp hr
  obtain ⟨s', hs', rfl⟩ := mem_update.mp hs
  rw [hkey r' hr', hkey s' hs'] at heq
  rw [h r' hr' s' hs' heq]

theorem Unique.update_same (h : t.Unique key) (hf : ∀ v, key (f v) = key v) :
    (t.update p f).Unique key :=
  h.update fun r _ _ => hf r.val

theorem Unique.modify_same (h : t.Unique key) {id : Nat} (hf : ∀ v, key (f v) = key v) :
    (t.modify id f).Unique key :=
  h.update_same hf

/-- One row is written, under a key that no other row has. -/
theorem Unique.modify (h : t.Unique key) {id : Nat}
    (hnew : ∀ r ∈ t.rows, r.id ≠ id → ∀ s ∈ t.rows, s.id = id → key r.val ≠ key (f s.val)) :
    (t.modify id f).Unique key := by
  intro r' hr' s' hs' heq
  rcases mem_modify.mp hr' with ⟨hr, hne⟩ | ⟨r, hr, hid, rfl⟩
  · rcases mem_modify.mp hs' with ⟨hs, -⟩ | ⟨s, hs, hid, rfl⟩
    · exact h r' hr s' hs heq
    · exact absurd heq (hnew r' hr hne s hs hid)
  · rcases mem_modify.mp hs' with ⟨hs, hne⟩ | ⟨s, hs, hid', rfl⟩
    · exact absurd heq.symm (hnew s' hs hne r hr hid)
    · rw [t.eq_of_id_eq hr hs (hid.trans hid'.symm)]

/-- Where a query by a key is served from a unique column, the row that has it is the one found. -/
theorem Unique.first?_eq_some_iff [DecidableEq κ] (h : t.Unique key) {k : κ} {r : Row ρ} :
    t.first? (fun r => key r.val == k) = some r ↔ r ∈ t.rows ∧ key r.val = k := by
  constructor
  · intro hfirst
    exact ⟨mem_of_first? hfirst, by simpa using pos_of_first? hfirst⟩
  · rintro ⟨hr, rfl⟩
    cases hfirst : t.first? fun s => key s.val == key r.val with
    | none =>
        have habsent := first?_eq_none_iff.mp hfirst r hr
        simp at habsent
    | some s =>
        have hkey : key s.val = key r.val := by simpa using pos_of_first? hfirst
        rw [h s (mem_of_first? hfirst) r hr hkey]

end Unique

/-! ## Columns that stay -/

/-- The rows that are still there have the same in the column as before. -/
structure Keeps (column : ρ → κ) (t t' : Table ρ) : Prop where
  nextId : t.nextId ≤ t'.nextId
  rows   : ∀ r' ∈ t'.rows, r'.id < t.nextId →
    ∃ r ∈ t.rows, r.id = r'.id ∧ column r.val = column r'.val

section Keeping

variable {t t' t'' : Table ρ} {column : ρ → κ}

theorem Keeps.refl (column : ρ → κ) (t : Table ρ) : t.Keeps column t :=
  ⟨Nat.le_refl _, fun r hr _ => ⟨r, hr, rfl, rfl⟩⟩

theorem Keeps.trans (h : t.Keeps column t') (h' : t'.Keeps column t'') : t.Keeps column t'' where
  nextId := Nat.le_trans h.nextId h'.nextId
  rows r'' hr'' hlt := by
    obtain ⟨r', hr', hid', hcolumn'⟩ := h'.rows r'' hr'' (Nat.lt_of_lt_of_le hlt h.nextId)
    obtain ⟨r, hr, hid, hcolumn⟩ := h.rows r' hr' (hid' ▸ hlt)
    exact ⟨r, hr, hid.trans hid', hcolumn.trans hcolumn'⟩

theorem keeps_insert (column : ρ → κ) (t : Table ρ) (v : ρ) : t.Keeps column (t.insert v) where
  nextId := Nat.le_succ _
  rows r' hr' hlt := by
    rcases mem_insert.mp hr' with hr' | rfl
    · exact ⟨r', hr', rfl, rfl⟩
    · exact absurd hlt (Nat.lt_irrefl _)

theorem keeps_update {f : ρ → ρ} (hf : ∀ v, column (f v) = column v) (t : Table ρ)
    (p : Row ρ → Bool) : t.Keeps column (t.update p f) where
  nextId := Nat.le_refl _
  rows r' hr' _ := by
    obtain ⟨r, hr, rfl⟩ := mem_update.mp hr'
    refine ⟨r, hr, (setRow_id p f r).symm, ?_⟩
    cases hp : p r with
    | true => rw [setRow_of_pos hp, hf]
    | false => rw [setRow_of_neg hp]

theorem keeps_modify {f : ρ → ρ} (hf : ∀ v, column (f v) = column v) (t : Table ρ) (id : Nat) :
    t.Keeps column (t.modify id f) :=
  keeps_update hf t _

theorem keeps_delete (column : ρ → κ) (t : Table ρ) (p : Row ρ → Bool) :
    t.Keeps column (t.delete p) :=
  ⟨Nat.le_refl _, fun r hr _ => ⟨r, (mem_delete.mp hr).1, rfl, rfl⟩⟩

end Keeping

end Table

end Relational
