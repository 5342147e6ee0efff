import Mathlib.Data.List.Nodup
import Mathlib.Data.List.Perm.Basic
import Mathlib.Order.Lattice

/-!
# Pages of a sorted list

A list that is read page by page, each page from an answer of its own: a permutation of the same
rows, sorted by the same ranking. A ranking may leave rows tied, and then the answers differ.

* `pages_perm` — if no page ends among tied rows, every row is on exactly one page, whatever the
  answers are;
* `exists_pages_not_nodup` — otherwise there are answers for which some row is on two pages;
* `not_straddles_of_distinct` — without ties, no page ends among tied rows.
-/

namespace Paging

universe u v

/-- A total order up to ties. -/
structure Ranking (α : Type u) where
  le    : α → α → Bool
  total : ∀ x y, (le x y || le y x) = true
  trans : ∀ x y z, le x y = true → le y z = true → le x z = true

namespace Ranking

variable {α : Type u} {β : Type v}

/-- Ranked by a column of a linear order. -/
def ascending {κ : Type v} [LinearOrder κ] (f : α → κ) : Ranking α where
  le x y := decide (f x ≤ f y)
  total x y := by simpa using le_total (f x) (f y)
  trans x y z hxy hyz := by
    rw [decide_eq_true_eq] at hxy hyz ⊢
    exact le_trans hxy hyz

/-- Ranked by a column that is ranked itself. -/
def comap (R : Ranking β) (f : α → β) : Ranking α where
  le x y := R.le (f x) (f y)
  total x y := R.total (f x) (f y)
  trans x y z := R.trans (f x) (f y) (f z)

/-- The other way round. -/
def reversed (R : Ranking α) : Ranking α where
  le x y := R.le y x
  total x y := R.total y x
  trans x y z hxy hyz := R.trans z y x hyz hxy

/-- Ranked by the second one where the first one ties. -/
def thenBy (R S : Ranking α) : Ranking α where
  le x y := R.le x y && (!R.le y x || S.le x y)
  total x y := by
    have hR := R.total x y
    have hS := S.total x y
    cases hxy : R.le x y <;> cases hyx : R.le y x <;> simp_all
  trans x y z hxy hyz := by
    simp only [Bool.and_eq_true, Bool.or_eq_true, Bool.not_eq_true'] at hxy hyz ⊢
    refine ⟨R.trans x y z hxy.1 hyz.1, ?_⟩
    cases hzx : R.le z x with
    | false => exact .inl rfl
    | true =>
        -- all three tie
        have hyx := R.trans y z x hyz.1 hzx
        have hzy := R.trans z x y hzx hxy.1
        rw [hyx] at hxy
        rw [hzy] at hyz
        have hSxy : S.le x y = true := by simpa using hxy.2
        have hSyz : S.le y z = true := by simpa using hyz.2
        exact .inr (S.trans x y z hSxy hSyz)

theorem tied_of_thenBy {R S : Ranking α} {x y : α} (hxy : (R.thenBy S).le x y = true)
    (hyx : (R.thenBy S).le y x = true) :
    (R.le x y = true ∧ R.le y x = true) ∧ S.le x y = true ∧ S.le y x = true := by
  simp only [thenBy, Bool.and_eq_true, Bool.or_eq_true, Bool.not_eq_true'] at hxy hyx
  refine ⟨⟨hxy.1, hyx.1⟩, ?_, ?_⟩
  · simpa [hyx.1] using hxy.2
  · simpa [hxy.1] using hyx.2

variable (R : Ranking α)

theorem refl (x : α) : R.le x x = true := by
  have h := R.total x x
  rwa [Bool.or_self] at h

/-- An answer to a query for the rows in this order. -/
structure Orders (rows answer : List α) : Prop where
  perm   : answer.Perm rows
  sorted : answer.Pairwise fun x y => R.le x y = true

theorem exists_orders (rows : List α) : ∃ answer, R.Orders rows answer :=
  ⟨rows.mergeSort R.le, List.mergeSort_perm rows R.le,
    List.pairwise_mergeSort R.trans R.total rows⟩

/-- How many rows are strictly before `x`. -/
def before (rows : List α) (x : α) : Nat := rows.countP fun y => !R.le x y

/-- How many rows are not behind `x`: those before it, and those tied with it. -/
def upTo (rows : List α) (x : α) : Nat := rows.countP fun y => R.le y x

/-- A place in the order lies among tied rows. -/
def Cuts (rows : List α) (b : Nat) : Prop := ∃ x ∈ rows, R.before rows x < b ∧ b < R.upTo rows x

/-- Some page of `n` rows ends among tied rows. -/
def Straddles (rows : List α) (n : Nat) : Prop := ∃ k, R.Cuts rows (k * n)

end Ranking

/-- Page `k` of an answer, the first one being page 0. -/
def page {α : Type u} (n k : Nat) (answer : List α) : List α := (answer.drop (k * n)).take n

/-- The first `m` pages, each of an answer of its own. -/
def pages {α : Type u} (n m : Nat) (answers : Nat → List α) : List α :=
  (List.range m).flatMap fun k => page n k (answers k)

variable {α : Type u} {R : Ranking α} {rows answer answer' : List α} {n : Nat}

/-! ## Positions in an answer -/

/-- The position of a row is between what is before it and what is not behind it. -/
theorem Ranking.Orders.position (h : R.Orders rows answer) {pre post : List α} {x : α}
    (hsplit : answer = pre ++ x :: post) :
    R.before rows x ≤ pre.length ∧ pre.length < R.upTo rows x := by
  have hsorted := h.sorted
  rw [hsplit, List.pairwise_append, List.pairwise_cons] at hsorted
  obtain ⟨-, ⟨hpost, -⟩, hpre⟩ := hsorted
  constructor
  · have hzero : post.countP (fun y => !R.le x y) = 0 := by
      rw [List.countP_eq_zero]
      intro y hy
      simp [hpost y hy]
    rw [before, ← h.perm.countP_eq, hsplit, List.countP_append, List.countP_cons, hzero]
    have hle := List.countP_le_length (p := fun y => !R.le x y) (l := pre)
    simpa [R.refl x] using hle
  · have hall : pre.countP (fun y => R.le y x) = pre.length := by
      rw [List.countP_eq_length]
      intro y hy
      exact hpre y hy x List.mem_cons_self
    rw [upTo, ← h.perm.countP_eq, hsplit, List.countP_append, List.countP_cons, hall]
    simp only [R.refl x, if_true]
    omega

/-- What holds exactly of the first `b` elements filters them out. -/
theorem filter_eq_take {p : α → Bool} {b : Nat} {l : List α}
    (h : ∀ pre x post, l = pre ++ x :: post → (p x = true ↔ pre.length < b)) :
    l.filter p = l.take b := by
  have hfront : (l.take b).filter p = l.take b := by
    rw [List.filter_eq_self]
    intro x hx
    obtain ⟨s, t, hst⟩ := List.append_of_mem hx
    refine (h s x (t ++ l.drop b) ?_).mpr ?_
    · rw [← List.cons_append, ← List.append_assoc, ← hst, List.take_append_drop]
    · have hlength := congrArg List.length hst
      simp only [List.length_take, List.length_append, List.length_cons] at hlength
      omega
  have hback : (l.drop b).filter p = [] := by
    rw [List.filter_eq_nil_iff]
    intro x hx hp
    obtain ⟨s, t, hst⟩ := List.append_of_mem hx
    have hsplit : l = (l.take b ++ s) ++ x :: t := by
      rw [List.append_assoc, ← hst, List.take_append_drop]
    have hlt := (h _ x t hsplit).mp hp
    have hlength := congrArg List.length hst
    simp only [List.length_drop, List.length_append, List.length_cons] at hlength
    simp only [List.length_append, List.length_take] at hlt
    omega
  conv_lhs => rw [← List.take_append_drop b l]
  rw [List.filter_append, hfront, hback, List.append_nil]

/-- **Up to a place that is not among tied rows, all answers agree.** -/
theorem take_perm {b : Nat} (hcut : ¬R.Cuts rows b) (h : R.Orders rows answer)
    (h' : R.Orders rows answer') : (answer.take b).Perm (answer'.take b) := by
  have hfilter : ∀ answer, R.Orders rows answer →
      answer.filter (fun x => decide (R.upTo rows x ≤ b)) = answer.take b := by
    intro answer h
    refine filter_eq_take fun pre x post hsplit => ?_
    obtain ⟨hbefore, hupTo⟩ := h.position hsplit
    rw [decide_eq_true_eq]
    constructor
    · intro hle
      omega
    · intro hlt
      by_contra hgt
      have hmem : x ∈ rows := h.perm.mem_iff.mp (by simp [hsplit])
      exact hcut ⟨x, hmem, by omega, by omega⟩
  rw [← hfilter answer h, ← hfilter answer' h']
  exact (h.perm.trans h'.perm.symm).filter _

/-! ## Pages -/

theorem take_append_page (n k : Nat) (answer : List α) :
    answer.take (k * n) ++ page n k answer = answer.take ((k + 1) * n) := by
  rw [page, Nat.succ_mul, List.take_add]

theorem pages_const (n m : Nat) (answer : List α) :
    pages n m (fun _ => answer) = answer.take (m * n) := by
  induction m with
  | zero => simp [pages]
  | succ m ih =>
      rw [← take_append_page, ← ih, pages, List.range_succ, List.flatMap_append,
        List.flatMap_singleton]
      rfl

theorem page_perm (hcuts : ¬R.Straddles rows n) (h : R.Orders rows answer)
    (h' : R.Orders rows answer') (k : Nat) : (page n k answer).Perm (page n k answer') := by
  have hnot : ∀ k, ¬R.Cuts rows (k * n) := fun k hk => hcuts ⟨k, hk⟩
  have hfront := take_perm (hnot k) h h'
  have hnext := take_perm (hnot (k + 1)) h h'
  rw [← take_append_page, ← take_append_page] at hnext
  exact (List.perm_append_left_iff _).mp ((hfront.symm.append_right _).trans hnext)

/-- **Every row is on exactly one page**, when no page ends among tied rows. -/
theorem pages_perm {m : Nat} (hcuts : ¬R.Straddles rows n) (hm : rows.length ≤ m * n)
    {answers : Nat → List α} (h : ∀ k, R.Orders rows (answers k)) :
    (pages n m answers).Perm rows := by
  have hsame : (pages n m answers).Perm (pages n m fun _ => answers 0) :=
    List.Perm.flatMap_left _ fun k _ => page_perm hcuts (h k) (h 0) k
  rw [pages_const, List.take_of_length_le ((h 0).perm.length_eq ▸ hm)] at hsame
  exact hsame.trans (h 0).perm

theorem mem_page {k i : Nat} {x : α} (hx : answer[i]? = some x) (hlow : k * n ≤ i)
    (hhigh : i < (k + 1) * n) : x ∈ page n k answer := by
  refine List.mem_of_getElem? (i := i - k * n) ?_
  rw [Nat.succ_mul] at hhigh
  rw [page, List.getElem?_take_of_lt (by omega), List.getElem?_drop, Nat.add_sub_cancel' hlow, hx]

/-! ## Ties -/

/-- Behind a row that is before `x` there is room for it. -/
theorem Ranking.Orders.lt_before {pre post : List α} {x y : α}
    (h : R.Orders rows (pre ++ y :: post)) (hy : R.le x y = false) :
    pre.length < R.before rows x := by
  have hpre := (List.pairwise_append.mp h.sorted).2.2
  have hall : pre.countP (fun u => !R.le x u) = pre.length := by
    rw [List.countP_eq_length]
    intro u hu
    rw [Bool.not_eq_true', Bool.eq_false_iff]
    intro hle
    have hyx := R.trans x u y hle (hpre u hu y List.mem_cons_self)
    rw [hy] at hyx
    cases hyx
  rw [before, ← h.perm.countP_eq, List.countP_append, List.countP_cons, hall, hy]
  simp only [Bool.not_false, if_true]
  omega

/-- What is not behind `x` is in front of a row that is. -/
theorem Ranking.Orders.upTo_le {pre post : List α} {x z : α}
    (h : R.Orders rows (pre ++ z :: post)) (hz : R.le z x = false) :
    R.upTo rows x ≤ pre.length := by
  have hpost := (List.pairwise_cons.mp (List.pairwise_append.mp h.sorted).2.1).1
  have hnone : post.countP (fun u => R.le u x) = 0 := by
    rw [List.countP_eq_zero]
    intro u hu hle
    have hzx := R.trans z u x (hpost u hu) hle
    rw [hz] at hzx
    cases hzx
  rw [upTo, ← h.perm.countP_eq, List.countP_append, List.countP_cons, hnone, hz]
  exact List.countP_le_length

/-- A place among tied rows has tied rows on both sides. -/
theorem tied_at {b : Nat} (h : R.Orders rows answer) (hcut : R.Cuts rows b) :
    ∃ pre y z post, answer = pre ++ y :: z :: post ∧ pre.length + 1 = b ∧ R.le z y = true := by
  obtain ⟨x, hx, hbefore, hupTo⟩ := hcut
  have hlength : b < answer.length := by
    rw [h.perm.length_eq]
    exact Nat.lt_of_lt_of_le hupTo List.countP_le_length
  obtain ⟨c, rfl⟩ : ∃ c, b = c + 1 := ⟨b - 1, by omega⟩
  have hsplit : answer = answer.take c ++ answer[c] :: answer[c + 1] :: answer.drop (c + 2) := by
    rw [← List.drop_eq_getElem_cons, ← List.drop_eq_getElem_cons, List.take_append_drop]
  have hpre : (answer.take c).length = c := by
    rw [List.length_take]
    omega
  generalize answer.take c = pre at hsplit hpre
  generalize answer[c] = y at hsplit
  generalize answer[c + 1] = z at hsplit
  refine ⟨pre, y, z, _, hsplit, by rw [hpre], ?_⟩
  rw [hsplit] at h
  -- the left one is not before `x`, the right one is not behind it
  have hleft : R.le x y = true := by
    by_contra hnot
    have hlt := h.lt_before (Bool.eq_false_iff.mpr hnot)
    omega
  have hright : R.le z x = true := by
    by_contra hnot
    rw [← List.singleton_append, ← List.append_assoc] at h
    have hle := h.upTo_le (Bool.eq_false_iff.mpr hnot)
    rw [List.length_append, List.length_singleton] at hle
    omega
  exact R.trans _ _ _ hright hleft

/-- Tied rows change places. -/
theorem Ranking.Orders.swap {pre post : List α} {y z : α}
    (h : R.Orders rows (pre ++ y :: z :: post)) (htied : R.le z y = true) :
    R.Orders rows (pre ++ z :: y :: post) := by
  constructor
  · exact ((List.Perm.swap y z post).append_left pre).trans h.perm
  · have hsorted := h.sorted
    simp only [List.pairwise_append, List.pairwise_cons, List.forall_mem_cons] at hsorted ⊢
    obtain ⟨hpre, ⟨⟨-, hy⟩, hz, hpost⟩, hfront⟩ := hsorted
    refine ⟨hpre, ⟨⟨htied, hz⟩, hy, hpost⟩, fun u hu => ?_⟩
    obtain ⟨huy, huz, hu⟩ := hfront u hu
    exact ⟨huz, huy, hu⟩

/-- **Otherwise a row can be on two pages**, and another one on none. -/
theorem exists_pages_not_nodup {m : Nat} (hcuts : R.Straddles rows n) (hm : rows.length ≤ m * n) :
    ∃ answers : Nat → List α, (∀ k, R.Orders rows (answers k)) ∧ ¬(pages n m answers).Nodup := by
  obtain ⟨k, hcut⟩ := hcuts
  obtain ⟨answer, h⟩ := R.exists_orders rows
  obtain ⟨pre, y, z, post, rfl, hb, htied⟩ := tied_at h hcut
  have hlength := h.perm.length_eq
  simp only [List.length_append, List.length_cons] at hlength
  obtain ⟨j, rfl⟩ : ∃ j, k = j + 1 := by
    cases k with
    | zero => omega
    | succ j => exact ⟨j, rfl⟩
  have hj : j + 1 < m := by
    by_contra hnot
    have hle := Nat.mul_le_mul_right n (Nat.le_of_not_lt hnot)
    omega
  -- page `j` is from this answer, and the next one from that with `y` and `z` exchanged
  refine ⟨fun i => if i ≤ j then pre ++ y :: z :: post else pre ++ z :: y :: post, fun i => ?_,
    fun hnodup => ?_⟩
  · dsimp only
    split
    · exact h
    · exact h.swap htied
  · have hdisjoint := (List.nodup_flatMap.mp hnodup).2
    have hpages := List.pairwise_iff_getElem.mp hdisjoint j (j + 1)
      (by rw [List.length_range]; omega) (by rwa [List.length_range]) (Nat.lt_succ_self j)
    simp only [Function.onFun, List.getElem_range, Nat.le_refl, if_true,
      if_neg (Nat.not_succ_le_self j)] at hpages
    have hfirst : (pre ++ y :: z :: post)[pre.length]? = some y := by simp
    have hsecond : (pre ++ z :: y :: post)[pre.length + 1]? = some y := by simp
    have hn : 0 < n := Nat.pos_of_ne_zero fun hzero => by simp [hzero] at hb
    refine hpages (mem_page hfirst ?_ ?_) (mem_page hsecond ?_ ?_)
    · rw [Nat.succ_mul] at hb
      omega
    · omega
    · omega
    · rw [Nat.succ_mul]
      omega

/-- Without ties there is nothing to cut. -/
theorem not_straddles_of_distinct (hnodup : rows.Nodup)
    (h : ∀ x ∈ rows, ∀ y ∈ rows, R.le x y = true → R.le y x = true → x = y) (n : Nat) :
    ¬R.Straddles rows n := by
  rintro ⟨k, x, hx, hbefore, hupTo⟩
  obtain ⟨s, t, rfl⟩ := List.append_of_mem hx
  have hother : ∀ u, u ∈ s ∨ u ∈ t → R.le u x = true → (!R.le x u) = true := by
    intro u hu hle
    rw [Bool.not_eq_true', Bool.eq_false_iff]
    intro hback
    obtain rfl : x = u := h x hx u (by grind) hback hle
    grind
  have hs := List.countP_mono_left (l := s) fun u hu hle => hother u (.inl hu) hle
  have ht := List.countP_mono_left (l := t) fun u hu hle => hother u (.inr hu) hle
  simp only [Ranking.before, Ranking.upTo, List.countP_append, List.countP_cons, R.refl x,
    Bool.not_true, Bool.false_eq_true, if_false, if_true] at hbefore hupTo
  omega

end Paging
