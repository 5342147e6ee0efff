import Mathlib.Algebra.Group.Nat.Defs
import Mathlib.Data.List.Basic
import Mathlib.Data.List.DropRight

/-!
# Values that arrive from outside

Path parameters, headers and query strings arrive as strings, bodies and webhook payloads as JSON.
This file has what the code does to them before any of its own logic runs: `str.strip`, `int(...)`
on a string, and subscripting a decoded JSON value.
-/

namespace Bastiq

/-! ## Computations that may fail -/

@[simp] theorem ok_bind {ε α γ : Type} (a : α) (f : α → Except ε γ) :
    ((.ok a : Except ε α) >>= f) = f a := rfl

@[simp] theorem error_bind {ε α γ : Type} (e : ε) (f : α → Except ε γ) :
    ((.error e : Except ε α) >>= f) = .error e := rfl

theorem bind_eq_ok {ε α γ : Type} {x : Except ε α} {f : α → Except ε γ} {c : γ} :
    (x >>= f) = .ok c ↔ ∃ a, x = .ok a ∧ f a = .ok c := by
  cases x with
  | error r => simp
  | ok a => simp

theorem bind_eq_error {ε α γ : Type} {x : Except ε α} {f : α → Except ε γ} {e : ε} :
    (x >>= f) = .error e ↔ x = .error e ∨ ∃ a, x = .ok a ∧ f a = .error e := by
  cases x with
  | error r => simp
  | ok a => simp

namespace Python

/-- `str.isspace` on one character. -/
def isSpace (c : Char) : Bool :=
  let n := c.toNat
  (9 ≤ n && n ≤ 13) || (28 ≤ n && n ≤ 32) || n == 0x85 || n == 0xA0 || n == 0x1680 ||
    (0x2000 ≤ n && n ≤ 0x200A) || n == 0x2028 || n == 0x2029 || n == 0x202F || n == 0x205F ||
    n == 0x3000

/-- Drop the characters satisfying `p` from both ends. -/
def trim (p : Char → Bool) (cs : List Char) : List Char :=
  ((cs.dropWhile p).reverse.dropWhile p).reverse

/-- `str.strip()`. -/
def strip (s : String) : String := String.ofList (trim isSpace s.toList)

/-! ### `int(text)`

The text may be padded with whitespace, carry one sign, separate digits by single underscores, and
use the decimal digits of any script; beyond 4300 digits the conversion is refused. Every refusal
is a `ValueError`, here `none`. -/

/-- The whitespace `int` skips: `str.isspace` without the ASCII separators 28 to 31. -/
def isIntSpace (c : Char) : Bool := isSpace c && !(28 ≤ c.toNat && c.toNat ≤ 31)

/-- The code points of the digit zero; nine more digits follow each. -/
def digitZeros : List Nat :=
  [0x30, 0x660, 0x6F0, 0x7C0, 0x966, 0x9E6, 0xA66, 0xAE6, 0xB66, 0xBE6, 0xC66, 0xCE6, 0xD66, 0xDE6,
   0xE50, 0xED0, 0xF20, 0x1040, 0x1090, 0x17E0, 0x1810, 0x1946, 0x19D0, 0x1A80, 0x1A90, 0x1B50,
   0x1BB0, 0x1C40, 0x1C50, 0xA620, 0xA8D0, 0xA900, 0xA9D0, 0xA9F0, 0xAA50, 0xABF0, 0xFF10,
   0x104A0, 0x10D30, 0x11066, 0x110F0, 0x11136, 0x111D0, 0x112F0, 0x11450, 0x114D0, 0x11650,
   0x116C0, 0x11730, 0x118E0, 0x11950, 0x11C50, 0x11D50, 0x11DA0, 0x11F50, 0x16A60, 0x16AC0,
   0x16B50, 0x1D7CE, 0x1D7D8, 0x1D7E2, 0x1D7EC, 0x1D7F6, 0x1E140, 0x1E2F0, 0x1E4F0, 0x1E950,
   0x1FBF0]

def digit? (c : Char) : Option Nat :=
  (digitZeros.find? fun z => z ≤ c.toNat && c.toNat < z + 10).map (c.toNat - ·)

/-- The digits of a numeral, most significant first; an underscore may stand between two digits. -/
def digits? : List Char → Option (List Nat)
  | [] => none
  | [c] => (digit? c).map ([·])
  | c :: '_' :: c' :: cs => do
      let d ← digit? c
      let ds ← digits? (c' :: cs)
      some (d :: ds)
  | c :: cs => do
      let d ← digit? c
      let ds ← digits? cs
      some (d :: ds)

/-- The value of an unsigned numeral. -/
def nat? (cs : List Char) : Option Nat :=
  match digits? cs with
  | none => none
  | some ds => if ds.length ≤ 4300 then some (ds.foldl (fun acc d => 10 * acc + d) 0) else none

/-- `int(text)`. -/
def int? (text : String) : Option Int :=
  match trim isIntSpace text.toList with
  | '+' :: cs => (nat? cs).map Int.ofNat
  | '-' :: cs => (nat? cs).map fun n => -Int.ofNat n
  | cs => (nat? cs).map Int.ofNat

example : int? " 1_000\n" = some 1000 := by decide
example : int? "1__0" = none := by decide

/-! The text of a number is read back as that number. -/

theorem range_of_isDigit {c : Char} (h : c.isDigit = true) : 48 ≤ c.toNat ∧ c.toNat ≤ 57 := by
  simpa [Char.isDigit, UInt32.le_iff_toNat_le] using h

theorem digit?_of_isDigit {c : Char} (h : c.isDigit = true) : digit? c = some (c.toNat - 48) := by
  have hrange := range_of_isDigit h
  have hfirst : digitZeros.find? (fun z => z ≤ c.toNat && c.toNat < z + 10) = some 48 := by
    rw [digitZeros, List.find?_cons_of_pos]
    simp only [Bool.and_eq_true, decide_eq_true_eq]
    omega
  rw [digit?, hfirst, Option.map_some]

theorem digits?_of_isDigit {cs : List Char} (hne : cs ≠ []) (h : ∀ c ∈ cs, c.isDigit = true) :
    digits? cs = some (cs.map fun c => c.toNat - 48) := by
  induction cs using digits?.induct with
  | case1 => exact absurd rfl hne
  | case2 c => simp [digits?, digit?_of_isDigit (h c (by simp))]
  | case3 c c' cs ih =>
      have hunder := h '_' (by simp)
      exact absurd hunder (by decide)
  | case4 c cs hsingle hunder ih =>
      have hcs : cs ≠ [] := by
        rintro rfl
        exact hsingle rfl
      have hrest := ih hcs (fun c' hc' => h c' (List.mem_cons_of_mem c hc'))
      simp [digits?, digit?_of_isDigit (h c (by simp)), hrest]

/-- What is trimmed has no ends to trim. -/
theorem trim_trim (p : Char → Bool) (cs : List Char) : trim p (trim p cs) = trim p cs := by
  have htrim : ∀ cs : List Char, trim p cs = (cs.dropWhile p).rdropWhile p := fun _ => rfl
  rw [htrim, htrim]
  have hdrop : ((cs.dropWhile p).rdropWhile p).dropWhile p = (cs.dropWhile p).rdropWhile p := by
    obtain ⟨rest, hprefix⟩ := List.rdropWhile_prefix p (cs.dropWhile p)
    cases htrimmed : (cs.dropWhile p).rdropWhile p with
    | nil => rfl
    | cons c cs' =>
        -- the first character is the one the first `dropWhile` stopped at
        rw [htrimmed] at hprefix
        have hne : cs.dropWhile p ≠ [] := by
          rw [← hprefix]
          simp
        have hhead : p ((cs.dropWhile p).head hne) = false := List.head_dropWhile_not p hne
        simp only [← hprefix, List.cons_append, List.head_cons] at hhead
        apply List.dropWhile_cons_of_neg
        simp [hhead]
  rw [hdrop, List.rdropWhile_idempotent]

@[simp] theorem strip_strip (s : String) : strip (strip s) = strip s := by
  rw [strip, strip, String.toList_ofList, trim_trim]

theorem trim_of_forall {p : Char → Bool} {cs : List Char} (h : ∀ c ∈ cs, p c = false) :
    trim p cs = cs := by
  have hdrop : ∀ l : List Char, (∀ c ∈ l, p c = false) → l.dropWhile p = l := by
    intro l hl
    cases l with
    | nil => rfl
    | cons c l =>
        apply List.dropWhile_cons_of_neg
        simp [hl c List.mem_cons_self]
  have hreverse : ∀ c ∈ cs.reverse, p c = false := fun c hc => h c (List.mem_reverse.mp hc)
  rw [trim, hdrop cs h, hdrop cs.reverse hreverse, List.reverse_reverse]

theorem isIntSpace_of_isDigit {c : Char} (h : c.isDigit = true) : isIntSpace c = false := by
  have hrange := range_of_isDigit h
  simp only [isIntSpace, isSpace, Bool.and_eq_false_iff, Bool.or_eq_false_iff,
    decide_eq_false_iff_not, beq_eq_false_iff_ne]
  left
  omega

theorem isDigit_toDigits {n : Nat} : ∀ c ∈ Nat.toDigits 10 n, c.isDigit = true :=
  fun _ hc => Nat.isDigit_of_mem_toDigits (by decide) (by decide) hc

theorem nat?_toDigits {n k : Nat} (h : nat? (Nat.toDigits 10 n) = some k) : k = n := by
  rw [nat?, digits?_of_isDigit Nat.toDigits_ne_nil isDigit_toDigits] at h
  simp only at h
  split at h
  · cases h
    rw [List.foldl_map]
    exact Nat.ofDigitChars_ten_toDigits
  · cases h

theorem int?_of_isDigit {cs : List Char} (h : ∀ c ∈ cs, c.isDigit = true) :
    int? (String.ofList cs) = (nat? cs).map Int.ofNat := by
  rw [int?, String.toList_ofList, trim_of_forall fun c hc => isIntSpace_of_isDigit (h c hc)]
  split
  · have hplus := h '+' List.mem_cons_self
    cases hplus
  · have hminus := h '-' List.mem_cons_self
    cases hminus
  · rfl

/-- `int(str(n))` is `n`, when there are not too many digits. -/
theorem int?_toString {n : Nat} {k : Int} (h : int? (toString n) = some k) : k = n := by
  rw [Nat.toString_eq_repr, Nat.repr_eq_ofList_toDigits, int?_of_isDigit isDigit_toDigits] at h
  obtain ⟨m, hm, rfl⟩ := Option.map_eq_some_iff.mp h
  rw [nat?_toDigits hm]
  rfl

/-! A number that some text spells is read back from its own text too, which is no longer. -/

theorem digit?_lt {c : Char} {d : Nat} (h : digit? c = some d) : d < 10 := by
  obtain ⟨z, hz, rfl⟩ := Option.map_eq_some_iff.mp h
  have hrange := List.find?_some hz
  simp only [Bool.and_eq_true, decide_eq_true_eq] at hrange
  omega

theorem digits?_lt {cs : List Char} {ds : List Nat} (h : digits? cs = some ds) :
    ds ≠ [] ∧ ∀ d ∈ ds, d < 10 := by
  induction cs using digits?.induct generalizing ds with
  | case1 => simp [digits?] at h
  | case2 c =>
      obtain ⟨d, hd, rfl⟩ := Option.map_eq_some_iff.mp h
      simpa using digit?_lt hd
  | case3 c c' cs ih =>
      obtain ⟨d, hd, h⟩ := Option.bind_eq_some_iff.mp h
      obtain ⟨rest, hrest, h⟩ := Option.bind_eq_some_iff.mp h
      cases h
      simpa using ⟨digit?_lt hd, (ih hrest).2⟩
  | case4 c cs hsingle hunder ih =>
      rw [digits?] at h
      · obtain ⟨d, hd, h⟩ := Option.bind_eq_some_iff.mp h
        obtain ⟨rest, hrest, h⟩ := Option.bind_eq_some_iff.mp h
        cases h
        simpa using ⟨digit?_lt hd, (ih hrest).2⟩
      · exact hsingle
      · exact hunder

theorem foldl_digits_lt {ds : List Nat} (h : ∀ d ∈ ds, d < 10) (acc : Nat) :
    ds.foldl (fun acc d => 10 * acc + d) acc < (acc + 1) * 10 ^ ds.length := by
  induction ds generalizing acc with
  | nil => simp
  | cons d ds ih =>
      have hd := h d List.mem_cons_self
      have hrest := ih (fun d' hd' => h d' (List.mem_cons_of_mem d hd')) (10 * acc + d)
      refine Nat.lt_of_lt_of_le hrest ?_
      rw [List.length_cons, Nat.pow_succ', ← Nat.mul_assoc]
      apply Nat.mul_le_mul_right
      omega

theorem nat?_toDigits_of_nat? {cs : List Char} {n : Nat} (h : nat? cs = some n) :
    nat? (Nat.toDigits 10 n) = some n := by
  unfold nat? at h
  split at h
  · cases h
  · next ds hds =>
    split at h
    · next hlength =>
      obtain ⟨hne, hdigits⟩ := digits?_lt hds
      have hlt : n < 10 ^ ds.length := by
        have hfold := foldl_digits_lt hdigits 0
        rw [Option.some.inj h] at hfold
        simpa using hfold
      have hshort : (Nat.toDigits 10 n).length ≤ ds.length :=
        (Nat.length_toDigits_le_iff (by decide) (List.length_pos_of_ne_nil hne)).mpr hlt
      rw [nat?, digits?_of_isDigit Nat.toDigits_ne_nil isDigit_toDigits]
      simp only [List.length_map]
      rw [if_pos (Nat.le_trans hshort hlength), List.foldl_map]
      exact congrArg some Nat.ofDigitChars_ten_toDigits
    · cases h

theorem nat?_of_int? {text : String} {n : Nat} (h : int? text = some (n : Int)) :
    ∃ cs, nat? cs = some n := by
  unfold int? at h
  split at h
  · next cs _ =>
    obtain ⟨m, hm, heq⟩ := Option.map_eq_some_iff.mp h
    exact ⟨cs, by rw [hm, Int.ofNat.inj heq]⟩
  · next cs _ =>
    obtain ⟨m, hm, heq⟩ := Option.map_eq_some_iff.mp h
    have hzero : m = n := by
      have hneg : -(m : Int) = n := heq
      omega
    exact ⟨cs, by rw [hm, hzero]⟩
  · next cs _ _ =>
    obtain ⟨m, hm, heq⟩ := Option.map_eq_some_iff.mp h
    exact ⟨_, by rw [hm, Int.ofNat.inj heq]⟩

/-- `int(str(n))` is `n` for a number that a header has spelled. -/
theorem int?_toString_of_int? {text : String} {n : Nat} (h : int? text = some (n : Int)) :
    int? (toString n) = some (n : Int) := by
  obtain ⟨cs, hcs⟩ := nat?_of_int? h
  rw [Nat.toString_eq_repr, Nat.repr_eq_ofList_toDigits, int?_of_isDigit isDigit_toDigits,
    nat?_toDigits_of_nat? hcs]
  rfl

end Python

/-! ## JSON -/

/-- A decoded JSON value. A float is kept as the text Python prints for it. -/
inductive Json where
  | null
  | bool (b : Bool)
  | int (n : Int)
  | float (repr : String)
  | str (s : String)
  | arr (items : List Json)
  | obj (fields : List (String × Json))

namespace Json

/-- `value[key]` for a string key, `none` where Python raises `KeyError` or `TypeError`. -/
def item? (key : String) : Json → Option Json
  | .obj fields => fields.lookup key
  | _ => none

/-- `value[0]`, `none` where Python raises `KeyError`, `IndexError` or `TypeError`. -/
def first? : Json → Option Json
  | .arr (v :: _) => some v
  | .str s => s.toList.head?.map fun c => .str (String.ofList [c])
  | _ => none

/-- Python's truth value. -/
def truthy : Json → Bool
  | .null => false
  | .bool b => b
  | .int n => n != 0
  | .float repr => repr != "0.0" && repr != "-0.0"
  | .str s => s != ""
  | .arr items => !items.isEmpty
  | .obj fields => !fields.isEmpty

/-- `str(value)` of a scalar. A list or a dict has a text too, but never one that is compared with
a stored identifier. -/
def scalarText? : Json → Option String
  | .null => some "None"
  | .bool true => some "True"
  | .bool false => some "False"
  | .int n => some (toString n)
  | .float repr => some repr
  | .str s => some s
  | .arr _ => none
  | .obj _ => none

end Json

end Bastiq
