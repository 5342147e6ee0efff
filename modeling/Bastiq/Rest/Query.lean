import Mathlib.Data.List.TakeWhile

/-!
# Query strings

`urllib.parse`: a list of names and values is written into the query of a URL, and read from it
again. What stands for itself in a query is an ASCII letter, a digit or one of `_.-~`; a blank is a
`+`, and any other byte of the UTF-8 text is `%` and two digits.

* `parse_urlencode` — what is written is read back, whatever the texts are;
* `queryOf_append` — and it is found in the URL it was put at the end of.
-/

namespace Query

/-! ## Writing -/

/-- The UTF-8 bytes of a text. -/
def utf8 (cs : List Char) : List UInt8 := cs.flatMap String.utf8EncodeChar

/-- `_ALWAYS_SAFE`: letters, digits and `_.-~`. -/
def isSafe (b : UInt8) : Bool :=
  (48 ≤ b && b ≤ 57) || (65 ≤ b && b ≤ 90) || (97 ≤ b && b ≤ 122) || b == 95 || b == 46 ||
    b == 45 || b == 126

def hexDigit (n : Nat) : Char := Char.ofNat (if n < 10 then 48 + n else 55 + n)

def quoteByte (b : UInt8) : List Char :=
  if isSafe b then [Char.ofNat b.toNat]
  else if b == 32 then ['+']
  else ['%', hexDigit (b.toNat / 16), hexDigit (b.toNat % 16)]

/-- `quote_plus`. -/
def quotePlus (s : String) : List Char := (utf8 s.toList).flatMap quoteByte

def encodePair (pair : String × String) : List Char :=
  quotePlus pair.1 ++ '=' :: quotePlus pair.2

/-- `urlencode`. -/
def urlencode (pairs : List (String × String)) : List Char :=
  ['&'].intercalate (pairs.map encodePair)

/-! ## Reading -/

def hexValue? (c : Char) : Option Nat :=
  if 48 ≤ c.toNat ∧ c.toNat ≤ 57 then some (c.toNat - 48)
  else if 65 ≤ c.toNat ∧ c.toNat ≤ 70 then some (c.toNat - 55)
  else if 97 ≤ c.toNat ∧ c.toNat ≤ 102 then some (c.toNat - 87)
  else none

/-- `unquote_to_bytes`: a `%` that no two digits follow stands for itself. -/
def unquote : List Char → List UInt8
  | [] => []
  | '%' :: a :: b :: rest =>
      match hexValue? a, hexValue? b with
      | some x, some y => UInt8.ofNat (16 * x + y) :: unquote rest
      | _, _ => 37 :: unquote (a :: b :: rest)
  | c :: rest => String.utf8EncodeChar c ++ unquote rest

def plusToSpace (cs : List Char) : List Char := cs.map fun c => if c == '+' then ' ' else c

/-- `unquote_plus`, of texts that decode. -/
def unquotePlus (cs : List Char) : Option String :=
  String.fromUTF8? (unquote (plusToSpace cs)).toByteArray

def parsePair (cs : List Char) : Option (String × String) := do
  let name ← unquotePlus (cs.takeWhile (· != '='))
  let value ← unquotePlus ((cs.dropWhile (· != '=')).drop 1)
  some (name, value)

/-- `parse_qsl`, which keeps the blank values. -/
def parse (cs : List Char) : Option (List (String × String)) :=
  ((cs.splitOn '&').filter (!·.isEmpty)).mapM parsePair

/-- The query of a URL: what stands between the first `?` and the fragment. -/
def queryOf (url : List Char) : List Char :=
  ((url.takeWhile (· != '#')).dropWhile (· != '?')).drop 1

/-! ## One byte -/

theorem toNat_ofNat {n : Nat} (h : n < 256) : (Char.ofNat n).toNat = n := by
  have hvalid : n.isValidChar := .inl (by omega)
  unfold Char.ofNat
  rw [dif_pos hvalid]
  rfl

theorem hexValue?_hexDigit {n : Nat} (h : n < 16) : hexValue? (hexDigit n) = some n := by
  unfold hexDigit hexValue?
  by_cases hdigit : n < 10
  · rw [if_pos hdigit, toNat_ofNat (by omega), if_pos (by omega)]
    congr 1
    omega
  · rw [if_neg hdigit, toNat_ofNat (by omega), if_neg (by omega), if_pos (by omega)]
    congr 1
    omega

theorem unquote_cons {c : Char} (h : c ≠ '%') (rest : List Char) :
    unquote (c :: rest) = String.utf8EncodeChar c ++ unquote rest := by
  rw [unquote]
  intro a b rest' hc
  exact absurd hc h

theorem unquote_percent (b : UInt8) (rest : List Char) :
    unquote ('%' :: hexDigit (b.toNat / 16) :: hexDigit (b.toNat % 16) :: rest) =
      b :: unquote rest := by
  have hb : b.toNat < 256 := b.toNat_lt
  have hdigits : 16 * (b.toNat / 16) + b.toNat % 16 = b.toNat := by omega
  rw [unquote, hexValue?_hexDigit (by omega), hexValue?_hexDigit (by omega)]
  simp [hdigits]

/-- No safe byte means anything in a query, and each is a character of its own. -/
theorem toNat_of_isSafe {b : UInt8} (h : isSafe b = true) :
    b.toNat < 128 ∧ b.toNat ∉ [35, 37, 38, 43, 61, 63] := by
  simp only [isSafe, Bool.or_eq_true, Bool.and_eq_true, decide_eq_true_eq, beq_iff_eq,
    UInt8.le_iff_toNat_le, ← UInt8.toNat_inj, UInt8.reduceToNat] at h
  simp only [List.mem_cons, List.not_mem_nil, or_false, not_or]
  omega

theorem ne_of_isSafe {b : UInt8} (h : isSafe b = true) {c : Char}
    (hc : c.toNat ∈ [35, 37, 38, 43, 61, 63]) : Char.ofNat b.toNat ≠ c := by
  obtain ⟨hlt, hnot⟩ := toNat_of_isSafe h
  rintro rfl
  rw [toNat_ofNat (by omega)] at hc
  exact hnot hc

theorem utf8EncodeChar_ofNat {b : UInt8} (h : b.toNat < 128) :
    String.utf8EncodeChar (Char.ofNat b.toNat) = [b] := by
  have hval : (Char.ofNat b.toNat).val.toNat = b.toNat := toNat_ofNat (by omega)
  simp [String.utf8EncodeChar, hval, Nat.le_of_lt_succ h]

theorem hexDigit_ne_plus {n : Nat} (h : n < 16) : hexDigit n ≠ '+' := by
  intro heq
  have hvalue := hexValue?_hexDigit h
  rw [heq] at hvalue
  cases hvalue

/-- A byte that was written is read back. -/
theorem unquote_quoteByte (b : UInt8) (rest : List Char) :
    unquote (plusToSpace (quoteByte b) ++ rest) = b :: unquote rest := by
  have hb : b.toNat < 256 := b.toNat_lt
  unfold quoteByte
  split
  · next hsafe =>
    have hplus : Char.ofNat b.toNat ≠ '+' := ne_of_isSafe hsafe (by decide)
    have hpercent : Char.ofNat b.toNat ≠ '%' := ne_of_isSafe hsafe (by decide)
    have htext : plusToSpace [Char.ofNat b.toNat] = [Char.ofNat b.toNat] := by
      simp [plusToSpace, hplus]
    rw [htext, List.singleton_append, unquote_cons hpercent,
      utf8EncodeChar_ofNat (toNat_of_isSafe hsafe).1, List.singleton_append]
  · split
    · next hblank =>
      rw [beq_iff_eq] at hblank
      rw [hblank]
      exact unquote_cons (by decide) rest
    · have htext : plusToSpace ['%', hexDigit (b.toNat / 16), hexDigit (b.toNat % 16)] =
          ['%', hexDigit (b.toNat / 16), hexDigit (b.toNat % 16)] := by
        simp [plusToSpace, hexDigit_ne_plus (show b.toNat / 16 < 16 by omega),
          hexDigit_ne_plus (show b.toNat % 16 < 16 by omega)]
      rw [htext]
      exact unquote_percent b rest

/-! ## One text -/

theorem unquote_quoteBytes (bytes : List UInt8) :
    unquote (plusToSpace (bytes.flatMap quoteByte)) = bytes := by
  induction bytes with
  | nil => rfl
  | cons b bytes ih =>
      show unquote (plusToSpace (quoteByte b ++ bytes.flatMap quoteByte)) = b :: bytes
      rw [plusToSpace, List.map_append]
      exact (unquote_quoteByte b _).trans (congrArg (b :: ·) ih)

theorem fromUTF8?_utf8 (s : String) : String.fromUTF8? (utf8 s.toList).toByteArray = some s := by
  have hbytes : (utf8 s.toList).toByteArray = s.toByteArray := String.utf8Encode_toList
  rw [hbytes, String.fromUTF8?, dif_pos s.isValidUTF8]
  rfl

/-- **A text that was written is read back.** -/
theorem unquotePlus_quotePlus (s : String) : unquotePlus (quotePlus s) = some s := by
  rw [unquotePlus, quotePlus, unquote_quoteBytes, fromUTF8?_utf8]

/-- The characters that divide a URL and its query. -/
def dividers : List Char := ['#', '&', '=', '?']

theorem divider_cases {c : Char} (hc : c ∈ dividers) :
    hexValue? c = none ∧ c ≠ '+' ∧ c ≠ '%' ∧ c.toNat ∈ [35, 37, 38, 43, 61, 63] := by
  simp only [dividers, List.mem_cons, List.not_mem_nil, or_false] at hc
  rcases hc with rfl | rfl | rfl | rfl <;> decide

/-- What is written of a text holds no divider. -/
theorem not_mem_quotePlus (s : String) {c : Char} (hc : c ∈ dividers) : c ∉ quotePlus s := by
  intro hmem
  obtain ⟨hvalue, hplus, hpercent, hnat⟩ := divider_cases hc
  obtain ⟨b, -, hmem⟩ := List.mem_flatMap.mp hmem
  have hb : b.toNat < 256 := b.toNat_lt
  unfold quoteByte at hmem
  split at hmem
  · next hsafe => exact ne_of_isSafe hsafe hnat (List.mem_singleton.mp hmem).symm
  · split at hmem
    · exact hplus (List.mem_singleton.mp hmem)
    · simp only [List.mem_cons, List.not_mem_nil, or_false] at hmem
      rcases hmem with rfl | rfl | rfl
      · exact hpercent rfl
      · simp [hexValue?_hexDigit (show b.toNat / 16 < 16 by omega)] at hvalue
      · simp [hexValue?_hexDigit (show b.toNat % 16 < 16 by omega)] at hvalue

/-! ## A query -/

theorem parsePair_encodePair (pair : String × String) :
    parsePair (encodePair pair) = some pair := by
  obtain ⟨name, value⟩ := pair
  have hname : ∀ c ∈ quotePlus name, (c != '=') = true := by
    intro c hc
    rw [bne_iff_ne]
    rintro rfl
    exact not_mem_quotePlus name (by decide) hc
  have htake : (encodePair (name, value)).takeWhile (· != '=') = quotePlus name := by
    rw [encodePair, List.takeWhile_append_of_pos hname]
    simp
  have hdrop : (encodePair (name, value)).dropWhile (· != '=') = '=' :: quotePlus value := by
    rw [encodePair, List.dropWhile_append_of_pos hname]
    simp
  simp [parsePair, htake, hdrop, unquotePlus_quotePlus]

theorem not_mem_encodePair (pair : String × String) {c : Char} (hc : c ∈ dividers) (hne : c ≠ '=') :
    c ∉ encodePair pair := by
  simp [encodePair, not_mem_quotePlus _ hc, hne]

theorem mapM_parsePair (pairs : List (String × String)) :
    (pairs.map encodePair).mapM parsePair = some pairs := by
  induction pairs with
  | nil => rfl
  | cons pair pairs ih =>
      rw [List.map_cons, List.mapM_cons, parsePair_encodePair, ih]
      rfl

/-- **A query that was written is read back.** -/
theorem parse_urlencode (pairs : List (String × String)) :
    parse (urlencode pairs) = some pairs := by
  cases pairs with
  | nil => rfl
  | cons pair pairs =>
      have hsplit : (urlencode (pair :: pairs)).splitOn '&' = (pair :: pairs).map encodePair := by
        apply List.splitOn_intercalate
        · intro cs hcs
          obtain ⟨p, -, rfl⟩ := List.mem_map.mp hcs
          exact not_mem_encodePair p (by decide) (by decide)
        · simp
      have hfull : ((pair :: pairs).map encodePair).filter (!·.isEmpty) =
          (pair :: pairs).map encodePair := by
        apply List.filter_eq_self.mpr
        intro cs hcs
        obtain ⟨p, -, rfl⟩ := List.mem_map.mp hcs
        simp [encodePair]
      rw [parse, hsplit, hfull]
      exact mapM_parsePair (pair :: pairs)

theorem not_mem_urlencode (pairs : List (String × String)) {c : Char} (hc : c ∈ dividers)
    (hname : c ≠ '=') (hpair : c ≠ '&') : c ∉ urlencode pairs := by
  unfold urlencode
  induction pairs with
  | nil => simp
  | cons pair pairs ih =>
      cases pairs with
      | nil => simpa using not_mem_encodePair pair hc hname
      | cons next pairs =>
          rw [List.map_cons] at ih ⊢
          rw [List.map_cons, List.intercalate_cons_cons]
          simp [not_mem_encodePair pair hc hname, hpair, ih]

/-! ## A URL -/

/-- A query put at the end of a URL is found there. -/
theorem queryOf_append {base query : List Char} (hfragment : '#' ∉ base ++ query)
    (hbase : '?' ∉ base) : queryOf (base ++ '?' :: query) = query := by
  have htake : (base ++ '?' :: query).takeWhile (· != '#') = base ++ '?' :: query := by
    rw [List.takeWhile_eq_self_iff]
    intro c hc
    rw [bne_iff_ne]
    rintro rfl
    apply hfragment
    simpa using hc
  have hdrop : (base ++ '?' :: query).dropWhile (· != '?') = '?' :: query := by
    rw [List.dropWhile_append_of_pos]
    · simp
    · intro c hc
      rw [bne_iff_ne]
      rintro rfl
      exact hbase hc
  rw [queryOf, htake, hdrop, List.drop_one, List.tail_cons]

end Query
