/-
Text functions of the C++ libraries that the helpers parse their parameters with, on a string seen as its list of
characters. The source's strings hold the UTF-8 bytes; the functions here split at ASCII delimiters and scan for ASCII
classes only, and on such scans the characters read what the bytes do (`split_encode`, and `Utf8.takeWhile_flatMap`
for the scans of `stol`).

- `split` is folly's `split(delimiter, input, out, ignoreEmpty)` for a one-character delimiter: the pieces between
  consecutive delimiters, in order, and with `ignoreEmpty` only the non-empty ones.
- `stol` and `stoull` are `std::stol` and `std::stoull` in base 10, over `strtol` and `strtoull`: leading white space
  is skipped, an optional sign and the longest run of decimal digits are read, and what follows is ignored.
  `std::invalid_argument` is thrown when there is no digit and `std::out_of_range` when the value does not fit the
  type; `strtoull` negates a value read after '-' modulo `2^64`.

Results: `split_encode` (splitting the bytes gives the bytes of the pieces), `split_intercalate` (splitting a join of pieces free of the delimiter gives the pieces back),
`not_mem_of_mem_split` (no piece holds the delimiter), `stol_digits` and `stoull_digits` (a run of digits followed by
a non-digit converts to its value) and `lt_of_digitsValue_lt` (on digit strings of one length the lexicographic order
is the numeric one).
-/
import Mathlib.Tactic
import OneHelpers.Core.Utf8

namespace OneHelpers.Text

/-- the standard exceptions the parsers throw, with their `what()` text -/
inductive StdException where
  | invalidArgument (what : String)
  | outOfRange (what : String)
  | runtimeError (what : String)
  deriving DecidableEq, Repr

section Except

variable {ε α β : Type}

/-- a bind of `Except` returns a value exactly when both steps do -/
theorem bind_eq_ok {x : Except ε α} {f : α → Except ε β} {b : β} :
    x >>= f = .ok b ↔ ∃ a, x = .ok a ∧ f a = .ok b := by
  cases x with
  | error e => simp [bind, Except.bind]
  | ok a => simp [bind, Except.bind]

/-- a bind of `Except` throws what the first step throws, or what the second throws after it -/
theorem bind_eq_error {x : Except ε α} {f : α → Except ε β} {e : ε} :
    x >>= f = .error e ↔ x = .error e ∨ ∃ a, x = .ok a ∧ f a = .error e := by
  cases x with
  | error e' => simp [bind, Except.bind]
  | ok a => simp [bind, Except.bind]

end Except

/-! ## Splitting -/

/-- folly's `split(delimiter, input, out, ignoreEmpty)` with a one-character delimiter, on the characters of a text
or on its bytes -/
def split {α : Type} [DecidableEq α] (delimiter : α) (input : List α) (ignoreEmpty : Bool) : List (List α) :=
  if ignoreEmpty then (input.splitOn delimiter).filter (· ≠ []) else input.splitOn delimiter

/-- **The characters stand for the bytes.** Splitting the UTF-8 bytes of a text at an ASCII delimiter gives the bytes
of the pieces split from its characters -/
theorem split_encode {d : Char} (hd : d.toNat < 128) (input : List Char) (ignoreEmpty : Bool) :
    split (UInt8.ofNat d.toNat) (Utf8.encode input) ignoreEmpty = (split d input ignoreEmpty).map Utf8.encode := by
  cases ignoreEmpty with
  | false => exact Utf8.splitOn_encode hd input
  | true =>
    -- a piece is empty exactly when its bytes are
    simp only [split, if_true, Utf8.splitOn_encode hd, List.filter_map]
    congr 1
    apply List.filter_congr
    intro piece _
    simp [Utf8.encode_eq_nil_iff]

theorem split_true (delimiter : Char) (input : List Char) :
    split delimiter input true = (split delimiter input false).filter (· ≠ []) := rfl

/-- no piece of a split holds the delimiter -/
theorem not_mem_of_mem_splitOn {d : Char} {input piece : List Char} (h : piece ∈ input.splitOn d) : d ∉ piece := by
  induction input generalizing piece with
  | nil =>
    rw [List.splitOn_nil, List.mem_singleton] at h
    rw [h]
    exact List.not_mem_nil
  | cons x xs ih =>
    unfold List.splitOn at h ih
    rw [List.splitOnP_cons_eq_if_modifyHead] at h
    split_ifs at h with hx
    · -- a delimiter closes the piece before it
      rcases List.mem_cons.1 h with rfl | h
      · exact List.not_mem_nil
      · exact ih h
    · -- any other character joins the first piece of the rest
      obtain ⟨first, others, hsplit⟩ := List.exists_cons_of_ne_nil (List.splitOnP_ne_nil (· == d) xs)
      rw [hsplit, List.modifyHead_cons] at h
      rcases List.mem_cons.1 h with rfl | h
      · have hfirst : d ∉ first := ih (by rw [hsplit]; exact List.mem_cons_self)
        rw [List.mem_cons, not_or]
        exact ⟨fun hdx => hx (by rw [hdx, beq_self_eq_true]), hfirst⟩
      · exact ih (by rw [hsplit]; exact List.mem_cons_of_mem _ h)

theorem not_mem_of_mem_split {d : Char} {input piece : List Char} {ignoreEmpty : Bool}
    (h : piece ∈ split d input ignoreEmpty) : d ∉ piece := by
  unfold split at h
  split_ifs at h
  · exact not_mem_of_mem_splitOn (List.mem_filter.1 h).1
  · exact not_mem_of_mem_splitOn h

/-- splitting a join of pieces that do not hold the delimiter gives the pieces back -/
theorem split_intercalate (d : Char) {pieces : List (List Char)} (hne : pieces ≠ []) (hd : ∀ p ∈ pieces, d ∉ p) :
    split d ([d].intercalate pieces) false = pieces :=
  List.splitOn_intercalate d hd hne

theorem intercalate_two (d : Char) (a b : List Char) : [d].intercalate [a, b] = a ++ d :: b := by
  simp [List.intercalate]

/-- with empty pieces dropped, a join splits into its non-empty pieces -/
theorem split_true_intercalate (d : Char) {pieces : List (List Char)} (hne : pieces ≠ []) (hd : ∀ p ∈ pieces, d ∉ p) :
    split d ([d].intercalate pieces) true = pieces.filter (· ≠ []) := by
  rw [split_true, split_intercalate d hne hd]

/-- a non-empty input without the delimiter is one piece -/
theorem split_of_not_mem {d : Char} {input : List Char} (hne : input ≠ []) (hd : d ∉ input) (ignoreEmpty : Bool) :
    split d input ignoreEmpty = [input] := by
  have hone : split d input false = [input] := by
    have : split d ([d].intercalate [input]) false = [input] :=
      split_intercalate d (List.cons_ne_nil _ _) (by simpa using hd)
    simpa [List.intercalate] using this
  cases ignoreEmpty with
  | false => exact hone
  | true => simp [split_true, hone, hne]

/-- joining the pieces of a split gives the input back -/
theorem intercalate_split (d : Char) (input : List Char) : [d].intercalate (split d input false) = input :=
  List.intercalate_splitOn d

/-! ## Scans

A scan with a predicate reads a run of characters that satisfy it and stops at the first that does not. -/

section Scans

variable {α : Type} {p : α → Bool} {a b : List α}

/-- a scan over a run of accepted characters, followed by a rejected one or the end, reads exactly the run -/
theorem takeWhile_append_stop (ha : ∀ x ∈ a, p x) (hb : ∀ x ∈ b.head?, p x = false) : (a ++ b).takeWhile p = a := by
  rw [List.takeWhile_append_of_pos ha]
  cases b with
  | nil => simp
  | cons x xs => simp [hb x rfl]

/-- and what it leaves is what follows the run -/
theorem dropWhile_append_stop (ha : ∀ x ∈ a, p x) (hb : ∀ x ∈ b.head?, p x = false) : (a ++ b).dropWhile p = b := by
  rw [List.dropWhile_append_of_pos ha]
  cases b with
  | nil => simp
  | cons x xs => simp [hb x rfl]

/-- a scan for a character runs over a text that does not hold it -/
theorem decide_ne_of_not_mem [DecidableEq α] {c : α} (h : c ∉ a) : ∀ x ∈ a, decide (x ≠ c) = true :=
  fun x hx => by simpa using fun hxc : x = c => h (hxc ▸ hx)

/-- a prefix that does not hold `c` is a prefix of the text before a `c` -/
theorem prefix_append_cons_iff {l : List α} {c : α} (hc : c ∉ l) : l <+: a ++ c :: b ↔ l <+: a := by
  constructor
  · rintro ⟨t, ht⟩
    rcases List.append_eq_append_iff.1 ht with ⟨a', rfl, -⟩ | ⟨l', rfl, hl'⟩
    · exact List.prefix_append _ _
    · -- the prefix runs past the text before the `c`, so it holds the `c`
      cases l' with
      | nil => simp
      | cons x l'' =>
        obtain ⟨rfl, -⟩ := List.cons_eq_cons.1 hl'
        exact absurd (List.mem_append_right _ List.mem_cons_self) hc
  · exact fun h => h.trans (List.prefix_append _ _)

/-- in a text where `c` stands once, an occurrence of `c :: s` is at that `c` -/
theorem cons_infix_append_cons_iff {s : List α} {c : α} (ha : c ∉ a) (hb : c ∉ b) :
    c :: s <:+: a ++ c :: b ↔ s <+: b := by
  constructor
  · rintro ⟨u, v, huv⟩
    rw [List.append_assoc] at huv
    -- the occurrence starts before the `c`, at it, or past it
    rcases List.append_eq_append_iff.1 huv with ⟨a', rfl, h⟩ | ⟨u', rfl, h⟩
    · cases a' with
      | nil =>
        obtain ⟨-, hb'⟩ := List.cons_eq_cons.1 h
        exact ⟨v, hb'⟩
      | cons x a'' =>
        obtain ⟨rfl, -⟩ := List.cons_eq_cons.1 h
        exact absurd (List.mem_append_right _ List.mem_cons_self) ha
    · cases u' with
      | nil =>
        obtain ⟨-, hb'⟩ := List.cons_eq_cons.1 h
        exact ⟨v, hb'.symm⟩
      | cons x u'' =>
        obtain ⟨-, rfl⟩ := List.cons_eq_cons.1 h
        exact absurd (List.mem_append_right _ (List.mem_append_left _ List.mem_cons_self)) hb
  · rintro ⟨v, rfl⟩
    exact ⟨a, v, by simp⟩

end Scans

/-! ## Decimal digits -/

/-- the value of a run of decimal digits -/
def digitsValue (digits : List Char) : ℕ := Nat.ofDigitChars 10 digits 0

/-- a run of digits holds no character that is not one -/
theorem not_mem_of_isDigit {digits : List Char} (h : ∀ c ∈ digits, c.isDigit = true) {c : Char}
    (hc : c.isDigit = false) : c ∉ digits := fun hmem => by
  rw [h c hmem] at hc
  cases hc

theorem toNat_of_isDigit {c : Char} (h : c.isDigit = true) : 48 ≤ c.toNat ∧ c.toNat ≤ 57 := by
  unfold Char.isDigit at h
  simp only [Bool.and_eq_true, decide_eq_true_eq, UInt32.le_iff_toNat_le, ge_iff_le] at h
  exact h

theorem toNat_zero : '0'.toNat = 48 := rfl

theorem ofDigitChars_eq (l : List Char) (init : ℕ) :
    Nat.ofDigitChars 10 l init = init * 10 ^ l.length + digitsValue l := by
  induction l generalizing init with
  | nil => simp [digitsValue, Nat.ofDigitChars_nil]
  | cons c l ih =>
    -- both sides fold the digits after `c`; compare the accumulators
    unfold digitsValue
    rw [Nat.ofDigitChars_cons, Nat.ofDigitChars_cons, ih, ih, List.length_cons, pow_succ]
    ring

theorem digitsValue_cons (c : Char) (l : List Char) :
    digitsValue (c :: l) = (c.toNat - '0'.toNat) * 10 ^ l.length + digitsValue l := by
  unfold digitsValue
  rw [Nat.ofDigitChars_cons, ofDigitChars_eq, Nat.mul_zero, Nat.zero_add]
  rfl

theorem digitsValue_toDigits (n : ℕ) : digitsValue (Nat.toDigits 10 n) = n :=
  Nat.ofDigitChars_toDigits (by norm_num) le_rfl

theorem digitsValue_lt {l : List Char} (h : ∀ c ∈ l, c.isDigit = true) : digitsValue l < 10 ^ l.length := by
  induction l with
  | nil => simp [digitsValue, Nat.ofDigitChars_nil]
  | cons c l ih =>
    have hc := toNat_of_isDigit (h c List.mem_cons_self)
    have hl := ih fun c' hc' => h c' (List.mem_cons_of_mem c hc')
    have hdigit : c.toNat - '0'.toNat ≤ 9 := by
      rw [toNat_zero]
      omega
    calc digitsValue (c :: l) = (c.toNat - '0'.toNat) * 10 ^ l.length + digitsValue l := digitsValue_cons c l
      _ < 9 * 10 ^ l.length + 10 ^ l.length := Nat.add_lt_add_of_le_of_lt (Nat.mul_le_mul_right _ hdigit) hl
      _ = 10 ^ (c :: l).length := by rw [List.length_cons, pow_succ]; ring

/-- on digit strings of one length, a smaller value is a lexicographically smaller string -/
theorem lt_of_digitsValue_lt {l m : List Char} (hl : ∀ c ∈ l, c.isDigit = true) (hm : ∀ c ∈ m, c.isDigit = true)
    (hlen : l.length = m.length) (h : digitsValue l < digitsValue m) : l < m := by
  induction l generalizing m with
  | nil =>
    rw [List.length_nil, eq_comm, List.length_eq_zero_iff] at hlen
    subst hlen
    exact absurd h (lt_irrefl _)
  | cons c l ih =>
    obtain ⟨e, m, rfl⟩ := List.exists_cons_of_length_eq_add_one hlen.symm
    rw [List.length_cons, List.length_cons, Nat.add_right_cancel_iff] at hlen
    have hc := toNat_of_isDigit (hl c List.mem_cons_self)
    have he := toNat_of_isDigit (hm e List.mem_cons_self)
    have hl' : ∀ c' ∈ l, c'.isDigit = true := fun c' hc' => hl c' (List.mem_cons_of_mem c hc')
    have hm' : ∀ c' ∈ m, c'.isDigit = true := fun c' hc' => hm c' (List.mem_cons_of_mem e hc')
    have hltl := digitsValue_lt hl'
    have hltm := digitsValue_lt hm'
    rw [digitsValue_cons, digitsValue_cons, toNat_zero, hlen] at h
    rw [hlen] at hltl
    rw [List.cons_lt_cons_iff, Char.lt_def, UInt32.lt_iff_toNat_lt, Char.toNat_val, Char.toNat_val]
    -- the first digits decide unless they agree; equal first digits leave the rest to compare
    rcases Nat.lt_trichotomy c.toNat e.toNat with hce | hce | hce
    · exact Or.inl hce
    · refine Or.inr ⟨Char.toNat_inj.1 hce, ih hl' hm' hlen ?_⟩
      rw [hce] at h
      omega
    · exfalso
      have hstep : (e.toNat - 48) * 10 ^ m.length + 10 ^ m.length ≤ (c.toNat - 48) * 10 ^ m.length := by
        rw [← Nat.succ_mul]
        exact Nat.mul_le_mul_right _ (by omega)
      omega

/-! ## `std::stol` and `std::stoull` -/

/-- the characters `isspace` accepts in the C locale -/
def isSpace (c : Char) : Bool := [' ', '\t', '\n', '\x0b', '\x0c', '\r'].contains c

/-- the sign `strtol` reads: whether it is '-', and what follows it -/
def readSign : List Char → Bool × List Char
  | c :: rest => if c = '-' then (true, rest) else if c = '+' then (false, rest) else (false, c :: rest)
  | [] => (false, [])

/-- `strtol`'s scan in base 10: the sign and the run of digits after the leading white space -/
def scanDecimal (s : List Char) : Bool × List Char :=
  ((readSign (s.dropWhile isSpace)).1, (readSign (s.dropWhile isSpace)).2.takeWhile Char.isDigit)

/-- `std::stol`: `long` is 64 bits -/
def stol (s : List Char) : Except StdException ℤ :=
  match scanDecimal s with
  | (_, []) => .error (.invalidArgument "stol")
  | (negative, digits) =>
    if negative then
      if digitsValue digits ≤ 2 ^ 63 then .ok (-(digitsValue digits : ℤ)) else .error (.outOfRange "stol")
    else if digitsValue digits < 2 ^ 63 then .ok (digitsValue digits) else .error (.outOfRange "stol")

/-- `std::stoull`: a value read after '-' is negated modulo `2^64` -/
def stoull (s : List Char) : Except StdException ℕ :=
  match scanDecimal s with
  | (_, []) => .error (.invalidArgument "stoull")
  | (negative, digits) =>
    if digitsValue digits < 2 ^ 64 then
      .ok (if negative then (2 ^ 64 - digitsValue digits) % 2 ^ 64 else digitsValue digits)
    else .error (.outOfRange "stoull")

theorem isSpace_of_isDigit {c : Char} (h : c.isDigit = true) : isSpace c = false := by
  have hc := toNat_of_isDigit h
  by_contra hs
  simp only [isSpace, Bool.not_eq_false, List.contains_iff_mem, List.mem_cons, List.not_mem_nil, or_false] at hs
  rcases hs with rfl | rfl | rfl | rfl | rfl | rfl <;> simp at hc

/-- a run of digits followed by anything that does not start with a digit is read as that run, with no sign -/
theorem scanDecimal_digits {digits rest : List Char} (hne : digits ≠ []) (hdigits : ∀ c ∈ digits, c.isDigit = true)
    (hrest : ∀ c ∈ rest.head?, c.isDigit = false) : scanDecimal (digits ++ rest) = (false, digits) := by
  obtain ⟨c, cs, rfl⟩ := List.exists_cons_of_ne_nil hne
  have hc := hdigits c List.mem_cons_self
  have hminus : c ≠ '-' := by rintro rfl; simp at hc
  have hplus : c ≠ '+' := by rintro rfl; simp at hc
  have hdrop : (c :: cs ++ rest).dropWhile isSpace = c :: (cs ++ rest) := by
    rw [List.cons_append, List.dropWhile_cons_of_neg (by simp [isSpace_of_isDigit hc])]
  have htake : (c :: (cs ++ rest)).takeWhile Char.isDigit = c :: cs := by
    rw [← List.cons_append, takeWhile_append_stop hdigits hrest]
  unfold scanDecimal
  rw [hdrop, readSign, if_neg hminus, if_neg hplus, htake]

theorem stol_digits {digits rest : List Char} (hne : digits ≠ []) (hdigits : ∀ c ∈ digits, c.isDigit = true)
    (hrest : ∀ c ∈ rest.head?, c.isDigit = false) (hlt : digitsValue digits < 2 ^ 63) :
    stol (digits ++ rest) = .ok (digitsValue digits) := by
  obtain ⟨c, cs, rfl⟩ := List.exists_cons_of_ne_nil hne
  unfold stol
  rw [scanDecimal_digits hne hdigits hrest]
  simp only [Bool.false_eq_true, if_false, if_pos hlt]

theorem stoull_digits {digits rest : List Char} (hne : digits ≠ []) (hdigits : ∀ c ∈ digits, c.isDigit = true)
    (hrest : ∀ c ∈ rest.head?, c.isDigit = false) (hlt : digitsValue digits < 2 ^ 64) :
    stoull (digits ++ rest) = .ok (digitsValue digits) := by
  obtain ⟨c, cs, rfl⟩ := List.exists_cons_of_ne_nil hne
  unfold stoull
  rw [scanDecimal_digits hne hdigits hrest]
  simp only [if_pos hlt, Bool.false_eq_true, if_false]

/-- a run of digits whose value is past `long` throws `std::out_of_range` -/
theorem stol_digits_of_ge {digits rest : List Char} (hne : digits ≠ []) (hdigits : ∀ c ∈ digits, c.isDigit = true)
    (hrest : ∀ c ∈ rest.head?, c.isDigit = false) (hge : 2 ^ 63 ≤ digitsValue digits) :
    stol (digits ++ rest) = .error (.outOfRange "stol") := by
  obtain ⟨c, cs, rfl⟩ := List.exists_cons_of_ne_nil hne
  unfold stol
  rw [scanDecimal_digits hne hdigits hrest]
  simp only [Bool.false_eq_true, if_false, if_neg (Nat.not_lt.2 hge)]

example : stol "  -12abc".toList = .ok (-12) := by decide
example : stoull "-1".toList = .ok (2 ^ 64 - 1) := by decide

end OneHelpers.Text
