/-
The bytes of a text in UTF-8 against its characters. An ASCII character is the one byte of its code, and every byte
of any other character is at least 128. A scan of the bytes that splits at, or stops at, ASCII bytes only therefore
reads the bytes of what the same scan reads from the characters: the characters can stand for the bytes.

The general form is about any code `enc : α → List β`: `Separates` says that `enc` maps the elements a test holds for
to one symbol a test of symbols holds for, and the others to symbols it fails on; `Scans` says that a test holds of an
element exactly when it holds of all of the element's symbols, the first one deciding.

Results:
* `toUTF8_data_toList` — the bytes of a string are the codes of its characters, in order.
* `splitOnP_flatMap`, `takeWhile_flatMap`, `dropWhile_flatMap` — splitting and scanning the codes is coding the
  pieces split and scanned from the elements.
* `separates_ascii`, `scans_ascii` — UTF-8 and an ASCII character or an ASCII test satisfy those conditions.
* `splitOn_encode` — splitting the bytes at an ASCII character gives the bytes of the pieces of the characters.
-/
import Mathlib.Tactic

namespace OneHelpers.Utf8

/-- the UTF-8 bytes of a list of characters -/
def encode (s : List Char) : List UInt8 := s.flatMap String.utf8EncodeChar

/-- the bytes of a string are the codes of its characters -/
theorem toUTF8_data_toList (s : String) : s.toUTF8.data.toList = encode s.toList := by
  conv => lhs; rw [← String.ofList_toList (s := s)]
  rw [String.toUTF8_eq_toByteArray, String.toByteArray_ofList, List.utf8Encode, List.toList_data_toByteArray]
  rfl

@[simp] theorem encode_nil : encode [] = [] := rfl

@[simp] theorem encode_cons (c : Char) (s : List Char) : encode (c :: s) = String.utf8EncodeChar c ++ encode s :=
  List.flatMap_cons

/-! ## Bytes of one character -/

theorem utf8EncodeChar_of_lt {c : Char} (h : c.toNat < 128) : String.utf8EncodeChar c = [UInt8.ofNat c.toNat] := by
  have hv : c.val.toNat ≤ 127 := by
    have : c.toNat = c.val.toNat := rfl
    omega
  unfold String.utf8EncodeChar
  dsimp only
  rw [if_pos hv]
  rfl

/-- every byte of a character past ASCII is at least 128 -/
theorem le_of_mem_utf8EncodeChar {c : Char} (h : 128 ≤ c.toNat) {b : UInt8} (hb : b ∈ String.utf8EncodeChar c) :
    128 ≤ b.toNat := by
  have hv : ¬ c.val.toNat ≤ 127 := by
    have : c.toNat = c.val.toNat := rfl
    omega
  unfold String.utf8EncodeChar at hb
  dsimp only at hb
  rw [if_neg hv] at hb
  -- each byte is a lead byte from 192 on or a continuation byte from 128 on
  split_ifs at hb <;> simp only [List.mem_cons, List.not_mem_nil, or_false] at hb <;>
    rcases hb with rfl | rfl | rfl | rfl <;> simp only [UInt8.toNat_ofNat'] <;> omega

theorem utf8EncodeChar_ne_nil (c : Char) : String.utf8EncodeChar c ≠ [] := by
  unfold String.utf8EncodeChar
  dsimp only
  split_ifs <;> simp

theorem encode_eq_nil_iff {s : List Char} : encode s = [] ↔ s = [] := by
  cases s with
  | nil => simp
  | cons c s => simp only [encode_cons, List.append_eq_nil_iff, utf8EncodeChar_ne_nil, false_and, reduceCtorEq]

/-! ## Splitting and scanning codes -/

section Codes

variable {α β : Type*} (enc : α → List β)

/-- `enc` codes the elements `p` holds for as one symbol `q` holds for, and the others by symbols `q` fails on -/
structure Separates (p : α → Bool) (q : β → Bool) : Prop where
  sep : ∀ a, p a = true → ∃ b, enc a = [b] ∧ q b = true
  other : ∀ a, p a = false → ∀ b ∈ enc a, q b = false

/-- `p` holds of an element exactly when `q` holds of all of its symbols, and a code `p` fails on starts with a
symbol `q` fails on -/
structure Scans (p : α → Bool) (q : β → Bool) : Prop where
  all : ∀ a, p a = true → ∀ b ∈ enc a, q b = true
  head : ∀ a, p a = false → ∃ b rest, enc a = b :: rest ∧ q b = false

variable {enc}

/-- a front with no separator joins the first piece -/
theorem splitOnP_append_of_forall {q : β → Bool} {front : List β} (h : ∀ x ∈ front, q x = false) (l : List β) :
    (front ++ l).splitOnP q = (l.splitOnP q).modifyHead (front ++ ·) := by
  induction front with
  | nil =>
    rw [List.nil_append]
    cases l.splitOnP q <;> rfl
  | cons x front ih =>
    rw [List.cons_append, List.splitOnP_cons_eq_if_modifyHead, if_neg (by simp [h x List.mem_cons_self]),
      ih fun y hy => h y (List.mem_cons_of_mem x hy), List.modifyHead_modifyHead]
    rfl

/-- coding the pieces after a piece grows at its front -/
theorem map_modifyHead_cons (a : α) (L : List (List α)) :
    (L.modifyHead (a :: ·)).map (·.flatMap enc) = (L.map (·.flatMap enc)).modifyHead (enc a ++ ·) := by
  cases L <;> simp [List.flatMap_cons]

/-- **Splitting the codes is coding the pieces.** -/
theorem splitOnP_flatMap {p : α → Bool} {q : β → Bool} (h : Separates enc p q) (l : List α) :
    (l.flatMap enc).splitOnP q = (l.splitOnP p).map (·.flatMap enc) := by
  induction l with
  | nil => simp
  | cons a l ih =>
    rw [List.flatMap_cons, List.splitOnP_cons_eq_if_modifyHead]
    cases hp : p a
    · -- the code of `a` joins the first piece
      rw [splitOnP_append_of_forall (h.other a hp), ih, if_neg Bool.false_ne_true, map_modifyHead_cons]
    · -- the code of `a` is one separator
      obtain ⟨b, hb, hq⟩ := h.sep a hp
      rw [hb, List.singleton_append, List.splitOnP_cons_eq_if_modifyHead, if_pos hq, ih, if_pos rfl, List.map_cons,
        List.flatMap_nil]

/-- **Scanning the codes is coding the scan.** -/
theorem takeWhile_flatMap {p : α → Bool} {q : β → Bool} (h : Scans enc p q) (l : List α) :
    (l.flatMap enc).takeWhile q = (l.takeWhile p).flatMap enc := by
  induction l with
  | nil => simp
  | cons a l ih =>
    rw [List.flatMap_cons, List.takeWhile_cons]
    cases hp : p a
    · -- the scan stops at the first symbol of `a`
      obtain ⟨b, rest, hb, hq⟩ := h.head a hp
      simp [hb, hq]
    · rw [List.takeWhile_append_of_pos (h.all a hp), ih, if_pos rfl, List.flatMap_cons]

theorem dropWhile_flatMap {p : α → Bool} {q : β → Bool} (h : Scans enc p q) (l : List α) :
    (l.flatMap enc).dropWhile q = (l.dropWhile p).flatMap enc := by
  induction l with
  | nil => simp
  | cons a l ih =>
    rw [List.flatMap_cons, List.dropWhile_cons]
    cases hp : p a
    · obtain ⟨b, rest, hb, hq⟩ := h.head a hp
      simp [hb, hq]
    · rw [List.dropWhile_append_of_pos (h.all a hp), ih, if_pos rfl]

end Codes

/-! ## ASCII in UTF-8 -/

/-- the byte of an ASCII character is another ASCII character's exactly when the characters are equal -/
theorem ofNat_eq_ofNat_iff {c d : Char} (hc : c.toNat < 128) (hd : d.toNat < 128) :
    UInt8.ofNat c.toNat = UInt8.ofNat d.toNat ↔ c = d := by
  constructor
  · intro h
    have hval := congrArg UInt8.toNat h
    simp only [UInt8.toNat_ofNat'] at hval
    exact Char.toNat_inj.1 (by omega)
  · rintro rfl
    rfl

/-- a byte past ASCII is no ASCII character's -/
theorem ne_ofNat_of_le {b : UInt8} (hb : 128 ≤ b.toNat) {d : Char} (hd : d.toNat < 128) : b ≠ UInt8.ofNat d.toNat := by
  rintro rfl
  simp only [UInt8.toNat_ofNat'] at hb
  omega

/-- comparing the bytes of ASCII characters is comparing the characters -/
theorem ofNat_beq_ofNat {c d : Char} (hc : c.toNat < 128) (hd : d.toNat < 128) :
    (UInt8.ofNat c.toNat == UInt8.ofNat d.toNat) = (c == d) := by
  rw [Bool.eq_iff_iff, beq_iff_eq, beq_iff_eq]
  exact ofNat_eq_ofNat_iff hc hd

/-- past ASCII no byte and no character is an ASCII character -/
theorem beq_ofNat_of_le {b : UInt8} (hb : 128 ≤ b.toNat) {d : Char} (hd : d.toNat < 128) :
    (b == UInt8.ofNat d.toNat) = false :=
  beq_eq_false_iff_ne.2 (ne_ofNat_of_le hb hd)

theorem beq_of_le {c d : Char} (hc : 128 ≤ c.toNat) (hd : d.toNat < 128) : (c == d) = false :=
  beq_eq_false_iff_ne.2 fun h => by rw [h] at hc; omega

/-- an ASCII character separates in UTF-8: its byte stands for it alone -/
theorem separates_ascii {d : Char} (hd : d.toNat < 128) :
    Separates String.utf8EncodeChar (· == d) (· == UInt8.ofNat d.toNat) where
  sep a ha := by
    rw [beq_iff_eq] at ha
    subst ha
    exact ⟨_, utf8EncodeChar_of_lt hd, beq_self_eq_true _⟩
  other a ha b hb := by
    rw [beq_eq_false_iff_ne] at ha ⊢
    by_cases ha' : a.toNat < 128
    · -- another ASCII character has another byte
      rw [utf8EncodeChar_of_lt ha', List.mem_singleton] at hb
      rw [hb]
      exact fun h => ha ((ofNat_eq_ofNat_iff ha' hd).1 h)
    · -- the bytes of other characters are past ASCII
      exact ne_ofNat_of_le (le_of_mem_utf8EncodeChar (Nat.le_of_not_lt ha') hb) hd

/-- a test of ASCII characters scans UTF-8 as the same test of their bytes, when both give one answer past ASCII -/
theorem scans_ascii {p : Char → Bool} {q : UInt8 → Bool} {past : Bool}
    (hpq : ∀ c : Char, c.toNat < 128 → q (UInt8.ofNat c.toNat) = p c)
    (hp : ∀ c : Char, 128 ≤ c.toNat → p c = past) (hq : ∀ b : UInt8, 128 ≤ b.toNat → q b = past) :
    Scans String.utf8EncodeChar p q where
  all a ha b hb := by
    by_cases ha' : a.toNat < 128
    · rw [utf8EncodeChar_of_lt ha', List.mem_singleton] at hb
      rw [hb, hpq a ha', ha]
    · -- past ASCII the test holds, so it holds of every byte
      rw [hq b (le_of_mem_utf8EncodeChar (Nat.le_of_not_lt ha') hb), ← hp a (Nat.le_of_not_lt ha'), ha]
  head a ha := by
    by_cases ha' : a.toNat < 128
    · exact ⟨_, [], utf8EncodeChar_of_lt ha', by rw [hpq a ha', ha]⟩
    · obtain ⟨b, rest, hb⟩ := List.exists_cons_of_ne_nil (utf8EncodeChar_ne_nil a)
      have hmem : b ∈ String.utf8EncodeChar a := by simp [hb]
      refine ⟨b, rest, hb, ?_⟩
      rw [hq b (le_of_mem_utf8EncodeChar (Nat.le_of_not_lt ha') hmem), ← hp a (Nat.le_of_not_lt ha'), ha]

/-- **Splitting the bytes at an ASCII character** gives the bytes of the pieces of the characters -/
theorem splitOn_encode {d : Char} (hd : d.toNat < 128) (s : List Char) :
    (encode s).splitOn (UInt8.ofNat d.toNat) = (s.splitOn d).map encode := by
  simp only [List.splitOn]
  exact splitOnP_flatMap (separates_ascii hd) s

end OneHelpers.Utf8
