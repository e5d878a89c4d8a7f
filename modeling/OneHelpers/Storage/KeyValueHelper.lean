/-
Model of `KeyValueHelper` (`src/keyValueHelper.h`): the object storage under `KeyValueAdapter`.

A helper is a map from keys to byte strings plus the `m_randomAccess` flag. Following the storage semantics of the
back-ends under `src/`:
- `getObject key off n` returns the bytes `[off, min (off + n) len)` of the object, `none` (ENOENT) if it is absent;
- `putObject key buf off` replaces the whole object by `buf` on S3 and Swift (`randomAccess = false`, where `off` is
  always 0), and on CephRados (`randomAccess = true`, librados `IoCtx::write`) overwrites `[off, off + |buf|)` in
  place, zero-extending but never shrinking the object;
- `deleteObjects keys` removes every listed key.
`getKey` is the default key derivation of the header: the prefix without leading '/', a '/', and
`MAX_OBJECT_ID - objectId` in `uint64_t` arithmetic, zero-padded to `MAX_OBJECT_ID_DIGITS` digits. `substr` of `npos`
throws when the prefix is only '/' characters, so `adjustPrefix` is partial. `getObjectId` reads the text after the
last '/' with `std::stoull` and subtracts it from `MAX_OBJECT_ID`, again in `uint64_t`.

Results: `getKey_inj` (distinct object ids below 2^64 have distinct keys, which is what lets the adapter treat blocks
as independent), `blockKeys_roundtrip_ordered` (`getObjectId` reads every key's object id back, and the keys of the
ids up to `MAX_OBJECT_ID` sort in the reverse order of the ids), and one lemma per operation saying which keys it
changes.
-/
import Mathlib.Data.List.TakeWhile
import Mathlib.Tactic
import OneHelpers.Core.SparseArray
import OneHelpers.Core.Text

namespace OneHelpers.KeyValue

open SparseArray

/-! ## Constants and keys -/

def OBJECT_DELIMITER : String := "/"

def MAX_OBJECT_ID : ℕ := 999999

def MAX_OBJECT_ID_DIGITS : ℕ := 6

/-- `prefix.substr(prefix.find_first_not_of(OBJECT_DELIMITER)) + OBJECT_DELIMITER`; `none` when `substr` throws -/
def adjustPrefix (pfx : String) : Option String :=
  let rest := pfx.toList.dropWhile (· = '/')
  if rest = [] then none else some (String.ofList rest ++ OBJECT_DELIMITER)

/-- `std::setfill('0') << std::setw(MAX_OBJECT_ID_DIGITS) << n` -/
def paddedDigits (n : ℕ) : List Char :=
  List.replicate (MAX_OBJECT_ID_DIGITS - (Nat.toDigits 10 n).length) '0' ++ Nat.toDigits 10 n

/-- `MAX_OBJECT_ID - objectId` computed in `uint64_t`: the `int` constant is converted and the difference wraps -/
def invertedObjectId (objectId : ℕ) : ℕ := (MAX_OBJECT_ID + 2 ^ 64 - objectId % 2 ^ 64) % 2 ^ 64

/-- `KeyValueHelper::getKey` -/
def getKey (pfx : String) (objectId : ℕ) : Option String :=
  (adjustPrefix pfx).map fun p => p ++ String.ofList (paddedDigits (invertedObjectId objectId))

theorem paddedDigits_inj {a b : ℕ} (h : paddedDigits a = paddedDigits b) : a = b := by
  have ha : Nat.ofDigitChars 10 (paddedDigits a) 0 = a := by
    simp [paddedDigits, Nat.ofDigitChars_append]
  have hb : Nat.ofDigitChars 10 (paddedDigits b) 0 = b := by
    simp [paddedDigits, Nat.ofDigitChars_append]
  rw [← ha, ← hb, h]

theorem invertedObjectId_inj {i j : ℕ} (hi : i < 2 ^ 64) (hj : j < 2 ^ 64)
    (h : invertedObjectId i = invertedObjectId j) : i = j := by
  unfold invertedObjectId MAX_OBJECT_ID at h
  omega

/-- distinct object ids that fit `uint64_t` have distinct keys -/
theorem getKey_inj {pfx k k' : String} {i j : ℕ} (hi : i < 2 ^ 64) (hj : j < 2 ^ 64)
    (h1 : getKey pfx i = some k) (h2 : getKey pfx j = some k') (hk : k = k') : i = j := by
  unfold getKey at h1 h2
  obtain ⟨p, hp, rfl⟩ := Option.map_eq_some_iff.1 h1
  obtain ⟨p', hp', rfl⟩ := Option.map_eq_some_iff.1 h2
  rw [hp] at hp'
  cases hp'
  rw [String.append_right_inj] at hk
  have hd := congrArg String.toList hk
  rw [String.toList_ofList, String.toList_ofList] at hd
  exact invertedObjectId_inj hi hj (paddedDigits_inj hd)

theorem getKey_isSome {pfx : String} (i j : ℕ) : (getKey pfx i).isSome = (getKey pfx j).isSome := by
  simp [getKey]

/-- `key.substr(key.find_last_of(OBJECT_DELIMITER) + 1)`: what follows the last '/', the whole key when there is none
(`npos + 1` is 0) -/
def afterLastDelimiter (key : List Char) : List Char := (key.reverse.takeWhile (· ≠ '/')).reverse

/-- `KeyValueHelper::getObjectId`: `MAX_OBJECT_ID - std::stoull(...)`, in `uint64_t` -/
def getObjectId (key : String) : Except Text.StdException ℕ :=
  (Text.stoull (afterLastDelimiter key.toList)).map fun n => (MAX_OBJECT_ID + 2 ^ 64 - n) % 2 ^ 64

/-! ## Reading a key back -/

theorem afterLastDelimiter_append {l digits : List Char} (h : '/' ∉ digits) :
    afterLastDelimiter (l ++ '/' :: digits) = digits := by
  have hne : ∀ c ∈ digits.reverse, decide (c ≠ '/') = true := by
    intro c hc
    rw [decide_eq_true_eq]
    rintro rfl
    exact h (List.mem_reverse.1 hc)
  unfold afterLastDelimiter
  rw [List.reverse_append, List.reverse_cons, List.append_assoc, List.takeWhile_append_of_pos hne,
    List.singleton_append, List.takeWhile_cons_of_neg (by simp), List.append_nil, List.reverse_reverse]

theorem isDigit_of_mem_paddedDigits {n : ℕ} : ∀ c ∈ paddedDigits n, c.isDigit = true := by
  intro c hc
  rcases List.mem_append.1 hc with hc | hc
  · rw [List.eq_of_mem_replicate hc]
    rfl
  · exact Nat.isDigit_of_mem_toDigits (by norm_num) le_rfl hc

theorem digitsValue_paddedDigits (n : ℕ) : Text.digitsValue (paddedDigits n) = n := by
  simp [paddedDigits, Text.digitsValue, Nat.ofDigitChars_append]

theorem paddedDigits_ne_nil (n : ℕ) : paddedDigits n ≠ [] := by
  simp [paddedDigits, Nat.toDigits_ne_nil]

/-- up to `MAX_OBJECT_ID`, the padding fills `MAX_OBJECT_ID_DIGITS` digits -/
theorem length_paddedDigits {n : ℕ} (h : n ≤ MAX_OBJECT_ID) : (paddedDigits n).length = MAX_OBJECT_ID_DIGITS := by
  have hlt : n < 10 ^ MAX_OBJECT_ID_DIGITS := by
    unfold MAX_OBJECT_ID at h
    unfold MAX_OBJECT_ID_DIGITS
    omega
  have hlen := Nat.toDigits_length 10 n MAX_OBJECT_ID_DIGITS (by decide) hlt
  rw [paddedDigits, List.length_append, List.length_replicate]
  omega

/-- a prefix with a character other than '/' gives every object id a key: the prefix without its leading '/', a '/',
and the padded inverted id -/
theorem getKey_toList {pfx : String} (hpfx : ∃ c ∈ pfx.toList, c ≠ '/') (objectId : ℕ) :
    ∃ key, getKey pfx objectId = some key ∧
      key.toList = pfx.toList.dropWhile (· = '/') ++ '/' :: paddedDigits (invertedObjectId objectId) := by
  have hrest : pfx.toList.dropWhile (· = '/') ≠ [] := by
    obtain ⟨c, hc, hslash⟩ := hpfx
    intro hnil
    have := List.dropWhile_eq_nil_iff.1 hnil c hc
    simp only [decide_eq_true_eq] at this
    exact hslash this
  have hadjust : adjustPrefix pfx = some (String.ofList (pfx.toList.dropWhile (· = '/')) ++ OBJECT_DELIMITER) := by
    rw [adjustPrefix, if_neg hrest]
  refine ⟨_, by rw [getKey, hadjust, Option.map_some], ?_⟩
  simp only [String.toList_append, String.toList_ofList, OBJECT_DELIMITER, List.append_assoc]
  rfl

theorem getObjectId_getKey {pfx key : String} {objectId : ℕ} (hid : objectId < 2 ^ 64)
    (hkey : key.toList = pfx.toList.dropWhile (· = '/') ++ '/' :: paddedDigits (invertedObjectId objectId)) :
    getObjectId key = .ok objectId := by
  have hinv : invertedObjectId objectId < 2 ^ 64 := Nat.mod_lt _ (by norm_num)
  have hslash : '/' ∉ paddedDigits (invertedObjectId objectId) := fun h => by
    simpa using isDigit_of_mem_paddedDigits _ h
  have hread : Text.stoull (paddedDigits (invertedObjectId objectId)) = .ok (invertedObjectId objectId) := by
    have : Text.stoull (paddedDigits (invertedObjectId objectId) ++ []) =
        .ok (Text.digitsValue (paddedDigits (invertedObjectId objectId))) :=
      Text.stoull_digits (paddedDigits_ne_nil _) isDigit_of_mem_paddedDigits (by simp)
        (by rw [digitsValue_paddedDigits]; exact hinv)
    rwa [List.append_nil, digitsValue_paddedDigits] at this
  rw [getObjectId, hkey, afterLastDelimiter_append hslash, hread]
  -- `MAX_OBJECT_ID - (MAX_OBJECT_ID - objectId)` in `uint64_t`
  show Except.ok ((MAX_OBJECT_ID + 2 ^ 64 - invertedObjectId objectId) % 2 ^ 64) = Except.ok objectId
  unfold invertedObjectId MAX_OBJECT_ID
  congr 1
  omega

/-- keys of a larger object id up to `MAX_OBJECT_ID` sort first -/
theorem paddedDigits_lt {a b : ℕ} (hab : a < b) (hb : b ≤ MAX_OBJECT_ID) :
    paddedDigits (invertedObjectId b) < paddedDigits (invertedObjectId a) := by
  have hinv : ∀ n ≤ MAX_OBJECT_ID, invertedObjectId n = MAX_OBJECT_ID - n := by
    intro n hn
    unfold invertedObjectId
    unfold MAX_OBJECT_ID at hn ⊢
    omega
  have hba : invertedObjectId b < invertedObjectId a := by
    rw [hinv b hb, hinv a (by omega)]
    omega
  refine Text.lt_of_digitsValue_lt isDigit_of_mem_paddedDigits isDigit_of_mem_paddedDigits ?_ ?_
  · rw [length_paddedDigits (by rw [hinv b hb]; omega), length_paddedDigits (by rw [hinv a (by omega)]; omega)]
  · rwa [digitsValue_paddedDigits, digitsValue_paddedDigits]

/-- **Block keys read back and sort by id.** For a prefix with a character other than '/': every `uint64_t` object
id has a key, which `getObjectId` reads back as the id; distinct ids have distinct keys; and for ids
`a < b ≤ MAX_OBJECT_ID` the key of `b` is lexicographically smaller than the key of `a`. -/
theorem blockKeys_roundtrip_ordered (pfx : String) (hpfx : ∃ c ∈ pfx.toList, c ≠ '/') :
    (∀ objectId < 2 ^ 64, ∃ key, getKey pfx objectId = some key ∧ getObjectId key = .ok objectId) ∧
    (∀ i j, i < 2 ^ 64 → j < 2 ^ 64 → getKey pfx i = getKey pfx j → i = j) ∧
    (∀ a b, a < b → b ≤ MAX_OBJECT_ID → ∃ ka kb, getKey pfx a = some ka ∧ getKey pfx b = some kb ∧ kb < ka) := by
  refine ⟨fun objectId hid => ?_, fun i j hi hj hij => ?_, fun a b hab hb => ?_⟩
  · obtain ⟨key, hkey, hlist⟩ := getKey_toList hpfx objectId
    exact ⟨key, hkey, getObjectId_getKey hid hlist⟩
  · obtain ⟨key, hkey, -⟩ := getKey_toList hpfx i
    exact getKey_inj hi hj hkey (hij.symm.trans hkey) rfl
  · obtain ⟨ka, hka, hla⟩ := getKey_toList hpfx a
    obtain ⟨kb, hkb, hlb⟩ := getKey_toList hpfx b
    refine ⟨ka, kb, hka, hkb, ?_⟩
    -- the two keys share the prefix and its '/', so the padded digits decide
    show kb.toList < ka.toList
    rw [hla, hlb]
    exact List.lex_lt.1 (List.Lex.append_left _ (List.lex_lt.2 (paddedDigits_lt hab hb)).cons _)

theorem blockKeys_roundtrip_ordered_a :
    (∃ c ∈ "a".toList, c ≠ '/') ∧
      ((∀ objectId < 2 ^ 64, ∃ key, getKey "a" objectId = some key ∧ getObjectId key = .ok objectId) ∧
      (∀ i j, i < 2 ^ 64 → j < 2 ^ 64 → getKey "a" i = getKey "a" j → i = j) ∧
      (∀ a b, a < b → b ≤ MAX_OBJECT_ID → ∃ ka kb, getKey "a" a = some ka ∧ getKey "a" b = some kb ∧ kb < ka)) := by
  have hpfx : ∃ c ∈ "a".toList, c ≠ '/' := ⟨'a', by decide, by decide⟩
  exact ⟨hpfx, blockKeys_roundtrip_ordered "a" hpfx⟩

/-! ## The helper -/

/-- a key-value storage: the objects by key and whether it writes objects at offsets -/
structure KeyValueHelper where
  randomAccess : Bool
  objects : String → Option (List UInt8)

namespace KeyValueHelper

/-- `hasRandomAccess` -/
def hasRandomAccess (h : KeyValueHelper) : Bool := h.randomAccess

/-- the bytes `[offset, offset + size)` of the object, cut at its end; `none` is ENOENT -/
def getObject (h : KeyValueHelper) (key : String) (offset size : ℕ) : Option (List UInt8) :=
  (h.objects key).map fun obj => slice obj offset size

/-- whole-object replacement (S3, Swift) or in-place write at `offset` (CephRados) -/
def putObject (h : KeyValueHelper) (key : String) (buf : List UInt8) (offset : ℕ) : KeyValueHelper :=
  { h with objects := fun k =>
      if k = key then
        if h.randomAccess then some (overwrite ((h.objects key).getD []) offset buf) else some buf
      else h.objects k }

/-- every listed key is removed -/
def deleteObjects (h : KeyValueHelper) (keys : List String) : KeyValueHelper :=
  { h with objects := fun k => if k ∈ keys then none else h.objects k }

@[simp] theorem putObject_randomAccess (h : KeyValueHelper) (key : String) (buf : List UInt8) (offset : ℕ) :
    (h.putObject key buf offset).randomAccess = h.randomAccess := rfl

@[simp] theorem deleteObjects_randomAccess (h : KeyValueHelper) (keys : List String) :
    (h.deleteObjects keys).randomAccess = h.randomAccess := rfl

theorem putObject_objects (h : KeyValueHelper) (key : String) (buf : List UInt8) (offset : ℕ) (k : String) :
    (h.putObject key buf offset).objects k =
      if k = key then
        if h.randomAccess then some (overwrite ((h.objects key).getD []) offset buf) else some buf
      else h.objects k := rfl

theorem deleteObjects_objects (h : KeyValueHelper) (keys : List String) (k : String) :
    (h.deleteObjects keys).objects k = if k ∈ keys then none else h.objects k := rfl

end KeyValueHelper

end OneHelpers.KeyValue
