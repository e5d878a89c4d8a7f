/-
Bit tables: flags that each stand for a bit mask, translated to the OR of their masks and back to the flags whose whole
mask a number has.

Over the bits of the numbers the two translations are the image and the core of one relation, "the mask of `a` sets
bit `i`" (`sets`), so they are the two sides of Mathlib's Galois connection `SetRel.image_core_gc`: flags translated
to a mask and back can only gain flags, and a flag that has a bit no other flag of the set has comes back exactly when
it was there.

Results:
* `testBit_join` — a bit of the OR of the masks of `F` is a bit of the mask of one flag of `F`.
* `join_land_eq_self_iff` — the OR of the masks of `F` lies inside `n` iff the mask of every flag of `F` does.
* `land_join_eq_self_iff_of_unique` — a flag with a bit of its own among `F` lies inside the OR of the masks of `F`
  iff it is in `F`.
* `ofBits_land_eq_self_iff` — a mask written as an OR of powers of two lies inside `n` iff each of its bits is a bit
  of `n`.
* `mem_foldl_insert` — the set a loop builds by inserting, for each entry that passes a test, that entry's flag.
-/
import Mathlib.Data.Rel
import Mathlib.Data.Finset.Fold
import Mathlib.Tactic

namespace OneHelpers.BitTable

variable {α : Type*}

/-- the bits set in `m` -/
def bits (m : ℕ) : Set ℕ := {i | m.testBit i = true}

/-- the relation between a flag and the bits its mask `t a` sets -/
def sets (t : α → ℕ) : SetRel α ℕ := {p | (t p.1).testBit p.2 = true}

/-- the OR of the masks of the flags of `F`, taken in whatever order the set gives them -/
def join (t : α → ℕ) (F : Finset α) : ℕ := F.fold (· ||| ·) 0 t

/-- the mask with the bits of `l` set -/
def ofBits (l : List ℕ) : ℕ := l.foldr (fun i m => 2 ^ i ||| m) 0

/-- the flags whose mask sets bit `i` -/
def holders [Fintype α] (t : α → ℕ) (i : ℕ) : Finset α := Finset.univ.filter fun a => (t a).testBit i = true

variable {t : α → ℕ} {m n k : ℕ}

@[simp] theorem mem_bits {i : ℕ} : i ∈ bits m ↔ m.testBit i = true := Iff.rfl

@[simp] theorem mem_sets {a : α} {i : ℕ} : (a, i) ∈ sets t ↔ (t a).testBit i = true := Iff.rfl

@[simp] theorem mem_holders [Fintype α] {a : α} {i : ℕ} : a ∈ holders t i ↔ (t a).testBit i = true := by
  simp [holders]

/-! ## Masks as sets of bits -/

/-- `m` lies inside `n` as a mask exactly when every bit of `m` is a bit of `n` -/
theorem land_eq_self_iff : m &&& n = m ↔ bits m ⊆ bits n := by
  constructor
  · intro h i hi
    have hand : (m &&& n).testBit i = true := by rw [h]; exact hi
    rw [Nat.testBit_and, Bool.and_eq_true] at hand
    exact hand.2
  · intro h
    apply Nat.eq_of_testBit_eq
    intro i
    rw [Nat.testBit_and]
    cases hm : m.testBit i with
    | false => rfl
    | true => simpa using h hm

@[simp] theorem bits_lor : bits (m ||| n) = bits m ∪ bits n := by
  ext i
  simp [Nat.testBit_or]

theorem two_pow_land_eq_self_iff : 2 ^ k &&& n = 2 ^ k ↔ n.testBit k = true := by
  rw [land_eq_self_iff]
  constructor
  · intro h
    exact h (by simp)
  · intro h i hi
    rw [mem_bits, Nat.testBit_two_pow, decide_eq_true_iff] at hi
    subst hi
    exact h

theorem lor_land_eq_self_iff : (m ||| n) &&& k = m ||| n ↔ m &&& k = m ∧ n &&& k = n := by
  rw [land_eq_self_iff, land_eq_self_iff, land_eq_self_iff, bits_lor, Set.union_subset_iff]

/-- the mask with the bits of `l` lies inside `n` iff each bit of `l` is a bit of `n` -/
theorem ofBits_land_eq_self_iff (l : List ℕ) : ofBits l &&& n = ofBits l ↔ ∀ i ∈ l, n.testBit i = true := by
  induction l with
  | nil => simp [ofBits]
  | cons i l ih =>
    rw [ofBits, List.foldr_cons, ← ofBits, lor_land_eq_self_iff, two_pow_land_eq_self_iff, ih, List.forall_mem_cons]

theorem land_eq_self_trans (hmn : m &&& n = m) (hnk : n &&& k = n) : m &&& k = m := by
  rw [land_eq_self_iff] at *
  exact hmn.trans hnk

theorem mem_core_bits {a : α} : a ∈ (sets t).core (bits n) ↔ t a &&& n = t a := by
  rw [land_eq_self_iff]
  constructor
  · intro h i hi
    exact h (mem_sets.2 hi)
  · intro h i hi
    exact h hi

/-! ## The OR of a set of masks -/

@[simp] theorem join_empty : join t ∅ = 0 := Finset.fold_empty

section Join

variable [DecidableEq α]

theorem join_insert {a : α} {F : Finset α} (ha : a ∉ F) : join t (insert a F) = t a ||| join t F :=
  Finset.fold_insert ha

theorem testBit_join (F : Finset α) (i : ℕ) : (join t F).testBit i = true ↔ ∃ a ∈ F, (t a).testBit i = true := by
  induction F using Finset.induction_on with
  | empty => simp
  | insert a F ha ih =>
    rw [join_insert ha, Nat.testBit_or, Bool.or_eq_true, ih]
    simp [Finset.mem_insert, or_and_right, exists_or]

theorem testBit_join_iff_holders [Fintype α] (F : Finset α) (i : ℕ) :
    (join t F).testBit i = true ↔ ∃ a ∈ holders t i, a ∈ F := by
  rw [testBit_join]
  constructor
  · rintro ⟨a, haF, hai⟩
    exact ⟨a, mem_holders.2 hai, haF⟩
  · rintro ⟨a, hai, haF⟩
    exact ⟨a, haF, mem_holders.1 hai⟩

/-- the bits of the OR of the masks of `F` are the image of `F` under `sets t` -/
theorem bits_join (F : Finset α) : bits (join t F) = (sets t).image ↑F := by
  ext i
  simp [testBit_join]

/-- **The OR of the masks of `F` lies inside `n` iff every mask of `F` does**: the Galois connection of image and
core -/
theorem join_land_eq_self_iff (F : Finset α) : join t F &&& n = join t F ↔ ∀ a ∈ F, t a &&& n = t a := by
  rw [land_eq_self_iff, bits_join, SetRel.image_subset_iff]
  constructor
  · intro h a ha
    exact mem_core_bits.1 (h ha)
  · intro h a ha
    exact mem_core_bits.2 (h a ha)

theorem land_join_of_mem {a : α} {F : Finset α} (ha : a ∈ F) : t a &&& join t F = t a := by
  have hjoin : join t F &&& join t F = join t F := Nat.and_self _
  exact (join_land_eq_self_iff F).1 hjoin a ha

end Join

/-- a flag related to `b`, the only one of `s` that is, is in the core of the image of `s` iff it is in `s` -/
theorem mem_core_image_of_unique {β : Type*} {R : SetRel α β} {s : Set α} {a : α} {b : β} (hab : (a, b) ∈ R)
    (huniq : ∀ a' ∈ s, (a', b) ∈ R → a' = a) : a ∈ R.core (R.image s) ↔ a ∈ s := by
  constructor
  · intro h
    obtain ⟨a', ha', hb⟩ := h hab
    rwa [huniq a' ha' hb] at ha'
  · intro ha
    exact SetRel.image_core_gc.le_u_l s ha

/-- **A flag with a bit of its own among `F` lies inside the OR of the masks of `F` iff it is in `F`** -/
theorem land_join_eq_self_iff_of_unique [DecidableEq α] {a : α} {F : Finset α} {b : ℕ} (hab : (t a).testBit b = true)
    (huniq : ∀ a' ∈ F, (t a').testBit b = true → a' = a) : t a &&& join t F = t a ↔ a ∈ F := by
  rw [← mem_core_bits, bits_join]
  exact mem_core_image_of_unique (mem_sets.2 hab) fun a' ha' hb => huniq a' ha' (mem_sets.1 hb)

/-! ## Collecting flags -/

/-- the flags a left fold inserts, for each entry `e` that passes `p`, into `s` -/
theorem mem_foldl_insert [DecidableEq α] {β : Type*} (p : β → Prop) [DecidablePred p] (g : β → α) (l : List β)
    (s : Finset α) (a : α) :
    a ∈ l.foldl (fun acc e => if p e then insert (g e) acc else acc) s ↔ a ∈ s ∨ ∃ e ∈ l, p e ∧ g e = a := by
  induction l generalizing s with
  | nil => simp
  | cons e l ih =>
    rw [List.foldl_cons, ih]
    by_cases he : p e
    · simp only [he, if_true, Finset.mem_insert, List.mem_cons, exists_eq_or_imp, true_and, @eq_comm _ (g e) a]
      tauto
    · simp [he]

end OneHelpers.BitTable
