/-
Bidirectional maps as `boost::bimap<L, multiset_of<R>>` builds them from a list of pairs: the left view is a set of
keys, so a pair is inserted only when its left key is new, and the right view is a multiset ordered by key. The map is
the list of the pairs inserted, in order. The right view's `find` gives some pair with the key looked up, and which of
several is left open: `IsRightFind` says what any such `find` answers, and `findRight`, the first pair inserted, is
one of them (the one an ordered index that keeps equal keys in insertion order finds).

Results:
* `ofList_of_nodup` — a list of pairs with distinct left keys is inserted whole.
* `findLeft_findRight` — looking up the left key that `right.find` gives returns the right key looked up.
* `findRight_eq_none_iff` — `right.find` fails exactly on the right keys that no pair has.
* `findRight_findLeft_of_first` — looking up the right key of a left key gives back that left key when no pair
  inserted before it has the same right key.
* `IsRightFind.findLeft` — the same as `findLeft_findRight` for every `find` of the right view.
-/
import Mathlib.Tactic

namespace OneHelpers.Bimap

variable {α β : Type*}

/-- the pairs of a bimap built from `l`, in the order they were inserted: a pair is inserted when its left key is new -/
def ofList [DecidableEq α] (l : List (α × β)) : List (α × β) :=
  l.foldl (fun m p => if m.any fun q => decide (q.1 = p.1) then m else m ++ [p]) []

/-- `left.find(a)`: the right key of the pair with left key `a` -/
def findLeft [DecidableEq α] (m : List (α × β)) (a : α) : Option β := (m.find? fun p => decide (p.1 = a)).map Prod.snd

/-- `right.find(b)`: the left key of the first pair inserted with right key `b` -/
def findRight [DecidableEq β] (m : List (α × β)) (b : β) : Option α := (m.find? fun p => decide (p.2 = b)).map Prod.fst

theorem foldl_insert_of_nodup [DecidableEq α] (l acc : List (α × β)) (hl : (l.map Prod.fst).Nodup)
    (hacc : ∀ p ∈ l, ∀ q ∈ acc, q.1 ≠ p.1) :
    l.foldl (fun m p => if m.any fun q => decide (q.1 = p.1) then m else m ++ [p]) acc = acc ++ l := by
  induction l generalizing acc with
  | nil => simp
  | cons p l ih =>
    rw [List.map_cons, List.nodup_cons] at hl
    have hnew : (acc.any fun q => decide (q.1 = p.1)) = false := by
      rw [List.any_eq_false]
      intro q hq
      simpa using hacc p List.mem_cons_self q hq
    rw [List.foldl_cons, hnew, if_neg Bool.false_ne_true, ih (acc ++ [p]) hl.2]
    · simp
    · intro p' hp' q hq
      rw [List.mem_append, List.mem_singleton] at hq
      rcases hq with hq | rfl
      · exact hacc p' (List.mem_cons_of_mem p hp') q hq
      · intro heq
        exact hl.1 (heq ▸ List.mem_map_of_mem hp')

/-- **A list with distinct left keys is inserted whole** -/
theorem ofList_of_nodup [DecidableEq α] {l : List (α × β)} (hl : (l.map Prod.fst).Nodup) : ofList l = l := by
  rw [ofList, foldl_insert_of_nodup l [] hl (by simp), List.nil_append]

theorem findLeft_of_mem [DecidableEq α] {m : List (α × β)} (hm : (m.map Prod.fst).Nodup) {a : α} {b : β}
    (h : (a, b) ∈ m) : findLeft m a = some b := by
  induction m with
  | nil => cases h
  | cons p m ih =>
    rw [List.map_cons, List.nodup_cons] at hm
    rw [List.mem_cons] at h
    by_cases hp : p.1 = a
    · -- the first pair with key `a` is the one of `h`: the keys after it are other keys
      have hpab : p = (a, b) := by
        rcases h with rfl | h
        · rfl
        · exact absurd (hp ▸ List.mem_map_of_mem h) hm.1
      simp [findLeft, hpab]
    · have hm' : (a, b) ∈ m := by
        rcases h with rfl | h
        · exact absurd rfl hp
        · exact h
      have hfind := ih hm.2 hm'
      simpa [findLeft, hp] using hfind

theorem mem_of_findLeft [DecidableEq α] {m : List (α × β)} {a : α} {b : β} (h : findLeft m a = some b) :
    (a, b) ∈ m := by
  rw [findLeft, Option.map_eq_some_iff] at h
  obtain ⟨p, hp, rfl⟩ := h
  have ha : p.1 = a := by simpa using List.find?_some hp
  rw [← ha]
  exact List.mem_of_find?_eq_some hp

theorem mem_of_findRight [DecidableEq β] {m : List (α × β)} {a : α} {b : β} (h : findRight m b = some a) :
    (a, b) ∈ m := by
  rw [findRight, Option.map_eq_some_iff] at h
  obtain ⟨p, hp, rfl⟩ := h
  have hb : p.2 = b := by simpa using List.find?_some hp
  rw [← hb]
  exact List.mem_of_find?_eq_some hp

/-- **`right.find` then `left.find` is the identity**, on a map with distinct left keys -/
theorem findLeft_findRight [DecidableEq α] [DecidableEq β] {m : List (α × β)} (hm : (m.map Prod.fst).Nodup)
    {a : α} {b : β} (h : findRight m b = some a) : findLeft m a = some b :=
  findLeft_of_mem hm (mem_of_findRight h)

theorem findRight_eq_none_iff [DecidableEq β] {m : List (α × β)} {b : β} :
    findRight m b = none ↔ ∀ p ∈ m, p.2 ≠ b := by
  simp [findRight]

/-- a left key whose pair comes before every other pair with its right key is what `right.find` gives for it -/
theorem findRight_findLeft_of_first [DecidableEq α] [DecidableEq β] {m : List (α × β)}
    (hm : (m.map Prod.fst).Nodup) {a : α} {b : β}
    (hfirst : ∃ pre post, m = pre ++ (a, b) :: post ∧ ∀ p ∈ pre, p.2 ≠ b) :
    findLeft m a = some b ∧ findRight m b = some a := by
  obtain ⟨pre, post, rfl, hpre⟩ := hfirst
  refine ⟨findLeft_of_mem hm (by simp), ?_⟩
  have hfind : (pre ++ (a, b) :: post).find? (fun p => decide (p.2 = b)) = some (a, b) := by
    rw [List.find?_append, List.find?_eq_none.2 (by simpa using hpre)]
    simp
  rw [findRight, hfind, Option.map_some]

/-! ## Any `find` of the right view -/

/-- what a `find` of the right view answers: for a right key some pair has, the left key of one such pair, and for any
other right key nothing -/
structure IsRightFind (m : List (α × β)) (find : β → Option α) : Prop where
  mem : ∀ a b, find b = some a → (a, b) ∈ m
  eq_none_iff : ∀ b, find b = none ↔ ∀ p ∈ m, p.2 ≠ b

/-- the first pair inserted is one a `find` may give -/
theorem isRightFind_findRight [DecidableEq β] (m : List (α × β)) : IsRightFind m (findRight m) :=
  ⟨fun _ _ => mem_of_findRight, fun _ => findRight_eq_none_iff⟩

/-- a right key some pair has is found -/
theorem IsRightFind.exists_of_mem {m : List (α × β)} {find : β → Option α} (hf : IsRightFind m find) {a : α} {b : β}
    (h : (a, b) ∈ m) : ∃ a', find b = some a' ∧ (a', b) ∈ m := by
  cases hb : find b with
  | none => exact absurd rfl ((hf.eq_none_iff b).1 hb (a, b) h)
  | some a' => exact ⟨a', rfl, hf.mem a' b hb⟩

/-- **any `find` of the right view, then `left.find`, is the identity**, on a map with distinct left keys -/
theorem IsRightFind.findLeft [DecidableEq α] {m : List (α × β)} {find : β → Option α} (hf : IsRightFind m find)
    (hm : (m.map Prod.fst).Nodup) {a : α} {b : β} (h : find b = some a) : findLeft m a = some b :=
  findLeft_of_mem hm (hf.mem a b h)

end OneHelpers.Bimap
