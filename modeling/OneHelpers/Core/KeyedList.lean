/-
Lists of records with distinct keys, the way a table of requests in progress is kept: the record of a key is updated
in place by a map, or removed by a filter. Up to order, an update trades the old record for the new one, and a
removal takes out exactly the one record of the key; so whatever is collected from the records (by `map` or
`flatMap`) changes by those records alone.

Results: `map_update_perm` and `filter_key_perm` (the two operations, up to order), `map_update_eq` and
`filterMap_update_eq` (an update that keeps what is collected), `flatMap_filter_of_nil` (a filter that only drops
records contributing nothing), `nodup_of_subperm`.
-/
import Mathlib.Tactic

namespace OneHelpers.KeyedList

open scoped List

variable {α κ : Type*} [DecidableEq κ] (key : α → κ)

omit [DecidableEq κ] in
/-- no record of a list whose keys are distinct shares its key with the head -/
theorem key_ne_of_mem {a : α} {l : List α} (ha : key a ∉ l.map key) {b : α} (hb : b ∈ l) : key b ≠ key a :=
  fun h => ha (h ▸ List.mem_map_of_mem hb)

/-- **Update in place.** When the keys are distinct and `x` is the record of key `k`, updating the records of key
`k` by `g` trades `x` for `g x` -/
theorem map_update_perm {l : List α} (hnd : (l.map key).Nodup) {x : α} (hx : x ∈ l) {k : κ} (hk : key x = k)
    (g : α → α) : (l.map fun a => if key a = k then g a else a) ++ [x] ~ l ++ [g x] := by
  induction l with
  | nil => cases hx
  | cons a l ih =>
    rw [List.map_cons, List.nodup_cons] at hnd
    obtain ⟨ha, hnd⟩ := hnd
    rcases List.mem_cons.mp hx with rfl | hx
    · -- the head is the record of `k`, so the update leaves the tail alone
      have htail : (l.map fun a => if key a = k then g a else a) = l := by
        refine (List.map_congr_left fun b hb => if_neg ?_).trans (List.map_id l)
        rw [← hk]
        exact key_ne_of_mem key ha hb
      simp only [List.map_cons, if_pos hk, htail, List.cons_append]
      calc g x :: (l ++ [x]) ~ x :: g x :: l := List.perm_append_singleton x (g x :: l)
        _ ~ x :: (l ++ [g x]) := ((List.perm_append_singleton (g x) l).symm).cons x
    · have hak : key a ≠ k := fun h => key_ne_of_mem key ha hx (hk.trans h.symm)
      simp only [List.map_cons, if_neg hak, List.cons_append]
      exact (ih hnd hx).cons a

/-- an update that keeps what `f` reads of a record keeps what `f` collects -/
theorem map_update_eq {β : Type*} (f : α → β) {k : κ} {g : α → α} (hg : ∀ a, f (g a) = f a) (l : List α) :
    (l.map fun a => if key a = k then g a else a).map f = l.map f := by
  rw [List.map_map]
  refine List.map_congr_left fun a _ => ?_
  by_cases h : key a = k <;> simp [h, hg]

/-- the same for what is collected by a partial `f` -/
theorem filterMap_update_eq {β : Type*} (f : α → Option β) {k : κ} {g : α → α} (hg : ∀ a, f (g a) = f a)
    (l : List α) : (l.map fun a => if key a = k then g a else a).filterMap f = l.filterMap f := by
  rw [List.filterMap_map]
  refine List.filterMap_congr fun a _ => ?_
  by_cases h : key a = k <;> simp [h, hg]

/-- **Removal.** When the keys are distinct and `x` is the record of key `k`, filtering out key `k` removes `x` and
nothing else -/
theorem filter_key_perm {l : List α} (hnd : (l.map key).Nodup) {x : α} (hx : x ∈ l) {k : κ} (hk : key x = k) :
    l.filter (fun a => key a ≠ k) ++ [x] ~ l := by
  induction l with
  | nil => cases hx
  | cons a l ih =>
    rw [List.map_cons, List.nodup_cons] at hnd
    obtain ⟨ha, hnd⟩ := hnd
    rcases List.mem_cons.mp hx with rfl | hx
    · -- the head is the record of `k`; every other record is kept
      have htail : l.filter (fun a => key a ≠ k) = l :=
        List.filter_eq_self.mpr fun b hb => decide_eq_true (hk ▸ key_ne_of_mem key ha hb)
      rw [List.filter_cons_of_neg (by simpa using hk), htail]
      exact List.perm_append_singleton x l
    · have hak : key a ≠ k := fun h => key_ne_of_mem key ha hx (hk.trans h.symm)
      rw [List.filter_cons_of_pos (by simpa using hak), List.cons_append]
      exact (ih hnd hx).cons a

/-- filtering out records that contribute nothing leaves what is collected from them -/
theorem flatMap_filter_of_nil {β : Type*} (p : α → Bool) (f : α → List β) (h : ∀ a, p a = false → f a = [])
    (l : List α) : (l.filter p).flatMap f = l.flatMap f := by
  induction l with
  | nil => rfl
  | cons a l ih =>
    by_cases hp : p a = true
    · simp [List.filter_cons_of_pos hp, ih]
    · simp [List.filter_cons_of_neg hp, ih, h a (by simpa using hp)]

/-- a list that fits in a list without duplicates has none -/
theorem nodup_of_subperm {l₁ l₂ : List α} (h : l₁.Subperm l₂) (h₂ : l₂.Nodup) : l₁.Nodup := by
  obtain ⟨l, hperm, hsub⟩ := h
  exact hperm.nodup_iff.mp (h₂.sublist hsub)

end OneHelpers.KeyedList
