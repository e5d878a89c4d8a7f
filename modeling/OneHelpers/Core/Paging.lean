/-
Paging through a listing: a caller asks for pages of at most `count` entries, each call starting at the offset where
the last page ended, until a page comes back empty. When every answer is the page of one list at its offset, the
caller gets that list back, each entry once, and stops; when the answers do not depend on the offset and are not
empty, it never stops.

Results: `pageAll_of_page` (enough calls return the list from the first offset on) and `pageAll_of_const` (an
answer that ignores the offset keeps the caller paging for ever).
-/
import Mathlib.Tactic

namespace OneHelpers.Paging

variable {α : Type*}

/-- the entries of `L` from `offset` on, at most `count` of them -/
def page (L : List α) (offset count : ℕ) : List α := (L.drop offset).take count

/-- a caller that lists page by page from `offset`, each call starting where the last one ended, and stops at the
first empty page; `none` when it runs out of `fuel` calls before that -/
def pageAll (readdir : ℕ → List α) : ℕ → ℕ → Option (List α)
  | 0, _ => none
  | fuel + 1, offset =>
    match readdir offset with
    | [] => some []
    | e :: es => (pageAll readdir fuel (offset + (e :: es).length)).map ((e :: es) ++ ·)

@[simp] theorem length_page (L : List α) (offset count : ℕ) :
    (page L offset count).length = min count (L.length - offset) := by
  simp [page]

/-- the page of a mapped list is the mapped page -/
theorem page_map {β : Type*} (f : α → β) (L : List α) (offset count : ℕ) :
    page (L.map f) offset count = (page L offset count).map f := by
  simp [page, List.map_drop, List.map_take]

theorem page_of_length_le {L : List α} {offset : ℕ} (h : L.length ≤ offset) (count : ℕ) :
    page L offset count = [] := by
  simp [page, List.drop_eq_nil_of_le h]

/-- a page and what follows it make up the list from the page's offset -/
theorem page_append_drop (L : List α) (offset count : ℕ) :
    page L offset count ++ L.drop (offset + (page L offset count).length) = L.drop offset := by
  rw [← List.drop_drop, length_page]
  -- dropping the page's length is dropping `count`, as the page is cut by one or the other
  have hdrop : (L.drop offset).drop (min count (L.length - offset)) = (L.drop offset).drop count := by
    rcases le_total count (L.length - offset) with h | h
    · rw [min_eq_left h]
    · rw [min_eq_right h, List.drop_eq_nil_of_le (by simp), List.drop_eq_nil_of_le (by simpa using h)]
  rw [hdrop]
  exact List.take_append_drop count (L.drop offset)

/-- **Paging returns the list once.** If every call at an offset up to the end answers with the page of `L` there,
the count is positive and the caller has a call for every entry left and one more, it gets the entries of `L` from
`offset` on and stops -/
theorem pageAll_of_page {readdir : ℕ → List α} {L : List α} {count : ℕ} (hcount : 0 < count)
    (h : ∀ o ≤ L.length, readdir o = page L o count) :
    ∀ fuel offset, offset ≤ L.length → L.length - offset < fuel →
      pageAll readdir fuel offset = some (L.drop offset)
  | 0, _, _, hfuel => absurd hfuel (Nat.not_lt_zero _)
  | fuel + 1, offset, hoffset, hfuel => by
    rcases hpage : page L offset count with _ | ⟨e, es⟩
    · -- an empty page: the offset is at the end
      have hend : L.length ≤ offset := by
        have := congrArg List.length hpage
        simp only [length_page, List.length_nil] at this
        omega
      simp [pageAll, h offset hoffset, hpage, List.drop_eq_nil_of_le hend]
    · -- a page of `e :: es`: the rest is listed from its end
      have hle : (e :: es).length ≤ L.length - offset := by
        rw [← hpage, length_page]
        exact min_le_right _ _
      have hpos : 0 < (e :: es).length := List.length_pos_of_ne_nil (List.cons_ne_nil e es)
      have hnext := pageAll_of_page hcount h fuel (offset + (e :: es).length) (by omega) (by omega)
      have hrest := page_append_drop L offset count
      rw [hpage] at hrest
      simp only [pageAll, h offset hoffset, hpage]
      rw [hnext, Option.map_some, hrest]

/-- **An answer that ignores the offset never ends the listing.** If every call answers with the same non-empty list,
the caller runs out of calls whatever their number -/
theorem pageAll_of_const {readdir : ℕ → List α} {entries : List α} (h : ∀ o, readdir o = entries)
    (hne : entries ≠ []) : ∀ fuel offset, pageAll readdir fuel offset = none
  | 0, _ => rfl
  | fuel + 1, offset => by
    obtain ⟨e, es, rfl⟩ := List.exists_cons_of_ne_nil hne
    simp [pageAll, h offset, pageAll_of_const h hne fuel]

end OneHelpers.Paging
