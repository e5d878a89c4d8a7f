/-
Paths as `boost::filesystem::path` (version 3) reads them on POSIX. A path is its text. It may start with a root name,
`//net`: exactly two separators and a name up to the next separator; then a root directory, the separators that
follow. The rest is its relative path, whose elements are the names between separators, repeated separators counting
as one, and `.` for a trailing separator. A path built from the empty one by appending names (`/=`) is those names
joined by separators, its elements are the names, and its parent path drops the last of them. The text is read as
characters where the path holds bytes; the separator is ASCII, so the elements of the bytes are the bytes of the
elements (`Utf8.splitOn_encode`).

Results:
- `elements_render`: the text of a list of names has those names as its elements;
- `relativePath_render`, `relativePath_slash_render`: such a text, with or without a root directory in front, is its
  own relative path;
- `mem_elements`: an element is a name without a separator, or `.`.
-/
import Mathlib.Tactic
import OneHelpers.Core.Text

namespace OneHelpers.Path

/-- the length of the root name: `//net` when the text starts with exactly two separators and a name -/
def rootNameLength : List Char → ℕ
  | '/' :: '/' :: c :: rest => if c = '/' then 0 else 3 + (rest.takeWhile (· ≠ '/')).length
  | _ => 0

/-- `relative_path()`: the text after the root name and the root directory -/
def relativePath (p : List Char) : List Char := (p.drop (rootNameLength p)).dropWhile (· = '/')

/-- the elements the iterator of a path without a root gives -/
def elements (r : List Char) : List (List Char) :=
  (r.splitOn '/').filter (· ≠ []) ++ if r.getLast? = some '/' then [['.']] else []

/-- the text of the path that `/=` builds from the empty path and the names `names` -/
def render (names : List (List Char)) : List Char := ['/'].intercalate names

/-- an element that is a name: not empty, without a separator, and neither `.` nor `..` -/
def IsName (n : List Char) : Prop := n ≠ [] ∧ '/' ∉ n ∧ n ≠ ['.'] ∧ n ≠ ['.', '.']

instance : DecidablePred IsName := fun _ => inferInstanceAs (Decidable (_ ∧ _))

theorem IsName.plain {n : List Char} (h : IsName n) : n ≠ [] ∧ '/' ∉ n := ⟨h.1, h.2.1⟩

variable {names : List (List Char)}

theorem render_cons_cons (n m : List Char) (rest : List (List Char)) :
    render (n :: m :: rest) = n ++ '/' :: render (m :: rest) := by
  simp [render, List.intercalate_cons_cons]

theorem render_ne_nil {n : List Char} (rest : List (List Char)) (hn : n ≠ []) : render (n :: rest) ≠ [] := by
  cases rest with
  | nil => simpa [render] using hn
  | cons m rest => simp [render_cons_cons, hn]

/-- the text of nonempty names without a separator does not start with one -/
theorem head?_render (h : ∀ n ∈ names, n ≠ [] ∧ '/' ∉ n) : (render names).head? ≠ some '/' := by
  cases names with
  | nil => simp [render]
  | cons n rest =>
    obtain ⟨hne, hsep⟩ := h n List.mem_cons_self
    obtain ⟨c, cs, rfl⟩ := List.exists_cons_of_ne_nil hne
    have hc : c ≠ '/' := fun hc => hsep (hc ▸ List.mem_cons_self)
    cases rest with
    | nil => simpa [render] using hc
    | cons m rest => simpa [render_cons_cons] using hc

/-- nor does it end with one -/
theorem getLast?_render (h : ∀ n ∈ names, n ≠ [] ∧ '/' ∉ n) : (render names).getLast? ≠ some '/' := by
  -- induction on the names: the text ends with the last one
  induction names with
  | nil => simp [render]
  | cons n rest ih =>
    cases rest with
    | nil =>
      obtain ⟨hne, hsep⟩ := h n List.mem_cons_self
      intro hlast
      exact hsep (List.mem_of_getLast? (by simpa [render] using hlast))
    | cons m rest =>
      rw [render_cons_cons, List.getLast?_append_of_ne_nil _ (List.cons_ne_nil _ _), List.getLast?_cons]
      have hrest := ih fun n' hn' => h n' (List.mem_cons_of_mem n hn')
      cases hl : (render (m :: rest)).getLast? with
      | none =>
        have hne := render_ne_nil rest (h m (List.mem_cons_of_mem n List.mem_cons_self)).1
        exact absurd (List.getLast?_eq_none_iff.1 hl) hne
      | some c => simpa [hl] using hrest

/-- **Names read back.** The text of a list of names has them as its elements -/
theorem elements_render (h : ∀ n ∈ names, n ≠ [] ∧ '/' ∉ n) : elements (render names) = names := by
  rw [elements, if_neg (getLast?_render h), List.append_nil]
  cases names with
  | nil => rfl
  | cons n rest =>
    rw [render, List.splitOn_intercalate '/' (fun l hl => (h l hl).2) (List.cons_ne_nil _ _)]
    exact List.filter_eq_self.2 fun l hl => by simpa using (h l hl).1

theorem rootNameLength_of_head? {p : List Char} (h : p.head? ≠ some '/') : rootNameLength p = 0 := by
  match p, h with
  | [], _ => rfl
  | c :: _, h =>
    have hc : c ≠ '/' := fun hc => h (by rw [hc]; rfl)
    unfold rootNameLength
    split <;> simp_all

/-- the text of names is empty or starts with a character that is no separator -/
theorem render_eq_nil_or_cons (h : ∀ n ∈ names, n ≠ [] ∧ '/' ∉ n) :
    render names = [] ∨ ∃ c cs, render names = c :: cs ∧ c ≠ '/' := by
  have hhead := head?_render h
  cases hr : render names with
  | nil => exact .inl rfl
  | cons c cs =>
    rw [hr] at hhead
    exact .inr ⟨c, cs, rfl, fun hc => hhead (by rw [hc]; rfl)⟩

theorem dropWhile_render (h : ∀ n ∈ names, n ≠ [] ∧ '/' ∉ n) : (render names).dropWhile (· = '/') = render names := by
  rcases render_eq_nil_or_cons h with hr | ⟨c, cs, hr, hc⟩ <;> simp [*]

theorem relativePath_render (h : ∀ n ∈ names, n ≠ [] ∧ '/' ∉ n) : relativePath (render names) = render names := by
  rw [relativePath, rootNameLength_of_head? (head?_render h), List.drop_zero, dropWhile_render h]

/-- a root directory in front of the text of names: the relative path is that text -/
theorem relativePath_slash_render (h : ∀ n ∈ names, n ≠ [] ∧ '/' ∉ n) :
    relativePath ('/' :: render names) = render names := by
  have hroot : rootNameLength ('/' :: render names) = 0 := by
    rcases render_eq_nil_or_cons h with hr | ⟨c, cs, hr, hc⟩ <;> simp [rootNameLength, *]
  rw [relativePath, hroot, List.drop_zero, List.dropWhile_cons_of_pos (by simp), dropWhile_render h]

/-- an element is a nonempty piece without a separator, or the `.` of a trailing separator -/
theorem mem_elements {r e : List Char} (he : e ∈ elements r) : (e ≠ [] ∧ '/' ∉ e) ∨ e = ['.'] := by
  rw [elements, List.mem_append] at he
  rcases he with he | he
  · obtain ⟨hpiece, hne⟩ := List.mem_filter.1 he
    exact .inl ⟨by simpa using hne, Text.not_mem_of_mem_splitOn hpiece⟩
  · split_ifs at he
    · exact .inr (List.mem_singleton.1 he)
    · cases he

end OneHelpers.Path
