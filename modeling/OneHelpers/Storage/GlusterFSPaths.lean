/-
`boost::filesystem::makeRelative` (`src/glusterfsHelper.cc`), with which `GlusterFSHelper::relative` reads a file id
below the helper's mount point.

`makeRelative(parent, child)` takes the relative paths of both, and when the parent's is empty returns the child's as
it is. Otherwise it skips the elements the two share from the start, and builds the result from the child's remaining
elements: `..` drops the last element built (nothing, when there is none), `.` is skipped, and any other element is
appended. The result is built from the empty path by `/=` and `parent_path()`, so it is kept as its list of elements,
and `Path.render` gives its text.

Results:
- `makeRelative_spec`: a child whose relative path is the parent's names followed by more names gives those names
  back; below a parent with a nonempty relative path every result is a list of names, with no `.`, `..` or empty
  element, so it stays below the mount point; below `/` (or the empty path) the child comes back as it is, `..`
  included;
- `relative_below_mountPoint`: a file id under an absolute mount point is read as the names below it.
-/
import Mathlib.Tactic
import OneHelpers.Core.Path

namespace OneHelpers.GlusterFS

open OneHelpers.Path (relativePath elements IsName)

/-- the first loop: skip the elements the parent and the child share, and give the child's remaining ones -/
def dropCommon : List (List Char) → List (List Char) → List (List Char)
  | p :: ps, c :: cs => if p = c then dropCommon ps cs else c :: cs
  | _, cs => cs

/-- one round of the second loop on the elements built so far: `ret.parent_path()`, nothing, or `ret /= element` -/
def appendElement (ret : List (List Char)) (element : List Char) : List (List Char) :=
  if element = ['.', '.'] then ret.dropLast else if element = ['.'] then ret else ret ++ [element]

/-- `boost::filesystem::makeRelative` -/
def makeRelative (parent child : List Char) : List Char :=
  let parent := relativePath parent
  let child := relativePath child
  if parent = [] then child
  else Path.render ((dropCommon (elements parent) (elements child)).foldl appendElement [])

/-- `GlusterFSHelper::relative` -/
def GlusterFSHelper.relative (mountPoint fileId : List Char) : List Char := makeRelative mountPoint fileId

/-! ## The two loops -/

theorem dropCommon_append (P R : List (List Char)) : dropCommon P (P ++ R) = R := by
  induction P with
  | nil => cases R <;> rfl
  | cons p P ih => simp [dropCommon, ih]

/-- what the first loop leaves are elements of the child -/
theorem mem_of_mem_dropCommon {P C : List (List Char)} {e : List Char} (he : e ∈ dropCommon P C) : e ∈ C := by
  induction P generalizing C with
  | nil => exact he
  | cons p P ih =>
    cases C with
    | nil => exact he
    | cons c C =>
      unfold dropCommon at he
      split_ifs at he
      · exact List.mem_cons_of_mem c (ih he)
      · exact he

/-- names are appended as they are -/
theorem foldl_appendElement_of_names (ret R : List (List Char)) (h : ∀ n ∈ R, IsName n) :
    R.foldl appendElement ret = ret ++ R := by
  induction R generalizing ret with
  | nil => simp
  | cons e R ih =>
    obtain ⟨-, -, hdot, hdotdot⟩ := h e List.mem_cons_self
    rw [List.foldl_cons, appendElement, if_neg hdotdot, if_neg hdot,
      ih _ fun n hn => h n (List.mem_cons_of_mem e hn), List.append_assoc, List.singleton_append]

/-- the second loop keeps a list of names: it appends no `.` or `..`, and drops only names built before -/
theorem foldl_appendElement_names (L : List (List Char)) (hL : ∀ e ∈ L, (e ≠ [] ∧ '/' ∉ e) ∨ e = ['.']) :
    ∀ ret : List (List Char), (∀ n ∈ ret, IsName n) → ∀ n ∈ L.foldl appendElement ret, IsName n := by
  -- induction on the elements left, the names built so far carrying the invariant
  induction L with
  | nil => exact fun ret hret => hret
  | cons e L ih =>
    intro ret hret
    apply ih (fun e' he' => hL e' (List.mem_cons_of_mem e he'))
    intro n hn
    unfold appendElement at hn
    split_ifs at hn with hdotdot hdot
    · exact hret n (List.dropLast_subset ret hn)
    · exact hret n hn
    · rcases List.mem_append.1 hn with hn | hn
      · exact hret n hn
      · obtain rfl := List.mem_singleton.1 hn
        rcases hL n List.mem_cons_self with ⟨hne, hsep⟩ | hdot'
        · exact ⟨hne, hsep, hdot, hdotdot⟩
        · exact absurd hdot' hdot

/-! ## What it returns -/

theorem makeRelative_of_ne_nil {parent child : List Char} (hparent : relativePath parent ≠ []) :
    makeRelative parent child =
      Path.render ((dropCommon (elements (relativePath parent)) (elements (relativePath child))).foldl
        appendElement []) := by
  simp only [makeRelative, if_neg hparent]

theorem makeRelative_of_nil {parent child : List Char} (hparent : relativePath parent = []) :
    makeRelative parent child = relativePath child := by
  simp only [makeRelative, if_pos hparent]

/-- a child made of the parent's names and then more names: the shared names are skipped and the others appended -/
theorem makeRelative_of_names {parent child : List Char} {P R : List (List Char)} (hP : P ≠ [])
    (hnames : ∀ n ∈ P ++ R, IsName n) (hparent : relativePath parent = Path.render P)
    (hchild : relativePath child = Path.render (P ++ R)) : makeRelative parent child = Path.render R := by
  have hplain : ∀ n ∈ P ++ R, n ≠ [] ∧ '/' ∉ n := fun n hn => (hnames n hn).plain
  have hPplain : ∀ n ∈ P, n ≠ [] ∧ '/' ∉ n := fun n hn => hplain n (List.mem_append_left R hn)
  obtain ⟨p, P', rfl⟩ := List.exists_cons_of_ne_nil hP
  have hne : relativePath parent ≠ [] := by
    rw [hparent]
    exact Path.render_ne_nil P' (hPplain p List.mem_cons_self).1
  rw [makeRelative_of_ne_nil hne, hparent, hchild, Path.elements_render hPplain, Path.elements_render hplain,
    dropCommon_append, foldl_appendElement_of_names [] R fun n hn => hnames n (List.mem_append_right _ hn),
    List.nil_append]

/-- below a parent with a nonempty relative path the loops build names from the child's elements -/
theorem exists_names_makeRelative {parent : List Char} (child : List Char) (hparent : relativePath parent ≠ []) :
    ∃ L, (∀ n ∈ L, IsName n) ∧ makeRelative parent child = Path.render L :=
  ⟨_, foldl_appendElement_names _ (fun e he => Path.mem_elements (mem_of_mem_dropCommon he)) [] (by simp),
    makeRelative_of_ne_nil hparent⟩

/-- **Relative paths below the mount point.** A child made of the parent's names and then more names gives those
names back; below a parent with a nonempty relative path the result is a list of names, so it never leaves the
parent; below `/` the child is returned as it is, `..` included. -/
theorem makeRelative_spec :
    (∀ (parent child : List Char) (P R : List (List Char)), P ≠ [] → (∀ n ∈ P ++ R, IsName n) →
        relativePath parent = Path.render P → relativePath child = Path.render (P ++ R) →
        makeRelative parent child = Path.render R) ∧
      (∀ parent child : List Char, relativePath parent ≠ [] →
        ∃ L, (∀ n ∈ L, IsName n) ∧ makeRelative parent child = Path.render L) ∧
      (∀ child, makeRelative ['/'] child = relativePath child) ∧
      makeRelative ['/'] "/../etc".toList = "../etc".toList := by
  have hroot : relativePath ['/'] = [] := rfl
  exact ⟨fun _ _ _ _ hP hnames hparent hchild => makeRelative_of_names hP hnames hparent hchild,
    fun _ child hparent => exists_names_makeRelative child hparent,
    fun _ => makeRelative_of_nil hroot, makeRelative_of_nil hroot⟩

/-- an absolute file id below an absolute mount point is read as the names under it -/
theorem relative_below_mountPoint {P R : List (List Char)} (hP : P ≠ []) (hnames : ∀ n ∈ P ++ R, IsName n) :
    GlusterFSHelper.relative ('/' :: Path.render P) ('/' :: Path.render (P ++ R)) = Path.render R := by
  exact makeRelative_of_names hP hnames
    (Path.relativePath_slash_render fun n hn => (hnames n (List.mem_append_left R hn)).plain)
    (Path.relativePath_slash_render fun n hn => (hnames n hn).plain)

example : makeRelative "/DIR1/DIR2".toList "DIR1/DIR2/../../../DIR3/../../../file1.txt".toList = "file1.txt".toList := by
  decide

end OneHelpers.GlusterFS
