/-
The simulated filesystem of `NullDeviceHelper` (`src/nullDeviceHelper.cc`): its entry counts and the distance that
`getattr` turns into an inode number.

A specification `[(d_0, f_0), ..., (d_{k-1}, f_{k-1})]` makes every directory of level `l` hold `d_l` directories,
named `0 .. d_l - 1`, and `f_l` files, named `d_l .. d_l + f_l - 1`. `simulatedFilesystemLevelEntryCount(l)` is the
number of directories above level `l` times `d_l + f_l`, in `size_t`. `simulatedFilesystemFileDist(path)` adds the
counts of the levels above the entry, then `(d_l + f_l) * (product of the parent indices - 1)` and the leaf index:
the product is an `std::accumulate` from the `int` 1, so each step is narrowed to `int`, and a parent index 0 makes
it 0, whose `- 1` wraps in `size_t`. `getattr` sets `st_ino` to that distance plus 2.

The numbering `nullDeviceHelper.h` documents is `linearIndex`: level by level, and within a level by the rank of the
parent directory, the parent indices read in mixed radix. Paths are given as the numbers `std::stol` reads from
their tokens.

Results: `linearIndex_first` (the first entry of the second level comes after the whole first level) and
`fileDist_collides` (for every specification whose second level is not larger than its first, the first entry of
the second level gets the number of an entry of the first, so two entries share an inode).
-/
import Mathlib.Tactic
import OneHelpers.Storage.Readdir

namespace OneHelpers.NullDevice

open Readdir (toInt)

/-! ## The source's computation -/

/-- `simulatedFilesystemLevelEntryCount(level)`: the directories of the levels above times the entries of one
directory of the level, in `size_t`; a level past the last is read as the last -/
def simulatedFilesystemLevelEntryCount (params : List (ℕ × ℕ)) (level : ℕ) : ℕ :=
  let level := if level ≥ params.length then params.length - 1 else level
  let directoryProduct := ((params.take level).map Prod.fst).foldl (fun p d => p * d % 2 ^ 64) 1
  match params[level]? with
  | some (d, f) => directoryProduct * (d + f) % 2 ^ 64
  | none => 0

/-- `simulatedFilesystemEntryCount`: the entries of all levels, in `size_t` -/
def simulatedFilesystemEntryCount (params : List (ℕ × ℕ)) : ℕ :=
  ((List.range params.length).map (simulatedFilesystemLevelEntryCount params)).foldl (fun n c => (n + c) % 2 ^ 64) 0

/-- `std::accumulate(parentPath.begin(), parentPath.end(), 1, std::multiplies<>())`: the accumulator has the type
of the `int` 1, so each product is taken in `size_t` and narrowed back to `int` -/
def parentProduct (parentPath : List ℕ) : ℤ :=
  parentPath.foldl (fun acc x => toInt ((acc % 2 ^ 64).toNat * x % 2 ^ 64)) 1

/-- `simulatedFilesystemFileDist` of the entry at `path`; a path deeper than the specification reads past the
parameters, which the model answers with 0 -/
def simulatedFilesystemFileDist (params : List (ℕ × ℕ)) (path : List ℕ) : ℕ :=
  match path.getLast? with
  | none => 0
  | some leaf =>
    let level := path.length - 1
    let distance :=
      ((List.range level).map (simulatedFilesystemLevelEntryCount params)).foldl (fun n c => (n + c) % 2 ^ 64) 0
    let pathDirProduct := (parentProduct path.dropLast % 2 ^ 64).toNat
    match params[level]? with
    | some (levelDirs, levelFiles) =>
      ((distance + (levelDirs + levelFiles) * ((pathDirProduct + 2 ^ 64 - 1) % 2 ^ 64) + leaf + 1) % 2 ^ 64 +
        2 ^ 64 - 1) % 2 ^ 64
    | none => 0

/-- the `st_ino` that `getattr` gives the entry at `path` -/
def getattrIno (params : List (ℕ × ℕ)) (path : List ℕ) : ℕ := (simulatedFilesystemFileDist params path + 2) % 2 ^ 64

/-- a path of the simulated filesystem: every index but the last names a directory of its level, and the last an
entry of its level -/
def validPath : List (ℕ × ℕ) → List ℕ → Bool
  | (d, f) :: _, [p] => p < d + f
  | (d, _) :: params, p :: path => p < d && validPath params path
  | _, _ => false

/-! ## The documented numbering -/

/-- the entries of `level`: the directories of the levels above times the entries of one directory -/
def levelEntries (params : List (ℕ × ℕ)) (level : ℕ) : ℕ :=
  ((params.take level).map Prod.fst).prod * ((params[level]?.map fun p => p.1 + p.2).getD 0)

/-- the rank of a directory among the directories of its level: the indices on the path to it in mixed radix -/
def directoryRank (params : List (ℕ × ℕ)) (parents : List ℕ) : ℕ :=
  (parents.zip (params.map Prod.fst)).foldl (fun r pd => r * pd.2 + pd.1) 0

/-- the number `nullDeviceHelper.h` gives the entry at `path`, from 0: the levels above, then the directories of
the level before its parent, then its index in the parent -/
def linearIndex (params : List (ℕ × ℕ)) (path : List ℕ) : ℕ :=
  match path.getLast? with
  | none => 0
  | some leaf =>
    ((List.range (path.length - 1)).map (levelEntries params)).sum +
      directoryRank params path.dropLast * ((params[path.length - 1]?.map fun p => p.1 + p.2).getD 0) + leaf

/-- the tree drawn in `nullDeviceHelper.h`, numbered as drawn -/
example : [[0], [3], [0, 0], [0, 3], [1, 0], [1, 3], [0, 0, 0], [0, 1, 0], [1, 0, 0], [1, 1, 0]].map
    (linearIndex [(2, 2), (2, 2), (0, 1)]) = [0, 3, 4, 7, 8, 11, 12, 13, 14, 15] := by decide

/-- the first entry of the second level comes after the `d_0 + f_0` entries of the first -/
theorem linearIndex_first (d₀ f₀ d₁ f₁ : ℕ) (rest : List (ℕ × ℕ)) :
    linearIndex ((d₀, f₀) :: (d₁, f₁) :: rest) [0, 0] = d₀ + f₀ := by
  simp [linearIndex, levelEntries, directoryRank]

/-! ## The two numberings apart -/

/-- an entry of the first level is numbered by its index -/
theorem fileDist_top (d₀ f₀ : ℕ) (rest : List (ℕ × ℕ)) {y : ℕ} (hy : y < 2 ^ 64) :
    simulatedFilesystemFileDist ((d₀, f₀) :: rest) [y] = y := by
  -- no level above it, and the empty product is 1, so only the leaf counts
  have hprod : (parentProduct [] % 2 ^ 64).toNat = 1 := by decide
  simp only [simulatedFilesystemFileDist, List.getLast?_singleton, List.length_singleton, Nat.sub_self,
    List.range_zero, List.map_nil, List.foldl_nil, List.dropLast_singleton, hprod, List.getElem?_cons_zero]
  omega

/-- the first entry under directory 0 of the first level: the parent product is 0, and its `- 1` wraps, so the
distance falls back by the size of a directory of the second level -/
theorem fileDist_under_zero (d₀ f₀ d₁ f₁ : ℕ) (rest : List (ℕ × ℕ)) (hfit : d₀ + f₀ < 2 ^ 64) :
    simulatedFilesystemFileDist ((d₀, f₀) :: (d₁, f₁) :: rest) [0, 0] =
      (d₀ + f₀ + (d₁ + f₁) * (2 ^ 64 - 1)) % 2 ^ 64 := by
  have hprod : (parentProduct [0] % 2 ^ 64).toNat = 0 := by decide
  have hcount : simulatedFilesystemLevelEntryCount ((d₀, f₀) :: (d₁, f₁) :: rest) 0 = d₀ + f₀ := by
    simp only [simulatedFilesystemLevelEntryCount, List.length_cons, ge_iff_le, Nat.le_zero, Nat.add_eq_zero_iff,
      List.length_eq_zero_iff, reduceCtorEq, and_false, if_false, List.take_zero, List.map_nil, List.foldl_nil,
      List.getElem?_cons_zero, Nat.one_mul]
    exact Nat.mod_eq_of_lt hfit
  simp only [simulatedFilesystemFileDist, List.getLast?_cons_cons, List.getLast?_singleton, List.dropLast_cons_cons,
    List.dropLast_singleton, hprod, List.length_cons, List.length_nil, Nat.add_sub_cancel, List.getElem?_cons_succ,
    List.getElem?_cons_zero, Nat.zero_add, List.range_one, List.map_singleton, List.foldl_cons, List.foldl_nil, hcount]
  omega

/-- **Two entries share an inode.** For every specification of two levels or more whose first level has a
directory and whose second level has entries but no more than the first, the entry `0/0` gets the distance of the
entry `d_0 + f_0 - (d_1 + f_1)` of the first level: two distinct valid paths, the same `st_ino`, and for `0/0` a
number other than the documented one. -/
theorem fileDist_collides (params : List (ℕ × ℕ)) (h2 : 2 ≤ params.length) (hdir : 0 < params[0].1)
    (hsub : 0 < params[1].1 + params[1].2) (hle : params[1].1 + params[1].2 ≤ params[0].1 + params[0].2)
    (hfit : params[0].1 + params[0].2 < 2 ^ 64) :
    validPath params [0, 0] = true ∧
      validPath params [params[0].1 + params[0].2 - (params[1].1 + params[1].2)] = true ∧
      getattrIno params [0, 0] = getattrIno params [params[0].1 + params[0].2 - (params[1].1 + params[1].2)] ∧
      simulatedFilesystemFileDist params [0, 0] ≠ linearIndex params [0, 0] := by
  obtain ⟨⟨d₀, f₀⟩, ⟨d₁, f₁⟩, rest, rfl⟩ : ∃ p₀ p₁ rest, params = p₀ :: p₁ :: rest := by
    match params, h2 with
    | p₀ :: p₁ :: rest, _ => exact ⟨p₀, p₁, rest, rfl⟩
  simp only [List.getElem_cons_zero, List.getElem_cons_succ] at hdir hsub hle hfit ⊢
  -- the wrapped distance of `0/0` is the index of an entry of the first level
  have hdist : simulatedFilesystemFileDist ((d₀, f₀) :: (d₁, f₁) :: rest) [0, 0] = d₀ + f₀ - (d₁ + f₁) := by
    rw [fileDist_under_zero d₀ f₀ d₁ f₁ rest hfit]
    omega
  have htop := fileDist_top d₀ f₀ ((d₁, f₁) :: rest) (y := d₀ + f₀ - (d₁ + f₁)) (by omega)
  refine ⟨?_, ?_, ?_, ?_⟩
  · simp [validPath, hdir, hsub]
  · simp only [validPath, decide_eq_true_eq]
    omega
  · rw [getattrIno, getattrIno, hdist, htop]
  · rw [hdist, linearIndex_first]
    omega

/-- the tree drawn in `nullDeviceHelper.h`: `0/0` and `0` both get distance 0 -/
theorem fileDist_collides_drawn :
    (2 ≤ [(2, 2), (2, 2), (0, 1)].length ∧ 0 < ([(2, 2), (2, 2), (0, 1)][0]).1 ∧
        0 < ([(2, 2), (2, 2), (0, 1)][1]).1 + ([(2, 2), (2, 2), (0, 1)][1]).2 ∧
        ([(2, 2), (2, 2), (0, 1)][1]).1 + ([(2, 2), (2, 2), (0, 1)][1]).2 ≤
          ([(2, 2), (2, 2), (0, 1)][0]).1 + ([(2, 2), (2, 2), (0, 1)][0]).2 ∧
        ([(2, 2), (2, 2), (0, 1)][0]).1 + ([(2, 2), (2, 2), (0, 1)][0]).2 < 2 ^ 64) ∧
      getattrIno [(2, 2), (2, 2), (0, 1)] [0, 0] = getattrIno [(2, 2), (2, 2), (0, 1)] [0] := by
  have h := fileDist_collides [(2, 2), (2, 2), (0, 1)] (by decide) (by decide) (by decide) (by decide) (by decide)
  exact ⟨⟨by decide, by decide, by decide, by decide, by decide⟩, h.2.2.1⟩

end OneHelpers.NullDevice
