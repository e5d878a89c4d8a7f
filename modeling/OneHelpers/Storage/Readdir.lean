/-
`readdir(fileId, offset, count)` of the helpers that list directories.

PosixHelper and GlusterFSHelper walk the entries the backend enumerates (`::readdir`, `glfs_readdir`), skip `.` and
`..`, skip `offset` entries and keep at most `count`; both narrow `offset` (`off_t`) and `count` (`size_t`) to `int`
counters first. WebDAVHelper lists the `href`s of a depth-1 `PROPFIND` other than the directory's own and ignores
`offset` and `count`. NullDeviceHelper on a simulated filesystem generates the names of the entries from `offset`
up to `offset + count` (computed in `size_t`) of the level, keeping those that have appeared by now; otherwise it
makes up `count` names from `offset` on.

Results:
- `readdirLoop_eq`: the PosixHelper and GlusterFSHelper loop returns the page of the listing at the narrowed offset
  and count, for all inputs.
- `posix_readdir_pages`: for counts and listings below `2 ^ 31`, both return the page at every offset, and a caller
  paging through the directory gets the listing once and stops.
- `NullDeviceHelper.readdir_pages`: on a level whose appeared entries are those below some `k`, every page is the
  page of their names, and a caller paging through the directory gets each name once, in order, and stops, while
  `d + f + count` fits in `size_t`.
- `readdir_pagination_bugs`: a count of `2 ^ 31` lists nothing and an offset of `2 ^ 32` lists from the start
  (PosixHelper, GlusterFSHelper); WebDAVHelper answers every page with the whole directory, so a caller paging
  through it never stops; NullDeviceHelper lists nothing when `offset + count` wraps.
-/
import Mathlib.Tactic
import OneHelpers.Core.Paging

namespace OneHelpers.Readdir

open Paging

/-! ## Conversions -/

/-- `int v_ = v` for a 64-bit `v`: `v` modulo `2 ^ 32`, read in two's complement -/
def toInt (v : ℕ) : ℤ := Int.bmod v (2 ^ 32)

theorem toInt_of_lt {v : ℕ} (h : v < 2 ^ 31) : toInt v = v := by
  unfold toInt
  rw [Int.bmod_def, Int.emod_eq_of_lt (by omega) (by omega), if_pos (by omega)]

/-- `folly::split("/", s, pieces)`: the pieces of `s` between slashes, empty ones included -/
def split (s : String) : List String := (s.toList.splitOn '/').map String.ofList

/-! ## PosixHelper and GlusterFSHelper -/

/-- `.` and `..`, which the listing skips -/
def isDotEntry (name : String) : Bool := name == "." || name == ".."

/-- the names of a directory whose backend enumerates `entries`: all but `.` and `..`, in their order -/
def listing (entries : List String) : List String := entries.filter fun name => !isDotEntry name

/-- the loop of `PosixHelper::readdir` and `GlusterFSHelper::readdir` over the entries the backend enumerates, with
the counters `offset_` and `count_` and the names returned so far -/
def readdirLoop : List String → ℤ → ℤ → List String → List String
  | [], _, _, ret => ret
  | name :: names, offset_, count_, ret =>
    if count_ > 0 then
      if !isDotEntry name then
        if offset_ > 0 then readdirLoop names (offset_ - 1) count_ ret
        else readdirLoop names offset_ (count_ - 1) (ret ++ [name])
      else readdirLoop names offset_ count_ ret
    else ret

/-- `PosixHelper::readdir` on a directory whose entries `::readdir` enumerates as `entries` -/
def PosixHelper.readdir (entries : List String) (offset count : ℕ) : List String :=
  readdirLoop entries (toInt offset) (toInt count) []

/-- `GlusterFSHelper::readdir` on a directory whose entries `glfs_readdir` enumerates as `entries` -/
def GlusterFSHelper.readdir (entries : List String) (offset count : ℕ) : List String :=
  readdirLoop entries (toInt offset) (toInt count) []

/-- **The loop returns a page.** Whatever the counters, the loop adds the page of the listing that starts after
`offset_` names and holds `count_` of them, a counter at or below 0 counting as 0 -/
theorem readdirLoop_eq (names : List String) (offset_ count_ : ℤ) (ret : List String) :
    readdirLoop names offset_ count_ ret = ret ++ page (listing names) offset_.toNat count_.toNat := by
  induction names generalizing offset_ count_ ret with
  | nil => simp [readdirLoop, listing, page]
  | cons name names ih =>
    by_cases hcount : count_ > 0
    swap
    · -- `count_` has run out
      simp [readdirLoop, hcount, page, Int.toNat_of_nonpos (by omega : count_ ≤ 0)]
    by_cases hdot : isDotEntry name = true
    · simp [readdirLoop, hcount, hdot, ih, listing]
    have hlist : listing (name :: names) = name :: listing names := by simp [listing, hdot]
    by_cases hoffset : offset_ > 0
    · -- the name is one of the `offset` skipped
      have hstep : readdirLoop (name :: names) offset_ count_ ret = readdirLoop names (offset_ - 1) count_ ret := by
        simp [readdirLoop, hcount, hdot, hoffset]
      have hdrop : offset_.toNat = (offset_ - 1).toNat + 1 := by omega
      rw [hstep, ih, hlist, hdrop]
      simp [page]
    · -- the name is listed
      have hstep : readdirLoop (name :: names) offset_ count_ ret =
          readdirLoop names offset_ (count_ - 1) (ret ++ [name]) := by
        simp [readdirLoop, hcount, hdot, hoffset]
      have htake : count_.toNat = (count_ - 1).toNat + 1 := by omega
      rw [hstep, ih, hlist, htake, Int.toNat_of_nonpos (by omega : offset_ ≤ 0)]
      simp [page]

theorem PosixHelper.readdir_eq (entries : List String) (offset count : ℕ) :
    PosixHelper.readdir entries offset count = page (listing entries) (toInt offset).toNat (toInt count).toNat := by
  rw [PosixHelper.readdir, readdirLoop_eq, List.nil_append]

theorem GlusterFSHelper.readdir_eq (entries : List String) (offset count : ℕ) :
    GlusterFSHelper.readdir entries offset count = page (listing entries) (toInt offset).toNat (toInt count).toNat := by
  rw [GlusterFSHelper.readdir, readdirLoop_eq, List.nil_append]

/-- below `2 ^ 31` the counters hold the offset and the count as they are -/
theorem page_toInt {L : List String} {offset count : ℕ} (hoffset : offset < 2 ^ 31) (hcount : count < 2 ^ 31) :
    page L (toInt offset).toNat (toInt count).toNat = page L offset count := by
  rw [toInt_of_lt hoffset, toInt_of_lt hcount, Int.toNat_natCast, Int.toNat_natCast]

/-- **PosixHelper and GlusterFSHelper page through a directory.** For a count and a listing below `2 ^ 31`, both
return the page of the listing at every offset below `2 ^ 31`, and a caller that pages through the directory with
that count gets the listing once and stops. -/
theorem posix_readdir_pages (entries : List String) {count : ℕ} (hcount : 0 < count) (hcount' : count < 2 ^ 31)
    (hlen : (listing entries).length < 2 ^ 31) :
    (∀ offset < 2 ^ 31, PosixHelper.readdir entries offset count = page (listing entries) offset count ∧
      GlusterFSHelper.readdir entries offset count = page (listing entries) offset count) ∧
    pageAll (PosixHelper.readdir entries · count) ((listing entries).length + 1) 0 = some (listing entries) ∧
    pageAll (GlusterFSHelper.readdir entries · count) ((listing entries).length + 1) 0 = some (listing entries) := by
  have hpage : ∀ offset < 2 ^ 31, PosixHelper.readdir entries offset count = page (listing entries) offset count ∧
      GlusterFSHelper.readdir entries offset count = page (listing entries) offset count := fun offset hoffset =>
    ⟨(PosixHelper.readdir_eq _ _ _).trans (page_toInt hoffset hcount'),
      (GlusterFSHelper.readdir_eq _ _ _).trans (page_toInt hoffset hcount')⟩
  refine ⟨hpage, ?_, ?_⟩
  · exact pageAll_of_page hcount (fun o ho => (hpage o (by omega)).1) _ 0 (Nat.zero_le _) (by omega)
  · exact pageAll_of_page hcount (fun o ho => (hpage o (by omega)).2) _ 0 (Nat.zero_le _) (by omega)

theorem posix_readdir_pages_two :
    (0 < 1 ∧ 1 < 2 ^ 31 ∧ (listing [".", "a", "..", "b"]).length < 2 ^ 31) ∧
      ((∀ offset < 2 ^ 31,
        PosixHelper.readdir [".", "a", "..", "b"] offset 1 = page (listing [".", "a", "..", "b"]) offset 1 ∧
          GlusterFSHelper.readdir [".", "a", "..", "b"] offset 1 = page (listing [".", "a", "..", "b"]) offset 1) ∧
      pageAll (PosixHelper.readdir [".", "a", "..", "b"] · 1) ((listing [".", "a", "..", "b"]).length + 1) 0 =
        some (listing [".", "a", "..", "b"]) ∧
      pageAll (GlusterFSHelper.readdir [".", "a", "..", "b"] · 1) ((listing [".", "a", "..", "b"]).length + 1) 0 =
        some (listing [".", "a", "..", "b"])) :=
  ⟨⟨by decide, by decide, by decide⟩,
    posix_readdir_pages [".", "a", "..", "b"] (by decide) (by decide) (by decide)⟩

/-! ## WebDAVHelper -/

/-- `WebDAVHelper::readdir` on a directory at `directoryPath` (`ensureCollectionPath(fileId)`) whose depth-1
`PROPFIND` answers with responses of these `href`s: the last piece of each `href` but the directory's own -/
def WebDAVHelper.readdir (directoryPath : String) (hrefs : List String) (_offset _count : ℕ) : List String :=
  hrefs.filterMap fun href => if directoryPath ≠ href then (split href).getLast? else none

/-- the listing does not depend on the offset or the count asked for -/
theorem WebDAVHelper.readdir_offset (directoryPath : String) (hrefs : List String) (offset count : ℕ) :
    WebDAVHelper.readdir directoryPath hrefs offset count = WebDAVHelper.readdir directoryPath hrefs 0 0 := rfl

/-! ## NullDeviceHelper -/

/-- `NullDeviceHelper::readdir`. A simulated filesystem (`simulatedFilesystemParameters` not empty, each level a pair
of directory and file counts) lists the entries from `offset` up to `offset + count` in `size_t`, or to the end of
the level, that have `appeared` by now (every one when the grow speed is 0); otherwise `count` names from `offset`
on. -/
def NullDeviceHelper.readdir (simulatedFilesystemParameters : List (ℕ × ℕ)) (appeared : ℕ → Bool)
    (fileId : String) (offset count : ℕ) : List String :=
  if simulatedFilesystemParameters ≠ [] then
    match simulatedFilesystemParameters[((split fileId).filter (· ≠ "")).length]? with
    | some (directories, files) =>
      ((List.range' offset (min ((offset + count) % 2 ^ 64) (directories + files) - offset)).filter appeared).map
        toString
    | none => []
  else (List.range count).map fun i => toString ((i + offset) % 2 ^ 64)

/-- the page of the numbers below `n` is a run of consecutive numbers -/
theorem page_range (n offset count : ℕ) :
    page (List.range n) offset count = List.range' offset (min (offset + count) n - offset) := by
  rw [page, List.range_eq_range', List.drop_range', List.take_eq_take_min, List.length_range',
    List.take_range'_of_length_ge (min_le_right _ _), zero_add, mul_one]
  congr 1
  omega

/-- the numbers below `k` of a run of consecutive numbers are the run cut at `k` -/
theorem filter_lt_range' (k start length : ℕ) :
    (List.range' start length).filter (fun i => decide (i < k)) =
      List.range' start (min (start + length) k - start) := by
  induction length generalizing start with
  | zero => simp
  | succ length ih =>
    rw [List.range'_succ, List.filter_cons, ih]
    by_cases hk : start < k
    · -- `start` is kept, and the cut run after it starts at `start + 1`
      rw [if_pos (decide_eq_true hk), show min (start + (length + 1)) k - start =
        (min (start + 1 + length) k - (start + 1)) + 1 by omega, List.range'_succ]
    · -- past `k` nothing is kept
      rw [if_neg (by simpa using hk), show min (start + 1 + length) k - (start + 1) = 0 by omega,
        show min (start + (length + 1)) k - start = 0 by omega, List.range'_zero, List.range'_zero]

/-- NullDeviceHelper lists a page of the level while `offset + count` fits in `size_t` -/
theorem NullDeviceHelper.readdir_simulated {simulatedFilesystemParameters : List (ℕ × ℕ)} {fileId : String}
    {directories files : ℕ}
    (hlevel : simulatedFilesystemParameters[((split fileId).filter (· ≠ "")).length]? = some (directories, files))
    (appeared : ℕ → Bool) {offset count : ℕ} (hfit : offset + count < 2 ^ 64) :
    NullDeviceHelper.readdir simulatedFilesystemParameters appeared fileId offset count =
      ((page (List.range (directories + files)) offset count).filter appeared).map toString := by
  have hne : simulatedFilesystemParameters ≠ [] := by
    rintro rfl
    simp at hlevel
  simp only [NullDeviceHelper.readdir, if_pos hne, hlevel, Nat.mod_eq_of_lt hfit, page_range]

section Simulated

variable {simulatedFilesystemParameters : List (ℕ × ℕ)} {fileId : String} {directories files : ℕ}
  (hlevel : simulatedFilesystemParameters[((split fileId).filter (· ≠ "")).length]? = some (directories, files))
include hlevel

/-- when the entries that have appeared are those below `k`, a page lists the names of the page of them -/
theorem NullDeviceHelper.readdir_of_prefix (k : ℕ) {offset count : ℕ} (hfit : offset + count < 2 ^ 64) :
    NullDeviceHelper.readdir simulatedFilesystemParameters (fun i => decide (i < k)) fileId offset count =
      (page (List.range (min k (directories + files))) offset count).map toString := by
  rw [NullDeviceHelper.readdir_simulated hlevel _ hfit, page_range, filter_lt_range', page_range]
  congr 2
  omega

/-- **Paging through a level of the simulated filesystem.** When the entries of the level that have appeared are
those below some `k` (all `d + f` of them when the grow speed is 0), each call lists the names of the page of them
at its offset, and a caller paging through the directory with any positive count gets each of their names once, in
order, and stops, as long as `d + f + count` fits in `size_t`. -/
theorem NullDeviceHelper.readdir_pages :
    (∀ k offset count, offset + count < 2 ^ 64 →
      NullDeviceHelper.readdir simulatedFilesystemParameters (fun i => decide (i < k)) fileId offset count =
        (page (List.range (min k (directories + files))) offset count).map toString) ∧
    ∀ k count, 0 < count → directories + files + count < 2 ^ 64 →
      pageAll (NullDeviceHelper.readdir simulatedFilesystemParameters (fun i => decide (i < k)) fileId · count)
          (min k (directories + files) + 1) 0 =
        some ((List.range (min k (directories + files))).map toString) := by
  refine ⟨fun k _ _ hfit => NullDeviceHelper.readdir_of_prefix hlevel k hfit, fun k count hcount hfit => ?_⟩
  -- every call up to the end of the appeared names answers with their page
  have hpage : ∀ o ≤ ((List.range (min k (directories + files))).map toString).length,
      NullDeviceHelper.readdir simulatedFilesystemParameters (fun i => decide (i < k)) fileId o count =
        page ((List.range (min k (directories + files))).map toString) o count := by
    intro o ho
    rw [List.length_map, List.length_range] at ho
    rw [NullDeviceHelper.readdir_of_prefix hlevel k (by omega), page_map]
  have hall := pageAll_of_page hcount hpage (min k (directories + files) + 1) 0 (Nat.zero_le _) (by simp)
  rwa [List.drop_zero] at hall

end Simulated

theorem NullDeviceHelper.readdir_pages_root :
    ([(0, 3)] : List (ℕ × ℕ))[((split "").filter (· ≠ "")).length]? = some (0, 3) ∧
      ((∀ k offset count, offset + count < 2 ^ 64 →
        NullDeviceHelper.readdir [(0, 3)] (fun i => decide (i < k)) "" offset count =
          (page (List.range (min k (0 + 3))) offset count).map toString) ∧
      ∀ k count, 0 < count → 0 + 3 + count < 2 ^ 64 →
        pageAll (NullDeviceHelper.readdir [(0, 3)] (fun i => decide (i < k)) "" · count) (min k (0 + 3) + 1) 0 =
          some ((List.range (min k (0 + 3))).map toString)) :=
  ⟨by decide, NullDeviceHelper.readdir_pages (by decide)⟩

/-- entries that appear out of order break the paging: with only the even ones there, the offsets the caller
moves by count the names listed, not the entries passed, and "2" comes twice -/
example : pageAll (NullDeviceHelper.readdir [(0, 4)] (fun i => i % 2 == 0) "" · 2) 4 0 = some ["0", "2", "2"] := by
  decide

/-! ## Where paging breaks -/

/-- **Pages that are lost, repeated or never end.** A count of `2 ^ 31` (meant as "everything") narrows to a negative
`count_`, so PosixHelper and GlusterFSHelper list nothing; an offset of `2 ^ 32` narrows to 0, so they list from the
start. WebDAVHelper answers every offset and count with the whole directory, so a caller paging until an empty page
never stops. NullDeviceHelper with `offset + count` past `size_t` lists nothing. -/
theorem readdir_pagination_bugs :
    (PosixHelper.readdir [".", "..", "a", "b"] 0 (2 ^ 31) = [] ∧
      GlusterFSHelper.readdir [".", "..", "a", "b"] 0 (2 ^ 31) = []) ∧
    (PosixHelper.readdir ["a", "b"] (2 ^ 32) 1 = ["a"] ∧ GlusterFSHelper.readdir ["a", "b"] (2 ^ 32) 1 = ["a"]) ∧
    (∀ offset count, WebDAVHelper.readdir "/dir/" ["/dir/", "/dir/a"] offset count = ["a"]) ∧
    (∀ count fuel, pageAll (WebDAVHelper.readdir "/dir/" ["/dir/", "/dir/a"] · count) fuel 0 = none) ∧
    NullDeviceHelper.readdir [(0, 3)] (fun _ => true) "" 1 (2 ^ 64 - 1) = [] := by
  have hwebdav : ∀ offset count, WebDAVHelper.readdir "/dir/" ["/dir/", "/dir/a"] offset count = ["a"] :=
    fun offset count => (WebDAVHelper.readdir_offset _ _ offset count).trans (by decide)
  refine ⟨⟨by decide, by decide⟩, ⟨by decide, by decide⟩, hwebdav, fun count fuel => ?_, by decide⟩
  exact pageAll_of_const (fun o => hwebdav o count) (List.cons_ne_nil _ _) fuel 0

end OneHelpers.Readdir
