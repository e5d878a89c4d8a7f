/-
The translation between sets of `one::helpers::Flag` and `open(2)` / `mknod(2)` masks (`src/storageHelper.cc`), and
the call `PosixHelper::mknod` (`src/posixHelper.cc`) makes for a mode and a flag set.

`flagsToMask` ORs the masks `g_flagTranslation` gives the flags of a set. `maskToFlags` reads the access mode from the
two low bits through `g_maskTranslation.at`, which throws on `O_WRONLY | O_RDWR`, and adds every other flag of
`g_maskTranslation` whose whole mask the number has. The constants are those of Linux on x86-64, and with them the
tables are lossy: `O_ASYNC` and `S_IFCHR` are both `0o20000`, so the map built from the initializer list keeps the
first entry, `ASYNC`, and never gives `IFCHR`; `O_FSYNC`, `S_IFBLK` and `S_IFSOCK` have two bits each, one of them
another flag's.

Results:
- `maskToFlags_flagsToMask`: a flag set with one access mode and none of `FSYNC`, `IFCHR`, `IFBLK`, `IFSOCK` is
  translated to a mask and back to itself.
- `maskToFlags_flagsToMask_exact`: for every flag set, what comes back: `none` iff both `WRONLY` and `RDWR` are in it;
  otherwise `RDONLY` in place of no access mode, never `IFCHR`, and `ASYNC`, `IFIFO`, `IFREG`, `IFBLK`, `IFSOCK` also
  for the flags whose masks cover theirs.
- `flagsToMask_maskToFlags`: for every mask, `maskToFlags` fails iff both access bits are set; otherwise the flags'
  mask lies inside the mask and is translated back to the same flags.
- `mknodCall_fileType`: from a mode with no file-type bits, `PosixHelper::mknod` opens a regular file exactly when the
  flags have `IFREG` and none of `ASYNC`, `FSYNC`, `IFCHR`, `IFBLK`, `IFIFO`, `IFSOCK`, and makes a FIFO exactly when
  they have `IFIFO` or `FSYNC` and none of `ASYNC`, `IFREG`, `IFCHR`, `IFBLK`, `IFSOCK`.
-/
import Mathlib
import OneHelpers.Core.BitTable

namespace OneHelpers.Flags

open BitTable

/-! ## Flags and the two tables -/

/-- `one::helpers::Flag` -/
inductive Flag
  | NONBLOCK | APPEND | ASYNC | FSYNC | NOFOLLOW | CREAT | TRUNC | EXCL
  | RDONLY | WRONLY | RDWR | IFREG | IFCHR | IFBLK | IFIFO | IFSOCK
  deriving DecidableEq, Repr

instance : Fintype Flag where
  elems := {.NONBLOCK, .APPEND, .ASYNC, .FSYNC, .NOFOLLOW, .CREAT, .TRUNC, .EXCL, .RDONLY, .WRONLY, .RDWR, .IFREG,
    .IFCHR, .IFBLK, .IFIFO, .IFSOCK}
  complete f := by cases f <;> decide

/-- the access modes, which `maskToFlags` reads from the two low bits and skips in its loop -/
def Flag.isAccess : Flag → Bool
  | .RDONLY | .WRONLY | .RDWR => true
  | _ => false

/-- `fcntl.h` and `sys/stat.h`, Linux on x86-64 -/
def O_RDONLY : ℕ := 0o0
def O_WRONLY : ℕ := 0o1
def O_RDWR : ℕ := 0o2
def O_ACCMODE : ℕ := 0o3
def O_CREAT : ℕ := 0o100
def O_EXCL : ℕ := 0o200
def O_TRUNC : ℕ := 0o1000
def O_APPEND : ℕ := 0o2000
def O_NONBLOCK : ℕ := 0o4000
def O_ASYNC : ℕ := 0o20000
def O_NOFOLLOW : ℕ := 0o400000
/-- `O_FSYNC` is `O_SYNC`, that is `__O_SYNC | O_DSYNC` -/
def O_FSYNC : ℕ := 0o4010000
def S_IFMT : ℕ := 0o170000
def S_IFSOCK : ℕ := 0o140000
def S_IFREG : ℕ := 0o100000
def S_IFBLK : ℕ := 0o60000
def S_IFCHR : ℕ := 0o20000
def S_IFIFO : ℕ := 0o10000

/-- the initializer list of `g_flagTranslation` -/
def flagTranslationList : List ((_ : Flag) × ℕ) :=
  [⟨.NONBLOCK, O_NONBLOCK⟩, ⟨.APPEND, O_APPEND⟩, ⟨.ASYNC, O_ASYNC⟩, ⟨.FSYNC, O_FSYNC⟩, ⟨.NOFOLLOW, O_NOFOLLOW⟩,
    ⟨.CREAT, O_CREAT⟩, ⟨.TRUNC, O_TRUNC⟩, ⟨.EXCL, O_EXCL⟩, ⟨.RDONLY, O_RDONLY⟩, ⟨.WRONLY, O_WRONLY⟩,
    ⟨.RDWR, O_RDWR⟩, ⟨.IFREG, S_IFREG⟩, ⟨.IFCHR, S_IFCHR⟩, ⟨.IFBLK, S_IFBLK⟩, ⟨.IFIFO, S_IFIFO⟩,
    ⟨.IFSOCK, S_IFSOCK⟩]

/-- `g_flagTranslation` -/
def flagTranslation : AList (fun _ : Flag => ℕ) := flagTranslationList.toAList

/-- the initializer list of `g_maskTranslation`, where `O_ASYNC` and `S_IFCHR` are one key -/
def maskTranslationList : List ((_ : ℕ) × Flag) :=
  [⟨O_NONBLOCK, .NONBLOCK⟩, ⟨O_APPEND, .APPEND⟩, ⟨O_ASYNC, .ASYNC⟩, ⟨O_FSYNC, .FSYNC⟩, ⟨O_NOFOLLOW, .NOFOLLOW⟩,
    ⟨O_CREAT, .CREAT⟩, ⟨O_TRUNC, .TRUNC⟩, ⟨O_EXCL, .EXCL⟩, ⟨O_RDONLY, .RDONLY⟩, ⟨O_WRONLY, .WRONLY⟩,
    ⟨O_RDWR, .RDWR⟩, ⟨S_IFREG, .IFREG⟩, ⟨S_IFCHR, .IFCHR⟩, ⟨S_IFBLK, .IFBLK⟩, ⟨S_IFIFO, .IFIFO⟩,
    ⟨S_IFSOCK, .IFSOCK⟩]

/-- `g_maskTranslation`: a `std::unordered_map` built from an initializer list keeps the first entry of each key, as
`List.toAList` does -/
def maskTranslation : AList (fun _ : ℕ => Flag) := maskTranslationList.toAList

/-- `g_flagTranslation.find(flag)->second`; the `assert` that the flag is found holds for every flag
(`lookup_flagTranslation_isSome`) -/
def flagMask (flag : Flag) : ℕ := (flagTranslation.lookup flag).getD 0

/-! ## The two translations -/

/-- `flagsToMask`: the OR of the masks of the flags, in the order the set gives them -/
def flagsToMask (flags : Finset Flag) : ℕ := flags.fold (· ||| ·) 0 flagMask

/-- `maskToFlags`; `none` where `g_maskTranslation.at` throws `std::out_of_range` -/
def maskToFlags (mask : ℕ) : Option (Finset Flag) := do
  let access ← maskTranslation.lookup (mask &&& O_ACCMODE)
  -- `g_maskTranslation.at(entry_mask)` of an entry's own key is the entry's flag
  pure (maskTranslation.entries.foldl (fun flags entry =>
    if entry.2 ≠ .RDONLY ∧ entry.2 ≠ .WRONLY ∧ entry.2 ≠ .RDWR ∧ entry.1 &&& mask = entry.1 then insert entry.2 flags
    else flags) {access})

/-- the access mode `maskToFlags` reads back from the mask of `F`: the write mode of `F` if it has one, `RDONLY` if it
has none, and `none` if it has both -/
def accessOf (F : Finset Flag) : Option Flag :=
  if .WRONLY ∈ F then (if .RDWR ∈ F then none else some .WRONLY) else if .RDWR ∈ F then some .RDWR else some .RDONLY

/-- the flags the loop of `maskToFlags` collects from `mask` -/
def otherFlags (mask : ℕ) : Finset Flag :=
  Finset.univ.filter fun f => f.isAccess = false ∧ f ≠ .IFCHR ∧ flagMask f &&& mask = flagMask f

/-! ## `PosixHelper::mknod` -/

/-- `S_ISREG` -/
def S_ISREG (m : ℕ) : Bool := m &&& S_IFMT == S_IFREG

/-- `S_ISFIFO` -/
def S_ISFIFO (m : ℕ) : Bool := m &&& S_IFMT == S_IFIFO

/-- the system call `PosixHelper::mknod` makes, with the mode it passes -/
inductive MknodCall
  /-- `::open(filePath, O_CREAT | O_EXCL | O_WRONLY, mode)`, then `close` -/
  | regular (mode : ℕ)
  /-- `::mkfifo(filePath, mode)` -/
  | fifo (mode : ℕ)
  /-- `::mknod(filePath, mode, rdev)` -/
  | node (mode : ℕ)
  deriving DecidableEq, Repr

/-- the call `PosixHelper::mknod` makes for `unmaskedMode` and `flags`, in a valid user context -/
def PosixHelper.mknodCall (unmaskedMode : ℕ) (flags : Finset Flag) : MknodCall :=
  let mode := unmaskedMode ||| flagsToMask flags
  if S_ISREG mode then .regular mode else if S_ISFIFO mode then .fifo mode else .node mode

/-! ## The tables -/

theorem lookup_flagTranslation_isSome (flag : Flag) : (flagTranslation.lookup flag).isSome := by
  cases flag <;> rfl

theorem isAccess_eq_false_iff {f : Flag} : f.isAccess = false ↔ f ≠ .RDONLY ∧ f ≠ .WRONLY ∧ f ≠ .RDWR := by
  cases f <;> decide

/-- the map keeps one entry for each flag but `IFCHR`, under the flag's mask -/
theorem mem_maskTranslation_entries {k : ℕ} {f : Flag} :
    ⟨k, f⟩ ∈ maskTranslation.entries ↔ f ≠ .IFCHR ∧ k = flagMask f := by
  constructor
  · intro h
    have hall : ∀ e ∈ maskTranslation.entries, e.2 ≠ .IFCHR ∧ e.1 = flagMask e.2 := by decide
    exact hall _ h
  · rintro ⟨hf, rfl⟩
    revert hf
    cases f <;> decide

theorem lookup_accmode_eq_some {mask : ℕ} {f : Flag} (h : maskTranslation.lookup (mask &&& O_ACCMODE) = some f) :
    f.isAccess = true ∧ flagMask f = mask &&& O_ACCMODE := by
  have hk : mask &&& O_ACCMODE < 2 ^ 2 := Nat.and_lt_two_pow mask (by decide)
  generalize mask &&& O_ACCMODE = k at h hk ⊢
  revert f
  interval_cases k <;> decide

theorem lookup_accmode_eq_none {mask : ℕ} :
    maskTranslation.lookup (mask &&& O_ACCMODE) = none ↔ mask &&& O_ACCMODE = O_ACCMODE := by
  have hk : mask &&& O_ACCMODE < 2 ^ 2 := Nat.and_lt_two_pow mask (by decide)
  generalize mask &&& O_ACCMODE = k at hk ⊢
  interval_cases k <;> decide

@[simp] theorem mem_otherFlags {mask : ℕ} {f : Flag} :
    f ∈ otherFlags mask ↔ f.isAccess = false ∧ f ≠ .IFCHR ∧ flagMask f &&& mask = flagMask f := by
  simp [otherFlags]

theorem exists_maskTranslation_entry_iff (mask : ℕ) (f : Flag) :
    (∃ e ∈ maskTranslation.entries,
        (e.2 ≠ .RDONLY ∧ e.2 ≠ .WRONLY ∧ e.2 ≠ .RDWR ∧ e.1 &&& mask = e.1) ∧ e.2 = f) ↔ f ∈ otherFlags mask := by
  rw [mem_otherFlags]
  constructor
  · rintro ⟨⟨k, g⟩, he, ⟨hr, hw, hrw, hk⟩, rfl⟩
    obtain ⟨hchr, rfl⟩ := mem_maskTranslation_entries.1 he
    exact ⟨isAccess_eq_false_iff.2 ⟨hr, hw, hrw⟩, hchr, hk⟩
  · rintro ⟨hacc, hchr, hk⟩
    obtain ⟨hr, hw, hrw⟩ := isAccess_eq_false_iff.1 hacc
    exact ⟨⟨flagMask f, f⟩, mem_maskTranslation_entries.2 ⟨hchr, rfl⟩, ⟨hr, hw, hrw, hk⟩, rfl⟩

/-! ## What the translations compute -/

theorem flagsToMask_eq_join (F : Finset Flag) : flagsToMask F = join flagMask F := rfl

theorem testBit_flagsToMask (F : Finset Flag) (i : ℕ) :
    (flagsToMask F).testBit i = decide (∃ a ∈ holders flagMask i, a ∈ F) := by
  rw [Bool.eq_iff_iff, decide_eq_true_iff, flagsToMask_eq_join]
  exact testBit_join_iff_holders F i

/-- `maskToFlags` is the access mode of the low bits with the flags of the loop -/
theorem maskToFlags_eq (mask : ℕ) :
    maskToFlags mask =
      (maskTranslation.lookup (mask &&& O_ACCMODE)).map fun access => insert access (otherFlags mask) := by
  unfold maskToFlags
  cases maskTranslation.lookup (mask &&& O_ACCMODE) with
  | none => rfl
  | some access =>
    simp only [Option.bind_eq_bind, Option.bind_some, Option.map_some, Option.pure_def]
    congr 1
    ext f
    rw [mem_foldl_insert, Finset.mem_singleton, Finset.mem_insert, eq_comm, exists_maskTranslation_entry_iff]

theorem mem_maskToFlags {mask : ℕ} {R : Finset Flag} (h : maskToFlags mask = some R) (f : Flag) :
    f ∈ R ↔ maskTranslation.lookup (mask &&& O_ACCMODE) = some f ∨ f ∈ otherFlags mask := by
  rw [maskToFlags_eq] at h
  obtain ⟨access, hacc, rfl⟩ := Option.map_eq_some_iff.1 h
  rw [Finset.mem_insert, hacc, Option.some_inj, eq_comm]

/-- the access bits of the mask of `F` read back as `accessOf F` -/
theorem lookup_flagsToMask_accmode (F : Finset Flag) :
    maskTranslation.lookup (flagsToMask F &&& O_ACCMODE) = accessOf F := by
  have h0 : (flagsToMask F &&& O_ACCMODE).testBit 0 = decide (.WRONLY ∈ F) := by
    rw [Nat.testBit_and, testBit_flagsToMask, show holders flagMask 0 = {.WRONLY} by decide]
    simp [O_ACCMODE, Nat.testBit_eq_decide_div_mod_eq]
  have h1 : (flagsToMask F &&& O_ACCMODE).testBit 1 = decide (.RDWR ∈ F) := by
    rw [Nat.testBit_and, testBit_flagsToMask, show holders flagMask 1 = {.RDWR} by decide]
    simp [O_ACCMODE, Nat.testBit_eq_decide_div_mod_eq]
  have hk : flagsToMask F &&& O_ACCMODE < 2 ^ 2 := Nat.and_lt_two_pow _ (by decide)
  generalize flagsToMask F &&& O_ACCMODE = k at h0 h1 hk
  interval_cases k <;> simp_all +decide [accessOf, Nat.testBit_eq_decide_div_mod_eq]

theorem accessOf_isAccess {F : Finset Flag} {f : Flag} (h : accessOf F = some f) : f.isAccess = true := by
  unfold accessOf at h
  split_ifs at h <;> cases h <;> rfl

theorem accessOf_eq_of_filter {F : Finset Flag} {a : Flag} (hmode : F.filter (·.isAccess) = {a}) :
    accessOf F = some a := by
  have hmem : ∀ f, f.isAccess = true → (f ∈ F ↔ f = a) := by
    intro f hf
    simpa [hf] using Finset.ext_iff.1 hmode f
  have ha : a.isAccess = true := (Finset.mem_filter.1 ((Finset.ext_iff.1 hmode a).2 (Finset.mem_singleton_self a))).2
  simp only [accessOf, hmem .WRONLY rfl, hmem .RDWR rfl]
  revert ha
  cases a <;> decide

/-! ## Flags to a mask and back -/

/-- a bit of the mask of each flag of the loop that no flag but itself sets, outside `FSYNC`, `IFCHR`, `IFBLK` and
`IFSOCK` -/
def distinctiveBit : Flag → ℕ
  | .NONBLOCK => 11 | .APPEND => 10 | .ASYNC => 13 | .FSYNC => 20 | .NOFOLLOW => 17 | .CREAT => 6 | .TRUNC => 9
  | .EXCL => 7 | .IFREG => 15 | .IFBLK => 14 | .IFIFO => 12 | .IFSOCK => 14 | _ => 0

theorem testBit_distinctiveBit :
    ∀ f : Flag, f.isAccess = false → f ≠ .IFCHR → (flagMask f).testBit (distinctiveBit f) = true := by
  decide

theorem eq_of_testBit_distinctiveBit : ∀ f g : Flag, f.isAccess = false → f ≠ .IFCHR →
    g ≠ .FSYNC → g ≠ .IFCHR → g ≠ .IFBLK → g ≠ .IFSOCK → (flagMask g).testBit (distinctiveBit f) = true → g = f := by
  decide

/-- the flags of `F` translated to a mask and back: the access mode of `accessOf F` and the flags of the loop -/
theorem mem_maskToFlags_flagsToMask {F R : Finset Flag} (h : maskToFlags (flagsToMask F) = some R) (f : Flag) :
    f ∈ R ↔ accessOf F = some f ∨
      (f.isAccess = false ∧ f ≠ .IFCHR ∧ flagMask f &&& flagsToMask F = flagMask f) := by
  rw [mem_maskToFlags h, lookup_flagsToMask_accmode, mem_otherFlags]

theorem mem_maskToFlags_flagsToMask_of_access {F R : Finset Flag} (h : maskToFlags (flagsToMask F) = some R)
    {f : Flag} (hf : f.isAccess = true) : f ∈ R ↔ accessOf F = some f := by
  simp [mem_maskToFlags_flagsToMask h, hf]

theorem mem_maskToFlags_flagsToMask_of_other {F R : Finset Flag} (h : maskToFlags (flagsToMask F) = some R)
    {f : Flag} (hf : f.isAccess = false) : f ∈ R ↔ f ≠ .IFCHR ∧ flagMask f &&& flagsToMask F = flagMask f := by
  have hnot : accessOf F ≠ some f := by
    intro hacc
    rw [accessOf_isAccess hacc] at hf
    cases hf
  simp [mem_maskToFlags_flagsToMask h, hf, hnot]

/-- a flag of the loop with its distinctive bit to itself among `F` lies inside the mask of `F` iff it is in `F` -/
theorem flagMask_land_flagsToMask_of_unique {F : Finset Flag} {f : Flag} (hf : f.isAccess = false) (hchr : f ≠ .IFCHR)
    (huniq : ∀ g ∈ F, (flagMask g).testBit (distinctiveBit f) = true → g = f) :
    flagMask f &&& flagsToMask F = flagMask f ↔ f ∈ F := by
  rw [flagsToMask_eq_join]
  exact land_join_eq_self_iff_of_unique (testBit_distinctiveBit f hf hchr) huniq

/-- **Flags to a mask and back.** A set with one access mode and none of the flags whose masks share a bit with
another's comes back as it was. -/
theorem maskToFlags_flagsToMask {F : Finset Flag} {a : Flag} (hmode : F.filter (·.isAccess) = {a})
    (hplain : ∀ f ∈ F, f ≠ .FSYNC ∧ f ≠ .IFCHR ∧ f ≠ .IFBLK ∧ f ≠ .IFSOCK) :
    maskToFlags (flagsToMask F) = some F := by
  have haccess := accessOf_eq_of_filter hmode
  obtain ⟨R, hR⟩ : ∃ R, maskToFlags (flagsToMask F) = some R := by
    rw [maskToFlags_eq, lookup_flagsToMask_accmode, haccess]
    exact ⟨_, rfl⟩
  rw [hR]
  congr 1
  ext f
  cases hf : f.isAccess with
  | true =>
    -- an access mode comes back iff it is the one of `F`
    have hmem : f ∈ F ↔ f = a := by simpa [hf] using Finset.ext_iff.1 hmode f
    rw [mem_maskToFlags_flagsToMask_of_access hR hf, haccess, Option.some_inj, hmem, eq_comm]
  | false =>
    rw [mem_maskToFlags_flagsToMask_of_other hR hf]
    by_cases hchr : f = .IFCHR
    · subst hchr
      simp only [ne_eq, not_true_eq_false, false_and, false_iff]
      exact fun hF => (hplain _ hF).2.1 rfl
    · -- every other flag comes back by its distinctive bit
      have huniq : ∀ g ∈ F, (flagMask g).testBit (distinctiveBit f) = true → g = f := by
        intro g hg hbit
        obtain ⟨h1, h2, h3, h4⟩ := hplain g hg
        exact eq_of_testBit_distinctiveBit f g hf hchr h1 h2 h3 h4 hbit
      rw [flagMask_land_flagsToMask_of_unique hf hchr huniq]
      exact and_iff_right hchr

theorem maskToFlags_flagsToMask_rdwr :
    ({.RDWR, .CREAT, .EXCL} : Finset Flag).filter (·.isAccess) = {.RDWR} ∧
      (∀ f ∈ ({.RDWR, .CREAT, .EXCL} : Finset Flag), f ≠ .FSYNC ∧ f ≠ .IFCHR ∧ f ≠ .IFBLK ∧ f ≠ .IFSOCK) ∧
      maskToFlags (flagsToMask {.RDWR, .CREAT, .EXCL}) = some {.RDWR, .CREAT, .EXCL} :=
  ⟨by decide, by decide, maskToFlags_flagsToMask (a := .RDWR) (by decide) (by decide)⟩

theorem accessOf_eq_none_iff {F : Finset Flag} : accessOf F = none ↔ .WRONLY ∈ F ∧ .RDWR ∈ F := by
  unfold accessOf
  split_ifs <;> simp_all

/-- the flags that set the bits the masks of the table share -/
theorem holders_flagMask :
    holders flagMask 12 = {.FSYNC, .IFIFO} ∧ holders flagMask 13 = {.ASYNC, .IFCHR, .IFBLK} ∧
      holders flagMask 14 = {.IFBLK, .IFSOCK} ∧ holders flagMask 15 = {.IFREG, .IFSOCK} := by
  decide

/-- the distinctive bit of each flag of the loop other than `ASYNC` and the file types is its own -/
theorem eq_of_testBit_distinctiveBit_of_mem : ∀ f ∈ [Flag.NONBLOCK, .APPEND, .FSYNC, .NOFOLLOW, .CREAT, .TRUNC, .EXCL],
    ∀ g : Flag, (flagMask g).testBit (distinctiveBit f) = true → g = f := by
  decide

/-- a flag of the loop whose mask has the bits `l` comes back iff some flag of `F` sets each bit of `l` -/
theorem mem_maskToFlags_flagsToMask_of_bits {F R : Finset Flag} (h : maskToFlags (flagsToMask F) = some R)
    {f : Flag} (hf : f.isAccess = false) (hchr : f ≠ .IFCHR) {l : List ℕ} (hl : flagMask f = ofBits l) :
    f ∈ R ↔ ∀ i ∈ l, ∃ a ∈ holders flagMask i, a ∈ F := by
  rw [mem_maskToFlags_flagsToMask_of_other h hf, and_iff_right hchr, hl, ofBits_land_eq_self_iff]
  simp only [testBit_flagsToMask, decide_eq_true_iff]

/-- the access mode that comes back: the write mode of `F`, or `RDONLY` when it has none -/
theorem accessModes_of_maskToFlags_flagsToMask {F R : Finset Flag} (h : maskToFlags (flagsToMask F) = some R) :
    (.RDONLY ∈ R ↔ .WRONLY ∉ F ∧ .RDWR ∉ F) ∧ (.WRONLY ∈ R ↔ .WRONLY ∈ F) ∧ (.RDWR ∈ R ↔ .RDWR ∈ F) := by
  have hboth : ¬(.WRONLY ∈ F ∧ .RDWR ∈ F) := by
    rw [← accessOf_eq_none_iff]
    intro hnone
    rw [maskToFlags_eq, lookup_flagsToMask_accmode, hnone] at h
    cases h
  refine ⟨?_, ?_, ?_⟩ <;> rw [mem_maskToFlags_flagsToMask_of_access h rfl, accessOf] <;> split_ifs <;> simp_all

/-- the file types that come back: `IFCHR` never, and each of the others also for the flags whose masks cover its
bits -/
theorem fileTypes_of_maskToFlags_flagsToMask {F R : Finset Flag} (h : maskToFlags (flagsToMask F) = some R) :
    .IFCHR ∉ R ∧
      (.ASYNC ∈ R ↔ .ASYNC ∈ F ∨ .IFCHR ∈ F ∨ .IFBLK ∈ F) ∧
      (.IFIFO ∈ R ↔ .IFIFO ∈ F ∨ .FSYNC ∈ F) ∧
      (.IFREG ∈ R ↔ .IFREG ∈ F ∨ .IFSOCK ∈ F) ∧
      (.IFBLK ∈ R ↔ .IFBLK ∈ F ∨ .IFSOCK ∈ F ∧ (.ASYNC ∈ F ∨ .IFCHR ∈ F)) ∧
      (.IFSOCK ∈ R ↔ .IFSOCK ∈ F ∨ .IFBLK ∈ F ∧ .IFREG ∈ F) := by
  obtain ⟨h12, h13, h14, h15⟩ := holders_flagMask
  refine ⟨?_, ?_, ?_, ?_, ?_, ?_⟩
  · simp [mem_maskToFlags_flagsToMask_of_other h (f := .IFCHR) rfl]
  · rw [mem_maskToFlags_flagsToMask_of_bits h rfl (by decide) (l := [13]) rfl]
    simp only [List.mem_cons, List.not_mem_nil, or_false, forall_eq, h13, Finset.mem_insert, Finset.mem_singleton,
      exists_eq_or_imp, exists_eq_left]
  · rw [mem_maskToFlags_flagsToMask_of_bits h rfl (by decide) (l := [12]) rfl]
    simp only [List.mem_cons, List.not_mem_nil, or_false, forall_eq, h12, Finset.mem_insert, Finset.mem_singleton,
      exists_eq_or_imp, exists_eq_left]
    tauto
  · rw [mem_maskToFlags_flagsToMask_of_bits h rfl (by decide) (l := [15]) rfl]
    simp only [List.mem_cons, List.not_mem_nil, or_false, forall_eq, h15, Finset.mem_insert, Finset.mem_singleton,
      exists_eq_or_imp, exists_eq_left]
  · rw [mem_maskToFlags_flagsToMask_of_bits h rfl (by decide) (l := [13, 14]) rfl]
    simp only [List.mem_cons, List.not_mem_nil, or_false, forall_eq_or_imp, forall_eq, h13, h14, Finset.mem_insert,
      Finset.mem_singleton, exists_eq_or_imp, exists_eq_left]
    tauto
  · rw [mem_maskToFlags_flagsToMask_of_bits h rfl (by decide) (l := [14, 15]) rfl]
    simp only [List.mem_cons, List.not_mem_nil, or_false, forall_eq_or_imp, forall_eq, h14, h15, Finset.mem_insert,
      Finset.mem_singleton, exists_eq_or_imp, exists_eq_left]
    tauto

/-- **What comes back of any flag set.** Both write modes make `maskToFlags` throw; otherwise the access mode comes
back as `accessOf` reads it, `IFCHR` never, and the flags whose masks the others cover come back with them. -/
theorem maskToFlags_flagsToMask_exact (F : Finset Flag) :
    (maskToFlags (flagsToMask F) = none ↔ .WRONLY ∈ F ∧ .RDWR ∈ F) ∧
      ∀ R, maskToFlags (flagsToMask F) = some R →
        (.RDONLY ∈ R ↔ .WRONLY ∉ F ∧ .RDWR ∉ F) ∧ (.WRONLY ∈ R ↔ .WRONLY ∈ F) ∧ (.RDWR ∈ R ↔ .RDWR ∈ F) ∧
        .IFCHR ∉ R ∧
        (.ASYNC ∈ R ↔ .ASYNC ∈ F ∨ .IFCHR ∈ F ∨ .IFBLK ∈ F) ∧
        (.IFIFO ∈ R ↔ .IFIFO ∈ F ∨ .FSYNC ∈ F) ∧
        (.IFREG ∈ R ↔ .IFREG ∈ F ∨ .IFSOCK ∈ F) ∧
        (.IFBLK ∈ R ↔ .IFBLK ∈ F ∨ .IFSOCK ∈ F ∧ (.ASYNC ∈ F ∨ .IFCHR ∈ F)) ∧
        (.IFSOCK ∈ R ↔ .IFSOCK ∈ F ∨ .IFBLK ∈ F ∧ .IFREG ∈ F) ∧
        ∀ f ∈ [Flag.NONBLOCK, .APPEND, .FSYNC, .NOFOLLOW, .CREAT, .TRUNC, .EXCL], f ∈ R ↔ f ∈ F := by
  refine ⟨?_, ?_⟩
  · rw [maskToFlags_eq, Option.map_eq_none_iff, lookup_flagsToMask_accmode, accessOf_eq_none_iff]
  intro R hR
  obtain ⟨hrdonly, hwronly, hrdwr⟩ := accessModes_of_maskToFlags_flagsToMask hR
  obtain ⟨hchr, hasync, hfifo, hreg, hblk, hsock⟩ := fileTypes_of_maskToFlags_flagsToMask hR
  refine ⟨hrdonly, hwronly, hrdwr, hchr, hasync, hfifo, hreg, hblk, hsock, ?_⟩
  -- the rest come back by their distinctive bit, which no other flag sets
  intro f hf
  have hacc : f.isAccess = false := by revert f; decide
  have hne : f ≠ .IFCHR := by revert f; decide
  rw [mem_maskToFlags_flagsToMask_of_other hR hacc, and_iff_right hne]
  exact flagMask_land_flagsToMask_of_unique hacc hne fun g _ hg => eq_of_testBit_distinctiveBit_of_mem f hf g hg

example : maskToFlags (flagsToMask {.WRONLY, .IFCHR, .FSYNC}) = some {.WRONLY, .ASYNC, .FSYNC, .IFIFO} := by decide

/-! ## A mask to flags and back -/

theorem flagMask_land_of_mem_maskToFlags {mask : ℕ} {R : Finset Flag} (h : maskToFlags mask = some R) {f : Flag}
    (hf : f ∈ R) : flagMask f &&& mask = flagMask f := by
  rcases (mem_maskToFlags h f).1 hf with hacc | hother
  · -- the access mode's mask is the access bits of the mask
    rw [(lookup_accmode_eq_some hacc).2, Nat.and_assoc, Nat.and_comm O_ACCMODE mask, ← Nat.and_assoc, Nat.and_self]
  · exact (mem_otherFlags.1 hother).2.2

/-- the mask of the flags `maskToFlags` gives sets no bit outside the mask -/
theorem flagsToMask_land_of_maskToFlags {mask : ℕ} {R : Finset Flag} (h : maskToFlags mask = some R) :
    flagsToMask R &&& mask = flagsToMask R := by
  rw [flagsToMask_eq_join, join_land_eq_self_iff]
  exact fun f hf => flagMask_land_of_mem_maskToFlags h hf

theorem exists_lookup_of_maskToFlags {mask : ℕ} {R : Finset Flag} (h : maskToFlags mask = some R) :
    ∃ a, maskTranslation.lookup (mask &&& O_ACCMODE) = some a ∧ R = insert a (otherFlags mask) := by
  rw [maskToFlags_eq] at h
  obtain ⟨a, ha, hR⟩ := Option.map_eq_some_iff.1 h
  exact ⟨a, ha, hR.symm⟩

/-- the only access mode among the flags `maskToFlags` gives is the one of the low bits -/
theorem filter_isAccess_of_maskToFlags {mask : ℕ} {a : Flag} {R : Finset Flag} (h : maskToFlags mask = some R)
    (ha : maskTranslation.lookup (mask &&& O_ACCMODE) = some a) : R.filter (·.isAccess) = {a} := by
  ext f
  rw [Finset.mem_filter, Finset.mem_singleton, mem_maskToFlags h, ha, Option.some_inj, mem_otherFlags]
  constructor
  · rintro ⟨rfl | ⟨hf, -⟩, hacc⟩
    · rfl
    · rw [hf] at hacc
      cases hacc
  · rintro rfl
    exact ⟨.inl rfl, (lookup_accmode_eq_some ha).1⟩

/-- the loop collects the same flags from the mask and from the mask of the flags `maskToFlags` gives -/
theorem otherFlags_flagsToMask_of_maskToFlags {mask : ℕ} {R : Finset Flag} (h : maskToFlags mask = some R) :
    otherFlags (flagsToMask R) = otherFlags mask := by
  ext f
  rw [mem_otherFlags, mem_otherFlags]
  apply and_congr_right
  intro hf
  apply and_congr_right
  intro hchr
  constructor
  · intro hin
    exact land_eq_self_trans hin (flagsToMask_land_of_maskToFlags h)
  · intro hin
    have hfR : f ∈ R := (mem_maskToFlags h f).2 (.inr (mem_otherFlags.2 ⟨hf, hchr, hin⟩))
    rw [flagsToMask_eq_join]
    exact land_join_of_mem hfR

/-- **A mask to flags and back.** `maskToFlags` throws iff both access bits are set; otherwise the mask of the flags
it gives lies inside the mask, and translates back to the same flags. -/
theorem flagsToMask_maskToFlags (mask : ℕ) :
    (maskToFlags mask = none ↔ mask &&& O_ACCMODE = O_ACCMODE) ∧
      ∀ R, maskToFlags mask = some R →
        flagsToMask R &&& mask = flagsToMask R ∧ maskToFlags (flagsToMask R) = some R := by
  refine ⟨?_, ?_⟩
  · rw [maskToFlags_eq, Option.map_eq_none_iff, lookup_accmode_eq_none]
  intro R hR
  obtain ⟨a, ha, hRa⟩ := exists_lookup_of_maskToFlags hR
  refine ⟨flagsToMask_land_of_maskToFlags hR, ?_⟩
  -- the access mode reads back from the mask of `R`, and the loop collects the same flags from it
  rw [maskToFlags_eq, lookup_flagsToMask_accmode, accessOf_eq_of_filter (filter_isAccess_of_maskToFlags hR ha),
    Option.map_some, otherFlags_flagsToMask_of_maskToFlags hR, hRa]

/-! ## The file type of `PosixHelper::mknod` -/

theorem testBit_S_IFMT (i : ℕ) : S_IFMT.testBit i = true ↔ i ∈ [12, 13, 14, 15] := by
  by_cases hi : i < 16
  · interval_cases i <;> decide
  · have hlt : S_IFMT < 2 ^ i :=
      lt_of_lt_of_le (by decide : S_IFMT < 2 ^ 16) (Nat.pow_le_pow_right (by decide) (by omega))
    rw [Nat.testBit_lt_two_pow hlt]
    simp only [Bool.false_eq_true, false_iff, List.mem_cons, List.not_mem_nil, or_false]
    omega

/-- the file type of `x` is the one of `y` iff the two agree on the four file-type bits -/
theorem land_S_IFMT_eq_iff {x y : ℕ} (hy : y &&& S_IFMT = y) :
    x &&& S_IFMT = y ↔ ∀ i ∈ [12, 13, 14, 15], x.testBit i = y.testBit i := by
  constructor
  · intro h i hi
    rw [← h, Nat.testBit_and, (testBit_S_IFMT i).2 hi, Bool.and_true]
  · intro h
    apply Nat.eq_of_testBit_eq
    intro i
    rw [Nat.testBit_and]
    by_cases hi : i ∈ [12, 13, 14, 15]
    · rw [h i hi, (testBit_S_IFMT i).2 hi, Bool.and_true]
    · have hout : S_IFMT.testBit i = false := Bool.eq_false_iff.2 fun h => hi ((testBit_S_IFMT i).1 h)
      rw [hout, Bool.and_false, ← hy, Nat.testBit_and, hout, Bool.and_false]

/-- a mode without file-type bits leaves the file type to the flags -/
theorem testBit_mode_of_fileType {unmaskedMode : ℕ} (hmode : unmaskedMode &&& S_IFMT = 0) (F : Finset Flag) :
    ∀ i ∈ [12, 13, 14, 15], (unmaskedMode ||| flagsToMask F).testBit i = (flagsToMask F).testBit i := by
  intro i hi
  have hbit : unmaskedMode.testBit i = false := by
    have hand := congrArg (Nat.testBit · i) hmode
    simpa [Nat.testBit_and, (testBit_S_IFMT i).2 hi] using hand
  rw [Nat.testBit_or, hbit, Bool.false_or]

/-- the file type of the mode `PosixHelper::mknod` computes is read off the flags -/
theorem mode_land_S_IFMT_eq_iff {unmaskedMode y : ℕ} (hmode : unmaskedMode &&& S_IFMT = 0) (hy : y &&& S_IFMT = y)
    (F : Finset Flag) :
    (unmaskedMode ||| flagsToMask F) &&& S_IFMT = y ↔
      ∀ i ∈ [12, 13, 14, 15], decide (∃ a ∈ holders flagMask i, a ∈ F) = y.testBit i := by
  rw [land_S_IFMT_eq_iff hy]
  apply forall₂_congr
  intro i hi
  rw [testBit_mode_of_fileType hmode F i hi, testBit_flagsToMask]

theorem S_ISREG_iff {unmaskedMode : ℕ} (hmode : unmaskedMode &&& S_IFMT = 0) (F : Finset Flag) :
    S_ISREG (unmaskedMode ||| flagsToMask F) = true ↔
      .IFREG ∈ F ∧ ∀ f ∈ [Flag.ASYNC, .FSYNC, .IFCHR, .IFBLK, .IFIFO, .IFSOCK], f ∉ F := by
  obtain ⟨h12, h13, h14, h15⟩ := holders_flagMask
  rw [S_ISREG, beq_iff_eq, mode_land_S_IFMT_eq_iff hmode (by decide)]
  simp only [List.mem_cons, List.not_mem_nil, or_false, forall_eq_or_imp, forall_eq, h12, h13, h14, h15,
    Nat.testBit_eq_decide_div_mod_eq (x := S_IFREG)]
  simp [S_IFREG]
  tauto

theorem S_ISFIFO_iff {unmaskedMode : ℕ} (hmode : unmaskedMode &&& S_IFMT = 0) (F : Finset Flag) :
    S_ISFIFO (unmaskedMode ||| flagsToMask F) = true ↔
      (.IFIFO ∈ F ∨ .FSYNC ∈ F) ∧ ∀ f ∈ [Flag.ASYNC, .IFREG, .IFCHR, .IFBLK, .IFSOCK], f ∉ F := by
  obtain ⟨h12, h13, h14, h15⟩ := holders_flagMask
  rw [S_ISFIFO, beq_iff_eq, mode_land_S_IFMT_eq_iff hmode (by decide)]
  simp only [List.mem_cons, List.not_mem_nil, or_false, forall_eq_or_imp, forall_eq, h12, h13, h14, h15,
    Nat.testBit_eq_decide_div_mod_eq (x := S_IFIFO)]
  simp [S_IFIFO]
  tauto

/-- **The file `PosixHelper::mknod` makes.** From a mode without file-type bits it opens a regular file exactly when
`IFREG` is the only flag touching the file-type bits, and makes a FIFO exactly when `IFIFO` or `FSYNC` are: `O_ASYNC`
and `O_FSYNC` share bits with `S_IFCHR` and `S_IFIFO`. -/
theorem mknodCall_fileType {unmaskedMode : ℕ} (hmode : unmaskedMode &&& S_IFMT = 0) (F : Finset Flag) :
    (PosixHelper.mknodCall unmaskedMode F = .regular (unmaskedMode ||| flagsToMask F) ↔
        .IFREG ∈ F ∧ ∀ f ∈ [Flag.ASYNC, .FSYNC, .IFCHR, .IFBLK, .IFIFO, .IFSOCK], f ∉ F) ∧
      (PosixHelper.mknodCall unmaskedMode F = .fifo (unmaskedMode ||| flagsToMask F) ↔
        (.IFIFO ∈ F ∨ .FSYNC ∈ F) ∧ ∀ f ∈ [Flag.ASYNC, .IFREG, .IFCHR, .IFBLK, .IFSOCK], f ∉ F) := by
  rw [← S_ISREG_iff hmode, ← S_ISFIFO_iff hmode, PosixHelper.mknodCall]
  -- a regular file is no FIFO: the two file types differ
  have hexcl : S_ISREG (unmaskedMode ||| flagsToMask F) = true → S_ISFIFO (unmaskedMode ||| flagsToMask F) = false := by
    simp only [S_ISREG, S_ISFIFO, beq_iff_eq]
    intro h
    rw [h]
    decide
  cases hreg : S_ISREG (unmaskedMode ||| flagsToMask F) <;> cases hfifo : S_ISFIFO (unmaskedMode ||| flagsToMask F) <;>
    simp_all

theorem mknodCall_fileType_fsync :
    0o644 &&& S_IFMT = 0 ∧ PosixHelper.mknodCall 0o644 {.FSYNC} = .fifo (0o644 ||| flagsToMask {.FSYNC}) :=
  ⟨by decide, (mknodCall_fileType (by decide) {.FSYNC}).2.2 ⟨.inr (by decide), by decide⟩⟩

end OneHelpers.Flags
