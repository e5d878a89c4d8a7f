/-
Model of the loop that `PosixHelper::listxattr` (`src/posixHelper.cc`) and `GlusterFSHelper::listxattr`
(`src/glusterfsHelper.cc`) run over the buffer that `::listxattr` / `glfs_listxattr` filled with `buflen` bytes.

The memory is a list of bytes from the buffer's start: the buffer, then whatever lies after it; a read past the list is
a fault. The loop copies each name with `fbstring(const char*)`, which runs `strlen` with no bound, and moves the
cursor on by `strnlen(cursor, buflen - (buf - cursor)) + 1`. `buf - cursor` is minus the cursor's offset, so the
bound is `buflen + offset`: it grows as the cursor advances, where the bytes left shrink. The cursor moves by at least
one byte a round, so `buflen` rounds finish the loop.

Results: `listxattr_reads_past_buffer`: for every buffer without a NUL (one unterminated name), when the byte after
it is not NUL the loop copies that byte into the name, so it reads past the buffer and returns a name the buffer does
not hold.
-/
import Mathlib.Tactic

namespace OneHelpers.Listxattr

/-! ## C strings -/

/-- the bytes from `start` before the first NUL, at most `limit` of them; `none` when the scan reads past the
memory -/
def scanString (mem : List UInt8) (start : ℕ) : ℕ → Option ℕ
  | 0 => some 0
  | limit + 1 =>
    match mem[start]? with
    | none => none
    | some b => if b = 0 then some 0 else (scanString mem (start + 1) limit).map (· + 1)

/-- `strnlen(mem + start, maxlen)` -/
def strnlen (mem : List UInt8) (start maxlen : ℕ) : Option ℕ := scanString mem start maxlen

/-- `strlen(mem + start)`, which `fbstring(const char*)` runs: it has no bound, so it reads past the memory when no
NUL follows `start` -/
def strlen (mem : List UInt8) (start : ℕ) : Option ℕ := scanString mem start (mem.length - start + 1)

/-! ## The loop -/

/-- the splitting loop from the cursor at `offset` on, `fuel` rounds at most: the names copied, or `none` on a fault -/
def splitXattrNames (mem : List UInt8) (buflen : ℕ) : ℕ → ℕ → Option (List (List UInt8))
  | 0, _ => some []
  | fuel + 1, offset =>
    if offset < buflen then do
      let nameLength ← strlen mem offset
      -- `buflen - (buf.get() - xattrNamePtr)`
      let skipped ← strnlen mem offset (buflen + offset)
      let rest ← splitXattrNames mem buflen fuel (offset + skipped + 1)
      pure ((mem.drop offset).take nameLength :: rest)
    else some []

/-- the names `PosixHelper::listxattr` returns for a buffer of `buflen` bytes at the start of `mem` -/
def PosixHelper.listxattrNames (mem : List UInt8) (buflen : ℕ) : Option (List (List UInt8)) :=
  splitXattrNames mem buflen buflen 0

/-- the names `GlusterFSHelper::listxattr` returns: the same loop -/
def GlusterFSHelper.listxattrNames (mem : List UInt8) (buflen : ℕ) : Option (List (List UInt8)) :=
  splitXattrNames mem buflen buflen 0

/-- the NUL-separated names of a buffer: a NUL at its end closes the last name, and an unterminated last fragment is
a name too -/
def nulNames (buf : List UInt8) : List (List UInt8) :=
  if buf.getLast? = some 0 then (buf.splitOn 0).dropLast else buf.splitOn 0

example : PosixHelper.listxattrNames [97, 0, 98, 99, 0] 5 = some [[97], [98, 99]] := by decide

/-! ## Scanning a run of bytes -/

/-- a run of `k + 1` bytes that are not NUL is its first byte and a run of `k` from the next one -/
theorem nonzero_run_succ {mem : List UInt8} {start k : ℕ}
    (hrun : ∀ i < k + 1, ∃ b, mem[start + i]? = some b ∧ b ≠ 0) :
    (∃ b, mem[start]? = some b ∧ b ≠ 0) ∧ ∀ i < k, ∃ b, mem[start + 1 + i]? = some b ∧ b ≠ 0 := by
  refine ⟨by simpa using hrun 0 (Nat.zero_lt_succ k), fun i hi => ?_⟩
  rw [Nat.add_assoc, Nat.add_comm 1 i]
  exact hrun (i + 1) (by omega)

/-- the scan over `k` bytes that are not NUL: it counts them all when the limit stops it there -/
theorem scanString_of_nonzero (mem : List UInt8) (k : ℕ) :
    ∀ start, (∀ i < k, ∃ b, mem[start + i]? = some b ∧ b ≠ 0) → scanString mem start k = some k := by
  induction k with
  | zero => intro start _; rfl
  | succ k ih =>
    intro start hrun
    obtain ⟨⟨b, hb, hb0⟩, hrest⟩ := nonzero_run_succ hrun
    rw [scanString, hb]
    simp only [if_neg hb0, ih (start + 1) hrest, Option.map_some]

/-- the scan over `k` bytes that are not NUL and then a NUL, within the limit, counts the `k` bytes -/
theorem scanString_of_nul (mem : List UInt8) (k : ℕ) :
    ∀ start limit, k < limit → (∀ i < k, ∃ b, mem[start + i]? = some b ∧ b ≠ 0) → mem[start + k]? = some 0 →
      scanString mem start limit = some k := by
  induction k with
  | zero =>
    intro start limit hlimit _ hnul
    obtain ⟨limit, rfl⟩ := Nat.exists_eq_add_of_lt hlimit
    rw [Nat.add_zero] at hnul
    rw [Nat.zero_add, scanString, hnul]
    rfl
  | succ k ih =>
    intro start limit hlimit hrun hnul
    obtain ⟨limit, rfl⟩ := Nat.exists_eq_add_of_lt (Nat.zero_lt_of_lt hlimit)
    obtain ⟨⟨b, hb, hb0⟩, hrest⟩ := nonzero_run_succ hrun
    have hnext : mem[start + 1 + k]? = some 0 := by rwa [show start + 1 + k = start + (k + 1) by omega]
    rw [Nat.zero_add, scanString, hb]
    simp only [if_neg hb0, ih (start + 1) limit (by omega) hrest hnext, Option.map_some]

theorem splitXattrNames_of_le {mem : List UInt8} {buflen offset : ℕ} (h : buflen ≤ offset) (fuel : ℕ) :
    splitXattrNames mem buflen fuel offset = some [] := by
  cases fuel with
  | zero => rfl
  | succ fuel => rw [splitXattrNames, if_neg (by omega)]

/-- a round whose skip takes the cursor to the buffer's end or past it is the last one -/
theorem splitXattrNames_last {mem : List UInt8} {buflen offset nameLength skipped : ℕ} (fuel : ℕ)
    (hoffset : offset < buflen) (hlength : strlen mem offset = some nameLength)
    (hskipped : strnlen mem offset (buflen + offset) = some skipped) (hend : buflen ≤ offset + skipped + 1) :
    splitXattrNames mem buflen (fuel + 1) offset = some [(mem.drop offset).take nameLength] := by
  rw [splitXattrNames, if_pos hoffset]
  simp only [hlength, hskipped, Option.bind_eq_bind, Option.bind_some, splitXattrNames_of_le hend]
  rfl

/-! ## An unterminated name -/

/-- a buffer without a NUL is one name -/
theorem nulNames_of_nonzero {buf : List UInt8} (hbuf : ∀ b ∈ buf, b ≠ 0) : nulNames buf = [buf] := by
  have hlast : buf.getLast? ≠ some 0 := fun h => hbuf 0 (List.mem_of_getLast? h) rfl
  have hsplit : buf.splitOn 0 = [buf] := List.splitOnP_eq_singleton fun b hb => by simpa using hbuf b hb
  rw [nulNames, if_neg hlast, hsplit]

/-- **The name splitter reads past the buffer.** For every non-empty buffer without a NUL, its one unterminated
name, when the memory after it holds a byte `c` other than NUL and then a NUL, the loop of both helpers copies `c`
into the name: `strlen` runs past the buffer's end, and the name returned is not the buffer's. -/
theorem listxattr_reads_past_buffer :
    ∀ (buf : List UInt8) (c : UInt8), buf ≠ [] → (∀ b ∈ buf, b ≠ 0) → c ≠ 0 →
      PosixHelper.listxattrNames (buf ++ [c, 0]) buf.length = some [buf ++ [c]] ∧
      GlusterFSHelper.listxattrNames (buf ++ [c, 0]) buf.length = some [buf ++ [c]] ∧
      nulNames buf = [buf] := by
  intro buf c hne hbuf hc
  set mem := buf ++ [c, 0] with hmem
  -- every byte of the buffer, and the byte after it, is not NUL; the byte after that is
  have hrun : ∀ i < buf.length + 1, ∃ b, mem[0 + i]? = some b ∧ b ≠ 0 := by
    intro i hi
    rw [Nat.zero_add]
    rcases Nat.lt_or_ge i buf.length with hlt | hge
    · exact ⟨buf[i], by rw [hmem, List.getElem?_append_left hlt, List.getElem?_eq_getElem hlt],
        hbuf _ (List.getElem_mem hlt)⟩
    · have hi : i = buf.length := by omega
      exact ⟨c, by rw [hmem, hi, List.getElem?_append_right le_rfl, Nat.sub_self]; rfl, hc⟩
  have hnul : mem[0 + (buf.length + 1)]? = some 0 := by
    rw [hmem, Nat.zero_add, List.getElem?_append_right (by omega)]
    simp
  have hlength : mem.length = buf.length + 2 := by simp [hmem]
  have hstrlen : strlen mem 0 = some (buf.length + 1) :=
    scanString_of_nul mem (buf.length + 1) 0 _ (by omega) hrun hnul
  -- `strnlen` stops at its bound, the buffer's length, before the byte after it
  have hstrnlen : strnlen mem 0 buf.length = some buf.length :=
    scanString_of_nonzero mem buf.length 0 fun i hi => hrun i (by omega)
  have hname : (mem.drop 0).take (buf.length + 1) = buf ++ [c] := by
    rw [List.drop_zero, hmem, List.take_append]
    simp
  -- the first round is the last: its skip takes the cursor to the buffer's end
  have hloop : splitXattrNames mem buf.length buf.length 0 = some [buf ++ [c]] := by
    obtain ⟨fuel, hfuel⟩ := Nat.exists_eq_add_of_lt (List.length_pos_iff.2 hne)
    rw [Nat.zero_add] at hfuel
    have hround := splitXattrNames_last fuel (List.length_pos_iff.2 hne) hstrlen hstrnlen (by omega)
    rwa [hname, ← hfuel] at hround
  exact ⟨hloop, hloop, nulNames_of_nonzero hbuf⟩

theorem listxattr_reads_past_buffer_a :
    [(97 : UInt8)] ≠ [] ∧ (∀ b ∈ [(97 : UInt8)], b ≠ 0) ∧ (98 : UInt8) ≠ 0 ∧
      PosixHelper.listxattrNames [97, 98, 0] 1 = some [[97, 98]] ∧ nulNames [97] = [[97]] := by
  obtain ⟨hposix, -, hnames⟩ := listxattr_reads_past_buffer [97] 98 (by decide) (by simp) (by decide)
  exact ⟨by decide, by simp, by decide, hposix, hnames⟩

end OneHelpers.Listxattr
