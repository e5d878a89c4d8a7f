/-
`KeyValueAdapter` against a flat sparse byte array.

The reference file is a byte list `F`, zero past its end (`SparseArray.cell F`): a write overwrites in place and
zero-fills a gap (`overwrite`), a truncate cuts or zero-extends (`resize`), a read of `n` bytes at `offset` returns
`window F offset n`. The stored file is read through `storedByte`: byte `p % B` of the object of block `p / B`, zero
where the object is absent or short. `Holds h fileId B F` says that the two agree on every `off_t` position.

Step lemmas, each for every block size `B > 0` and every file id with a character other than '/':
- `writeBlock_stored`: one piece written by `writeBlock` (either helper kind) is one `overwrite` of the file;
- `write_holds`: `KeyValueFileHandle::write` keeps `Holds`, the reference being overwritten (both helper kinds);
- `read_window`: under `Holds`, `KeyValueFileHandle::read` returns exactly `window F offset n`;
- `truncate_holds`: on a helper without random access (S3, Swift), `KeyValueAdapter::truncate` with
  `currentSize = |F|` keeps `Holds`, the reference being resized, when the helper's `deleteObjects` removes the keys it
  is given (`DeletesUpTo`).
Run results:
- `adapterRunOn_refines`: on a helper without random access whose `deleteObjects` removes exactly every list of at
  most `n` keys, from any state that holds the reference file, after every sequence of writes and truncates none of
  which deletes more than `n` blocks, every read returns the reference bytes (S3 and Swift: `nonRandomAccess_refines`);
- `randomAccess_truncate_stale_tail`: on CephRados it fails. Shrinking to a size off a block boundary rewrites the
  remainder block with `putObject` at offset 0, which librados `write` does not shrink, so the old tail survives and
  a later extension reads it back.
-/
import Mathlib.Tactic
import OneHelpers.Storage.KeyValueAdapter

namespace OneHelpers.KeyValue

open SparseArray

/-! ## The reference file and the stored view -/

/-- the operations that change a file -/
inductive FileOp where
  | write (offset : ℕ) (buf : List UInt8)
  | truncate (size : ℕ)
deriving DecidableEq, Repr

/-- the reference semantics of a file operation on a flat byte array -/
def FileOp.apply (F : List UInt8) : FileOp → List UInt8
  | .write offset buf => overwrite F offset buf
  | .truncate size => resize F size

/-- the positions an operation touches are `off_t` offsets -/
def FileOp.InRange : FileOp → Prop
  | .write offset buf => offset + buf.length ≤ 2 ^ 63
  | .truncate size => size ≤ 2 ^ 63

/-- the key of block `j` of a file whose id `getKey` accepts -/
def blockKey (fileId : String) (j : ℕ) : String := (getKey fileId j).getD ""

/-- byte `p` of the file as the objects hold it -/
def storedByte (h : KeyValueHelper) (fileId : String) (B p : ℕ) : UInt8 :=
  cell ((h.objects (blockKey fileId (p / B))).getD []) (p % B)

/-- the stored file agrees with `F` on every `off_t` position -/
def Holds (h : KeyValueHelper) (fileId : String) (B : ℕ) (F : List UInt8) : Prop :=
  ∀ p < 2 ^ 63, storedByte h fileId B p = cell F p

/-- a file id `getKey` accepts: one with a character other than '/' -/
def ValidFileId (fileId : String) : Prop := (adjustPrefix fileId).isSome

instance : DecidablePred ValidFileId := fun fileId => inferInstanceAs (Decidable ((adjustPrefix fileId).isSome = true))

section Keys

variable {fileId : String}

theorem getKey_eq_blockKey (hid : ValidFileId fileId) (j : ℕ) : getKey fileId j = some (blockKey fileId j) := by
  unfold ValidFileId at hid
  unfold blockKey
  have : (getKey fileId j).isSome := by simpa [getKey] using hid
  obtain ⟨k, hk⟩ := Option.isSome_iff_exists.1 this
  simp [hk]

theorem blockKey_inj (hid : ValidFileId fileId) {i j : ℕ} (hi : i < 2 ^ 64) (hj : j < 2 ^ 64)
    (h : blockKey fileId i = blockKey fileId j) : i = j :=
  getKey_inj hi hj (getKey_eq_blockKey hid i) (getKey_eq_blockKey hid j) h

theorem mapM_getKey (hid : ValidFileId fileId) (l : List ℕ) :
    l.mapM (getKey fileId) = some (l.map (blockKey fileId)) := by
  induction l with
  | nil => rfl
  | cons j l ih => simp [List.mapM_cons, getKey_eq_blockKey hid, ih]

end Keys

/-! ## Changing one block -/

section Block

variable {fileId : String} {B : ℕ}

/-- positions below `2^63` lie in blocks whose ids fit `uint64_t` -/
theorem div_lt_of_offT {p : ℕ} (hp : p < 2 ^ 63) : p / B < 2 ^ 64 :=
  lt_of_le_of_lt (Nat.div_le_self p B) (by omega)

/-- a helper that changes only the object of block `j` changes only the bytes of block `j` -/
theorem storedByte_of_block (hid : ValidFileId fileId) {h h' : KeyValueHelper} {j : ℕ} (hj : j < 2 ^ 64)
    (hother : ∀ k, k ≠ blockKey fileId j → h'.objects k = h.objects k) {p : ℕ} (hp : p < 2 ^ 63)
    (hpj : p / B ≠ j) : storedByte h' fileId B p = storedByte h fileId B p := by
  unfold storedByte
  rw [hother]
  intro heq
  exact hpj (blockKey_inj hid (div_lt_of_offT hp) hj heq)

theorem blockKey_div (j i : ℕ) (hi : i < B) : (j * B + i) / B = j ∧ (j * B + i) % B = i := by
  have hB : 0 < B := by omega
  constructor
  · rw [Nat.add_comm, Nat.add_mul_div_right _ _ hB, Nat.div_eq_of_lt hi, Nat.zero_add]
  · rw [Nat.add_comm, Nat.add_mul_mod_self_right, Nat.mod_eq_of_lt hi]

end Block

/-! ## Writing one piece -/

section WriteBlock

variable (fh : KeyValueFileHandle)

/-- `writeBlock` changes only the object of block `j`, and below the block size that object becomes the old one
with the piece written at the block offset, whichever the helper kind -/
theorem writeBlock_spec (hid : ValidFileId fh.fileId) (h : KeyValueHelper) (buf : List UInt8) (j bo : ℕ)
    (hfit : bo + buf.length ≤ fh.mBlockSize) :
    ∃ h', fh.writeBlock h buf j bo = some h' ∧ h'.randomAccess = h.randomAccess ∧
      (∀ k, k ≠ blockKey fh.fileId j → h'.objects k = h.objects k) ∧
      ∀ i < fh.mBlockSize, cell ((h'.objects (blockKey fh.fileId j)).getD []) i =
        cell (overwrite ((h.objects (blockKey fh.fileId j)).getD []) bo buf) i := by
  have hother : ∀ (obj : List UInt8) (off : ℕ) k, k ≠ blockKey fh.fileId j →
      (h.putObject (blockKey fh.fileId j) obj off).objects k = h.objects k := by
    intro obj off k hk
    simp [KeyValueHelper.putObject_objects, hk]
  simp only [KeyValueFileHandle.writeBlock, getKey_eq_blockKey hid, Option.bind_eq_bind, Option.bind_some]
  by_cases hne : buf.length = fh.mBlockSize
  · -- a whole block, so at block offset 0: the piece replaces the block on both helper kinds
    have hbo : bo = 0 := by omega
    simp only [hne, ne_eq, not_true_eq_false, if_false]
    refine ⟨_, rfl, rfl, hother _ _, fun i hi => ?_⟩
    cases hra : h.randomAccess <;> simp [KeyValueHelper.putObject_objects, hra, hbo, hne, hi]
  · simp only [ne_eq, hne, not_false_eq_true, if_true]
    by_cases hra : h.hasRandomAccess = true
    · -- random access: an in-place write at the block offset
      rw [if_pos hra]
      have hra' : h.randomAccess = true := hra
      refine ⟨_, rfl, rfl, hother _ _, fun i _ => ?_⟩
      simp [KeyValueHelper.putObject_objects, hra']
    · -- no random access: the stitched block replaces the object
      rw [if_neg hra]
      have hra' : h.randomAccess = false := by simpa [KeyValueHelper.hasRandomAccess] using hra
      refine ⟨_, rfl, rfl, hother _ _, fun i hi => ?_⟩
      simp [KeyValueHelper.putObject_objects, hra', stitchBlock_eq_overwrite, readBlock_eq_slice, hi]

/-- **One piece is one overwrite.** Under `Holds`, writing a piece that fits its block keeps `Holds` for the
reference file overwritten at the piece's file offset `j * B + bo` -/
theorem writeBlock_holds (hB : 0 < fh.mBlockSize) (hid : ValidFileId fh.fileId) {h : KeyValueHelper}
    {F : List UInt8} (hh : Holds h fh.fileId fh.mBlockSize F) (buf : List UInt8) (j bo : ℕ)
    (hfit : bo + buf.length ≤ fh.mBlockSize) (hj : j < 2 ^ 64) :
    ∃ h', fh.writeBlock h buf j bo = some h' ∧ h'.randomAccess = h.randomAccess ∧
      Holds h' fh.fileId fh.mBlockSize (overwrite F (j * fh.mBlockSize + bo) buf) := by
  obtain ⟨h', hw, hra, hother, hblock⟩ := writeBlock_spec fh hid h buf j bo hfit
  refine ⟨h', hw, hra, fun p hp => ?_⟩
  set B := fh.mBlockSize
  have hdm := Nat.div_add_mod p B
  have hlt := Nat.mod_lt p hB
  by_cases hpj : p / B = j
  · -- inside block `j`: the block lemma, read at `p % B`
    have hcell := hblock (p % B) hlt
    unfold storedByte
    rw [hpj, hcell, cell_overwrite, cell_overwrite]
    have hold := hh p hp
    unfold storedByte at hold
    rw [hpj] at hold
    rw [hpj] at hdm
    split_ifs with h1 h2 h2
    · congr 1
      rw [Nat.mul_comm] at hdm
      omega
    · exfalso; rw [Nat.mul_comm] at hdm; omega
    · exfalso; rw [Nat.mul_comm] at hdm; omega
    · exact hold
  · -- another block: untouched, and outside the written range
    rw [storedByte_of_block hid hj hother hp hpj, hh p hp, cell_overwrite, if_neg]
    rintro ⟨h1, h2⟩
    exact hpj (Nat.div_eq_of_lt_le (by linarith) (by rw [Nat.succ_mul]; omega))

end WriteBlock

/-- `Holds` only sees the cells of the reference file -/
theorem Holds.congr {h : KeyValueHelper} {fileId : String} {B : ℕ} {F G : List UInt8} (hh : Holds h fileId B F)
    (hFG : ∀ p, cell F p = cell G p) : Holds h fileId B G :=
  fun p hp => (hh p hp).trans (hFG p)

theorem cell_overwrite_nil (F : List UInt8) (off p : ℕ) : cell (overwrite F off []) p = cell F p := by
  simp

/-! ## The loops -/

section Loops

variable (fh : KeyValueFileHandle)

/-- **The write loop.** From the piece at file offset `offset + bufOffset`, with enough fuel, the remaining
iterations write the rest of the buffer: `Holds` moves to the reference overwritten with `buf.drop bufOffset` -/
theorem write_loop (hB : 0 < fh.mBlockSize) (hid : ValidFileId fh.fileId) (buf : List UInt8) (offset : ℕ)
    (hoff : offset + buf.length ≤ 2 ^ 63) :
    ∀ fuel blockId blockOffset bufOffset (h : KeyValueHelper) (F : List UInt8),
      buf.length - bufOffset ≤ fuel → blockOffset < fh.mBlockSize →
      (bufOffset < buf.length → blockId * fh.mBlockSize + blockOffset = offset + bufOffset) →
      Holds h fh.fileId fh.mBlockSize F →
      ∃ h', (blockLoop fh.mBlockSize buf.length fuel blockId blockOffset bufOffset).foldlM
          (fun helper p => fh.writeBlock helper ((buf.drop p.bufOffset).take p.blockSize) p.blockId p.blockOffset)
          h = some h' ∧
        h'.randomAccess = h.randomAccess ∧
        Holds h' fh.fileId fh.mBlockSize (overwrite F (offset + bufOffset) (buf.drop bufOffset)) := by
  intro fuel
  induction fuel with
  | zero =>
    intro blockId blockOffset bufOffset h F hfuel _ _ hh
    rw [List.drop_eq_nil_of_le (by omega)]
    exact ⟨h, by simp [blockLoop], rfl, hh.congr fun p => (cell_overwrite_nil F _ p).symm⟩
  | succ fuel ih =>
    intro blockId blockOffset bufOffset h F hfuel hbo hpos hh
    by_cases hlt : bufOffset < buf.length
    · set B := fh.mBlockSize
      set len := min (B - blockOffset) (buf.length - bufOffset) with hlen
      set chunk := (buf.drop bufOffset).take len
      have hchunk : chunk.length = len := by simp [chunk, hlen]
      have hstart := hpos hlt
      have hj : blockId < 2 ^ 64 := by nlinarith
      -- this iteration: one piece, one overwrite
      obtain ⟨h1, hw, hra1, hh1⟩ := writeBlock_holds fh hB hid hh chunk blockId blockOffset (by omega) hj
      rw [hstart] at hh1
      -- the rest of the loop, from the next block
      obtain ⟨h', hrest, hra', hh'⟩ := ih (blockId + 1) 0 (bufOffset + len) h1 _ (by omega) hB
        (fun hlt' => by rw [Nat.succ_mul]; omega) hh1
      refine ⟨h', ?_, hra'.trans hra1, ?_⟩
      · simp only [blockLoop, if_pos hlt, List.foldlM_cons]
        rw [hw]
        exact hrest
      · have e : buf.drop bufOffset = chunk ++ buf.drop (bufOffset + len) := by
          rw [← List.drop_drop, List.take_append_drop]
        rw [e, ← overwrite_append, hchunk, Nat.add_assoc]
        exact hh'
    · rw [List.drop_eq_nil_of_le (by omega)]
      exact ⟨h, by simp [blockLoop, hlt], rfl, hh.congr fun p => (cell_overwrite_nil F _ p).symm⟩

/-- one piece read by `readBlocks`: the reference bytes of the piece -/
theorem readBlock_window (hid : ValidFileId fh.fileId) {h : KeyValueHelper}
    {F : List UInt8} (hh : Holds h fh.fileId fh.mBlockSize F) (j bo len : ℕ) (hfit : bo + len ≤ fh.mBlockSize)
    (hend : j * fh.mBlockSize + bo + len ≤ 2 ^ 63) :
    (fh.readBlock h j bo len).map (fillToSize · len) = some (window F (j * fh.mBlockSize + bo) len) := by
  simp only [KeyValueFileHandle.readBlock, getKey_eq_blockKey hid, Option.bind_eq_bind, Option.bind_some,
    Option.pure_def, Option.map_some]
  rw [fillToSize_eq_resize (readBlock_length_le _ _ _ _), readBlock_eq_slice]
  congr 1
  apply eq_of_cell (by simp)
  intro i
  rw [cell_resize, cell_slice, cell_window]
  by_cases hi : i < len
  · -- byte `bo + i` of block `j` is file byte `j * B + bo + i`
    obtain ⟨hdiv, hmod⟩ := blockKey_div (B := fh.mBlockSize) j (bo + i) (by omega)
    have hs := hh (j * fh.mBlockSize + (bo + i)) (by omega)
    unfold storedByte at hs
    rw [hdiv, hmod] at hs
    simp only [hi, if_true, hs, Nat.add_assoc]
  · simp [hi]

/-- **The read loop.** From the piece at file offset `offset + bufOffset`, with enough fuel, the remaining
iterations read the reference bytes up to `offset + size` -/
theorem read_loop (hB : 0 < fh.mBlockSize) (hid : ValidFileId fh.fileId) {h : KeyValueHelper} {F : List UInt8}
    (hh : Holds h fh.fileId fh.mBlockSize F) (offset size : ℕ) (hoff : offset + size ≤ 2 ^ 63) :
    ∀ fuel blockId blockOffset bufOffset,
      size - bufOffset ≤ fuel → blockOffset < fh.mBlockSize →
      (bufOffset < size → blockId * fh.mBlockSize + blockOffset = offset + bufOffset) →
      ((blockLoop fh.mBlockSize size fuel blockId blockOffset bufOffset).mapM
          (fun p => (fh.readBlock h p.blockId p.blockOffset p.blockSize).map (fillToSize · p.blockSize))).map
        List.flatten = some (window F (offset + bufOffset) (size - bufOffset)) := by
  intro fuel
  induction fuel with
  | zero =>
    intro blockId blockOffset bufOffset hfuel _ _
    rw [show size - bufOffset = 0 by omega, window_zero]
    simp [blockLoop]
  | succ fuel ih =>
    intro blockId blockOffset bufOffset hfuel hbo hpos
    by_cases hlt : bufOffset < size
    · have hstart := hpos hlt
      -- this iteration: one piece of `min (B - blockOffset) (size - bufOffset)` bytes
      have hpiece := readBlock_window fh hid hh blockId blockOffset
        (min (fh.mBlockSize - blockOffset) (size - bufOffset)) (by omega) (by rw [hstart]; omega)
      rw [hstart] at hpiece
      -- the rest of the loop, from the next block
      have hrest := ih (blockId + 1) 0 (bufOffset + min (fh.mBlockSize - blockOffset) (size - bufOffset))
        (by omega) hB (fun hlt' => by rw [Nat.succ_mul]; omega)
      obtain ⟨rs, hrs, hrs'⟩ := Option.map_eq_some_iff.1 hrest
      simp only [blockLoop, if_pos hlt, List.mapM_cons]
      rw [hpiece, hrs]
      simp only [Option.bind_eq_bind, Option.bind_some, Option.pure_def, Option.map_some, List.flatten_cons, hrs',
        Option.some.injEq]
      rw [← Nat.add_assoc, ← window_add]
      congr 1
      omega
    · rw [show size - bufOffset = 0 by omega, window_zero]
      simp [blockLoop, hlt]

/-- **`write` is `overwrite`.** On either helper kind, writing `buf` at `offset` keeps `Holds` for the reference
overwritten at `offset`, and reports `buf.length` bytes written -/
theorem write_holds (hB : 0 < fh.mBlockSize) (hid : ValidFileId fh.fileId) {h : KeyValueHelper} {F : List UInt8}
    (hh : Holds h fh.fileId fh.mBlockSize F) (offset : ℕ) (buf : List UInt8) (hoff : offset + buf.length ≤ 2 ^ 63) :
    ∃ h', fh.write h offset buf = some (h', buf.length) ∧ h'.randomAccess = h.randomAccess ∧
      Holds h' fh.fileId fh.mBlockSize (overwrite F offset buf) := by
  unfold KeyValueFileHandle.write
  by_cases hempty : buf.isEmpty
  · -- an empty write changes nothing
    have hnil : buf = [] := List.isEmpty_iff.1 hempty
    subst hnil
    exact ⟨h, rfl, rfl, hh.congr fun p => (cell_overwrite_nil F _ p).symm⟩
  · -- the loop from the block of `offset`, with the whole buffer as fuel
    obtain ⟨h', hloop, hra, hh'⟩ := write_loop fh hB hid buf offset hoff buf.length
      (getBlockId offset fh.mBlockSize) (getBlockOffset offset fh.mBlockSize) 0 h F (by omega)
      (by rw [getBlockOffset_eq_mod]; exact Nat.mod_lt _ hB) (fun _ => getBlockId_mul_add _ _) hh
    refine ⟨h', ?_, hra, by simpa using hh'⟩
    simp only [hempty, Bool.false_eq_true, if_false, blockPieces]
    rw [hloop]
    rfl

/-- **`read` is `window`.** Under `Holds`, reading `n` bytes at `offset` returns exactly the `n` reference bytes
there, zeros past the end of the file included -/
theorem read_window (hB : 0 < fh.mBlockSize) (hid : ValidFileId fh.fileId) {h : KeyValueHelper} {F : List UInt8}
    (hh : Holds h fh.fileId fh.mBlockSize F) (offset n : ℕ) (hoff : offset + n ≤ 2 ^ 63) :
    fh.read h offset n = some (window F offset n) := by
  unfold KeyValueFileHandle.read KeyValueFileHandle.readBlocks
  by_cases hn : n = 0
  · subst hn
    simp [window_zero]
  · have hloop := read_loop fh hB hid hh offset n hoff n (getBlockId offset fh.mBlockSize)
      (getBlockOffset offset fh.mBlockSize) 0 (by omega) (by rw [getBlockOffset_eq_mod]; exact Nat.mod_lt _ hB)
      (fun _ => getBlockId_mul_add _ _)
    obtain ⟨rs, hrs, hrs'⟩ := Option.map_eq_some_iff.1 hloop
    simp only [hn, if_false, blockPieces]
    rw [hrs]
    simpa using hrs'

end Loops

/-! ## Truncate -/

section Truncate

variable (a : KeyValueAdapter)

theorem mem_truncateDeleted (cl nl no j : ℕ) :
    j ∈ KeyValueAdapter.truncateDeleted cl nl no ↔ j ≤ cl ∧ (nl < j ∨ j = nl ∧ no = 0) := by
  simp [KeyValueAdapter.truncateDeleted]

/-- the block `truncate` rewrites and how many of its bytes it keeps: block `size / B` cut at `size % B`, or the
block before it, whole, when `size` is on a block boundary -/
def remainderBlock (B size : ℕ) : ℕ × ℕ :=
  if getBlockOffset size B = 0 ∧ getBlockId size B > 0 then (getBlockId size B - 1, B)
  else (getBlockId size B, getBlockOffset size B)

/-- the helper after `truncate` has rewritten the remainder block -/
def remainderWrite (B : ℕ) (h : KeyValueHelper) (fileId : String) (size : ℕ) : KeyValueHelper :=
  let rb := (remainderBlock B size).1
  let rem := (remainderBlock B size).2
  if rem > 0 ∨ getBlockId size B > 0 then
    h.putObject (blockKey fileId rb) (fillToSize (readBlock h (blockKey fileId rb) 0 rem) rem) 0
  else h

theorem remainderWrite_randomAccess (B : ℕ) (h : KeyValueHelper) (fileId : String) (size : ℕ) :
    (remainderWrite B h fileId size).randomAccess = h.randomAccess := by
  simp only [remainderWrite]
  split_ifs <;> rfl

/-- a `deleteObjects` that removes exactly the keys of every list of at most `n` keys, and keeps the helper's kind -/
structure DeletesUpTo (n : ℕ) (deleteObjects : KeyValueHelper → List String → KeyValueHelper) : Prop where
  objects : ∀ h keys k, keys.length ≤ n → (deleteObjects h keys).objects k = if k ∈ keys then none else h.objects k
  randomAccess : ∀ h keys, (deleteObjects h keys).randomAccess = h.randomAccess

theorem deleteObjects_if_objects {n : ℕ} {del : KeyValueHelper → List String → KeyValueHelper}
    (hdel : DeletesUpTo n del) (h : KeyValueHelper) {keys : List String} (hn : keys.length ≤ n) (k : String) :
    (if keys.isEmpty then h else del h keys).objects k = if k ∈ keys then none else h.objects k := by
  by_cases hempty : keys.isEmpty
  · rw [if_pos hempty, List.isEmpty_iff.1 hempty]
    simp
  · rw [if_neg hempty]
    exact hdel.objects h keys k hn

theorem deleteObjects_if_randomAccess {n : ℕ} {del : KeyValueHelper → List String → KeyValueHelper}
    (hdel : DeletesUpTo n del) (h : KeyValueHelper) (keys : List String) :
    (if keys.isEmpty then h else del h keys).randomAccess = h.randomAccess := by
  split_ifs
  · rfl
  · exact hdel.randomAccess h keys

/-- what `truncate` does to the objects: the blocks of `truncateDeleted` are removed after the remainder block
is rewritten, when the helper's `deleteObjects` removes that many keys exactly -/
theorem truncate_spec {n : ℕ} {del : KeyValueHelper → List String → KeyValueHelper} (hdel : DeletesUpTo n del)
    {fileId : String} (hid : ValidFileId fileId) (h : KeyValueHelper) (size currentSize : ℕ) (hne : size ≠ currentSize)
    (hn : (KeyValueAdapter.truncateDeleted (getBlockId currentSize a.mBlockSize) (getBlockId size a.mBlockSize)
      (getBlockOffset size a.mBlockSize)).length ≤ n) :
    ∃ h', a.truncate del h fileId size currentSize = some h' ∧ h'.randomAccess = h.randomAccess ∧
      ∀ k, h'.objects k =
        if k ∈ (KeyValueAdapter.truncateDeleted (getBlockId currentSize a.mBlockSize) (getBlockId size a.mBlockSize)
          (getBlockOffset size a.mBlockSize)).map (blockKey fileId) then none
        else (remainderWrite a.mBlockSize h fileId size).objects k := by
  have hra : ∀ keys : List String, (if keys.isEmpty then remainderWrite a.mBlockSize h fileId size
      else del (remainderWrite a.mBlockSize h fileId size) keys).randomAccess = h.randomAccess := fun keys =>
    (deleteObjects_if_randomAccess hdel _ keys).trans (remainderWrite_randomAccess _ _ _ _)
  have hn' : ((KeyValueAdapter.truncateDeleted (getBlockId currentSize a.mBlockSize) (getBlockId size a.mBlockSize)
      (getBlockOffset size a.mBlockSize)).map (blockKey fileId)).length ≤ n := by
    rw [List.length_map]
    exact hn
  simp only [KeyValueAdapter.truncate, hne, if_false, mapM_getKey hid, getKey_eq_blockKey hid,
    Option.bind_eq_bind, Option.bind_some]
  -- the remainder block, as the source picks it
  by_cases hb : getBlockOffset size a.mBlockSize = 0 ∧ getBlockId size a.mBlockSize > 0
  · have hr : remainderBlock a.mBlockSize size = (getBlockId size a.mBlockSize - 1, a.mBlockSize) :=
      if_pos hb
    simp only [if_pos hb, Option.map_some, Option.bind_some]
    refine ⟨_, rfl, ?_, fun k => ?_⟩
    · have := hra (List.map (blockKey fileId) (KeyValueAdapter.truncateDeleted
        (getBlockId currentSize a.mBlockSize) (getBlockId size a.mBlockSize) (getBlockOffset size a.mBlockSize)))
      simpa only [remainderWrite, hr] using this
    · rw [deleteObjects_if_objects hdel _ hn']
      simp only [remainderWrite, hr]
  · have hr : remainderBlock a.mBlockSize size = (getBlockId size a.mBlockSize, getBlockOffset size a.mBlockSize) :=
      if_neg hb
    simp only [if_neg hb]
    refine ⟨_, rfl, ?_, fun k => ?_⟩
    · have := hra (List.map (blockKey fileId) (KeyValueAdapter.truncateDeleted
        (getBlockId currentSize a.mBlockSize) (getBlockId size a.mBlockSize) (getBlockOffset size a.mBlockSize)))
      simpa only [remainderWrite, hr] using this
    · rw [deleteObjects_if_objects hdel _ hn']
      simp only [remainderWrite, hr]

theorem mem_map_blockKey {fileId : String} (hid : ValidFileId fileId) {l : List ℕ} (hl : ∀ x ∈ l, x < 2 ^ 64)
    {j : ℕ} (hj : j < 2 ^ 64) : blockKey fileId j ∈ l.map (blockKey fileId) ↔ j ∈ l := by
  constructor
  · intro hm
    obtain ⟨x, hx, hxj⟩ := List.mem_map.1 hm
    rwa [← blockKey_inj hid (hl x hx) hj hxj]
  · exact List.mem_map_of_mem

/-- a block `truncate` deletes lies past the new size -/
theorem truncateDeleted_past {B cl nl no p : ℕ} (hsize : nl * B + no = size) (hno : no < B)
    (hdel : p / B ∈ KeyValueAdapter.truncateDeleted cl nl no) : size ≤ p := by
  rw [mem_truncateDeleted] at hdel
  have hdm := Nat.div_add_mod p B
  rw [Nat.mul_comm] at hdm
  rcases hdel.2 with hgt | ⟨heq, hno0⟩
  · have := Nat.mul_le_mul_right B (show nl + 1 ≤ p / B by omega)
    rw [Nat.succ_mul] at this
    omega
  · rw [heq] at hdm
    omega

/-- a block past the new size that `truncate` neither deletes nor rewrites lies past the old size as well -/
theorem truncate_kept_past {B cl nl no p cur co : ℕ} (hB : 0 < B) (hsize : nl * B + no = size)
    (hcur : cl * B + co = cur) (hco : co < B) (hdel : p / B ∉ KeyValueAdapter.truncateDeleted cl nl no)
    (hput : no > 0 → p / B ≠ nl) (hp : size ≤ p) : cur ≤ p := by
  rw [mem_truncateDeleted] at hdel
  have hdm := Nat.div_add_mod p B
  rw [Nat.mul_comm] at hdm
  have hmod := Nat.mod_lt p hB
  -- the block of `p` is at least the new last block
  have hge : nl ≤ p / B := by
    by_contra hlt
    have := Nat.mul_le_mul_right B (show p / B + 1 ≤ nl by omega)
    rw [Nat.succ_mul] at this
    omega
  -- and, not deleted, it is past the old last block
  have hcl : cl + 1 ≤ p / B := by
    by_contra hle
    rcases Nat.lt_or_ge nl (p / B) with hlt | hle'
    · exact hdel ⟨by omega, Or.inl hlt⟩
    · have hj : p / B = nl := by omega
      rcases Nat.eq_zero_or_pos no with h0 | h0
      · exact hdel ⟨by omega, Or.inr ⟨hj, h0⟩⟩
      · exact hput h0 hj
  have := Nat.mul_le_mul_right B hcl
  rw [Nat.succ_mul] at this
  omega

/-- the rewritten remainder block: its first `rem` bytes, then zeros -/
theorem cell_fillToSize_readBlock (h : KeyValueHelper) (key : String) (rem i : ℕ) :
    cell (fillToSize (readBlock h key 0 rem) rem) i = if i < rem then cell ((h.objects key).getD []) i else 0 := by
  rw [fillToSize_eq_resize (readBlock_length_le _ _ _ _), readBlock_eq_slice, cell_resize, cell_slice]
  split_ifs <;> simp

/-- on a helper without random access, a block rewritten with its first `rem` bytes holds them, then zeros -/
theorem cell_remainder_put {h : KeyValueHelper} (hra : h.randomAccess = false) (key : String) (rem i : ℕ) :
    cell (((h.putObject key (fillToSize (readBlock h key 0 rem) rem) 0).objects key).getD []) i =
      if i < rem then cell ((h.objects key).getD []) i else 0 := by
  rw [KeyValueHelper.putObject_objects, if_pos rfl, hra, if_neg (by simp), Option.getD_some, cell_fillToSize_readBlock]

/-- writing the object of one block leaves the object of every other block as it was -/
theorem putObject_objects_blockKey_ne {fileId : String} (hid : ValidFileId fileId) (h : KeyValueHelper)
    {j j' : ℕ} (hj : j < 2 ^ 64) (hj' : j' < 2 ^ 64) (hne : j ≠ j') (buf : List UInt8) (offset : ℕ) :
    (h.putObject (blockKey fileId j') buf offset).objects (blockKey fileId j) = h.objects (blockKey fileId j) := by
  rw [KeyValueHelper.putObject_objects, if_neg fun e => hne (blockKey_inj hid hj hj' e)]

/-- a block that `truncate` does not delete reads, once the remainder block is rewritten, as the reference cut or
zero-extended to `size` -/
theorem storedByte_remainderWrite {B : ℕ} (hB : 0 < B) {fileId : String} (hid : ValidFileId fileId)
    {h : KeyValueHelper} (hra : h.randomAccess = false) {F : List UInt8} (hh : Holds h fileId B F) {size p : ℕ}
    (hsize : size ≤ 2 ^ 63) (hp : p < 2 ^ 63)
    (hdel : p / B ∉ KeyValueAdapter.truncateDeleted (getBlockId F.length B) (getBlockId size B)
      (getBlockOffset size B)) :
    storedByte (remainderWrite B h fileId size) fileId B p = if p < size then cell F p else 0 := by
  set nl := getBlockId size B
  set no := getBlockOffset size B
  have hsz : nl * B + no = size := getBlockId_mul_add size B
  have hcur : getBlockId F.length B * B + getBlockOffset F.length B = F.length := getBlockId_mul_add F.length B
  have hco : getBlockOffset F.length B < B := (getBlockOffset_eq_mod F.length B).trans_lt (Nat.mod_lt _ hB)
  have hdm := Nat.div_add_mod p B
  rw [Nat.mul_comm] at hdm
  have hi := Nat.mod_lt p hB
  have hjlt : p / B < 2 ^ 64 := div_lt_of_offT hp
  have hnl : nl ≤ size := Nat.div_le_self _ _
  have hold := hh p hp
  unfold storedByte at hold ⊢
  -- a block kept as it was reads as before, and past the new size it only holds zeros
  have hkeep : (no > 0 → p / B ≠ nl) →
      cell ((h.objects (blockKey fileId (p / B))).getD []) (p % B) = if p < size then cell F p else 0 := by
    intro hput
    rw [hold]
    split_ifs with hlt
    · rfl
    · exact cell_of_length_le (truncate_kept_past hB hsz hcur hco hdel hput (by omega))
  by_cases hb : no = 0 ∧ nl > 0
  · -- `size` on a block boundary: the block before it is rewritten whole
    have hr : remainderBlock B size = (nl - 1, B) := if_pos hb
    have hprev : (nl - 1) * B + B = nl * B := by
      rw [← Nat.succ_mul, Nat.succ_eq_add_one, Nat.sub_add_cancel hb.2]
    simp only [remainderWrite, hr]
    rw [if_pos (Or.inr hb.2)]
    by_cases hjr : p / B = nl - 1
    · rw [hjr, cell_remainder_put hra, if_pos hi, ← hjr, hold, if_pos (by rw [hjr] at hdm; omega)]
    · rw [putObject_objects_blockKey_ne hid h hjlt (by omega) hjr]
      exact hkeep (fun h0 => absurd hb.1 (by omega))
  · have hr : remainderBlock B size = (nl, no) := if_neg hb
    simp only [remainderWrite, hr]
    by_cases hput : no > 0 ∨ nl > 0
    · -- the block of `size` is rewritten with its first `size % B` bytes
      rw [if_pos hput]
      by_cases hjr : p / B = nl
      · rw [hjr, cell_remainder_put hra, ← hjr, hold]
        rw [hjr] at hdm
        by_cases hlt : p % B < no
        · rw [if_pos hlt, if_pos (by omega)]
        · rw [if_neg hlt, if_neg (by omega)]
      · rw [putObject_objects_blockKey_ne hid h hjlt (by omega) hjr]
        exact hkeep (fun _ => hjr)
    · -- size 0: nothing is rewritten
      rw [if_neg hput]
      exact hkeep (fun h0 => absurd h0 (by omega))

/-- **`truncate` is `resize`** on a helper without random access (S3, Swift): with `currentSize` the reference
length, truncating keeps `Holds` for the reference cut or zero-extended to `size`, when the helper's `deleteObjects`
removes exactly the keys of the blocks it is given -/
theorem truncate_holds (hB : 0 < a.mBlockSize) {n : ℕ} {del : KeyValueHelper → List String → KeyValueHelper}
    (hdel : DeletesUpTo n del) {fileId : String} (hid : ValidFileId fileId) {h : KeyValueHelper}
    (hra : h.randomAccess = false) {F : List UInt8} (hh : Holds h fileId a.mBlockSize F) (size : ℕ)
    (hsize : size ≤ 2 ^ 63) (hF : F.length ≤ 2 ^ 63)
    (hn : (KeyValueAdapter.truncateDeleted (getBlockId F.length a.mBlockSize) (getBlockId size a.mBlockSize)
      (getBlockOffset size a.mBlockSize)).length ≤ n) :
    ∃ h', a.truncate del h fileId size F.length = some h' ∧ h'.randomAccess = h.randomAccess ∧
      Holds h' fileId a.mBlockSize (resize F size) := by
  by_cases heq : size = F.length
  · refine ⟨h, by simp [KeyValueAdapter.truncate, heq], rfl, ?_⟩
    rw [heq, resize_length]
    exact hh
  obtain ⟨h', ht, hra', hobj⟩ := truncate_spec a hdel hid h size F.length heq hn
  refine ⟨h', ht, hra', fun p hp => ?_⟩
  set B := a.mBlockSize
  set nl := getBlockId size B
  set no := getBlockOffset size B
  have hsz : nl * B + no = size := getBlockId_mul_add size B
  have hno : no < B := (getBlockOffset_eq_mod size B).trans_lt (Nat.mod_lt size hB)
  have hjlt : p / B < 2 ^ 64 := div_lt_of_offT hp
  have hdeleted : ∀ x ∈ KeyValueAdapter.truncateDeleted (getBlockId F.length B) nl no, x < 2 ^ 64 := by
    intro x hx
    have := (mem_truncateDeleted _ _ _ _).1 hx
    have : getBlockId F.length B ≤ F.length := Nat.div_le_self _ _
    omega
  unfold storedByte
  rw [cell_resize, hobj]
  simp only [mem_map_blockKey hid hdeleted hjlt]
  by_cases hdel : p / B ∈ KeyValueAdapter.truncateDeleted (getBlockId F.length B) nl no
  · -- a deleted block reads as zeros, and lies past the new size
    have := truncateDeleted_past hsz hno hdel
    rw [if_pos hdel, if_neg (by omega)]
    simp
  · rw [if_neg hdel]
    exact storedByte_remainderWrite hB hid hra hh hsize hp hdel

end Truncate

/-! ## Runs -/

/-- one file operation through the adapter on a helper whose `deleteObjects` is `deleteObjects`, `currentSize`
being the reference length -/
def adapterApply (a : KeyValueAdapter) (deleteObjects : KeyValueHelper → List String → KeyValueHelper)
    (fileId : String) (h : KeyValueHelper) (F : List UInt8) : FileOp → Option KeyValueHelper
  | .write offset buf => ((a.open fileId).write h offset buf).map Prod.fst
  | .truncate size => a.truncate deleteObjects h fileId size F.length

/-- a sequence of file operations through the adapter, the reference file alongside for `currentSize` -/
def adapterRunOn (a : KeyValueAdapter) (deleteObjects : KeyValueHelper → List String → KeyValueHelper)
    (fileId : String) : KeyValueHelper → List UInt8 → List FileOp → Option KeyValueHelper
  | h, _, [] => some h
  | h, F, op :: ops =>
    (adapterApply a deleteObjects fileId h F op).bind fun h' => adapterRunOn a deleteObjects fileId h' (op.apply F) ops

/-- a run on a helper whose `deleteObjects` removes every key it is given, as each helper does with up to
`MAX_DELETE_OBJECTS` keys -/
def adapterRun (a : KeyValueAdapter) (fileId : String) :
    KeyValueHelper → List UInt8 → List FileOp → Option KeyValueHelper :=
  adapterRunOn a KeyValueHelper.deleteObjects fileId

/-- how many block objects an operation hands to the helper's `deleteObjects`, `L` being the reference length -/
def FileOp.deletedBlocks (B L : ℕ) : FileOp → ℕ
  | .write _ _ => 0
  | .truncate size =>
    (KeyValueAdapter.truncateDeleted (getBlockId L B) (getBlockId size B) (getBlockOffset size B)).length

/-- what each operation of a run from `F` hands to the helper's `deleteObjects`, counted in blocks -/
def deletedBlocksRun (B : ℕ) : List UInt8 → List FileOp → List ℕ
  | _, [] => []
  | F, op :: ops => op.deletedBlocks B F.length :: deletedBlocksRun B (op.apply F) ops

/-- the reference file after a sequence of operations -/
def referenceRun (F : List UInt8) (ops : List FileOp) : List UInt8 := ops.foldl FileOp.apply F

/-- a file none of whose blocks has an object holds the empty file -/
theorem holds_empty (randomAccess : Bool) (fileId : String) (B : ℕ) :
    Holds ⟨randomAccess, fun _ => none⟩ fileId B [] :=
  fun _ _ => rfl

section Run

variable (a : KeyValueAdapter) {fileId : String} {n : ℕ} {del : KeyValueHelper → List String → KeyValueHelper}

/-- one operation on a helper without random access keeps `Holds`, and the reference within `off_t` -/
theorem adapterApply_holds (hB : 0 < a.mBlockSize) (hdel : DeletesUpTo n del) (hid : ValidFileId fileId)
    {h : KeyValueHelper} (hra : h.randomAccess = false) {F : List UInt8} (hh : Holds h fileId a.mBlockSize F)
    (hF : F.length ≤ 2 ^ 63) (op : FileOp) (hop : op.InRange) (hn : op.deletedBlocks a.mBlockSize F.length ≤ n) :
    ∃ h', adapterApply a del fileId h F op = some h' ∧ h'.randomAccess = false ∧
      Holds h' fileId a.mBlockSize (op.apply F) ∧ (op.apply F).length ≤ 2 ^ 63 := by
  cases op with
  | write offset buf =>
    simp only [FileOp.InRange] at hop
    obtain ⟨h', hw, hra', hh'⟩ := write_holds (a.open fileId) hB hid hh offset buf hop
    refine ⟨h', by simp [adapterApply, hw], hra'.trans hra, hh', ?_⟩
    simp only [FileOp.apply, length_overwrite]
    omega
  | truncate size =>
    simp only [FileOp.InRange] at hop
    obtain ⟨h', ht, hra', hh'⟩ := truncate_holds a hB hdel hid hra hh size hop hF hn
    exact ⟨h', ht, hra'.trans hra, hh', by simpa [FileOp.apply] using hop⟩

/-- **The adapter refines the flat file** on a helper without random access whose `deleteObjects` removes exactly
every list of at most `n` keys: for every block size, from any state holding a reference file, after any sequence of
`off_t` writes and truncates (each truncate given the reference length as `currentSize`) none of which hands more
than `n` blocks to `deleteObjects`, every `off_t` read returns exactly the reference bytes -/
theorem adapterRunOn_refines (hB : 0 < a.mBlockSize) (hdel : DeletesUpTo n del) (hid : ValidFileId fileId)
    (h : KeyValueHelper) (hra : h.randomAccess = false) (F : List UInt8) (hh : Holds h fileId a.mBlockSize F)
    (hF : F.length ≤ 2 ^ 63) (ops : List FileOp) (hops : ∀ op ∈ ops, op.InRange)
    (hbatch : ∀ c ∈ deletedBlocksRun a.mBlockSize F ops, c ≤ n) :
    ∃ h', adapterRunOn a del fileId h F ops = some h' ∧
      ∀ offset m, offset + m ≤ 2 ^ 63 →
        (a.open fileId).read h' offset m = some (window (referenceRun F ops) offset m) := by
  -- induction on the operations, the helper and the reference generalized; `Holds` carries the step
  induction ops generalizing h F with
  | nil => exact ⟨h, rfl, fun offset m hoff => read_window (a.open fileId) hB hid hh offset m hoff⟩
  | cons op ops ih =>
    obtain ⟨h1, h1eq, hra1, hh1, hF1⟩ := adapterApply_holds a hB hdel hid hra hh hF op (hops op List.mem_cons_self)
      (hbatch _ List.mem_cons_self)
    obtain ⟨h', hrun, hread⟩ := ih h1 hra1 (op.apply F) hh1 hF1 (fun o ho => hops o (List.mem_cons_of_mem op ho))
      (fun c hc => hbatch c (List.mem_cons_of_mem _ hc))
    exact ⟨h', by simp [adapterRunOn, h1eq, hrun], hread⟩

end Run

/-! ## CephRados -/

/-- **Stale tail on a random-access helper.** On CephRados with 4-byte blocks: write `[1, 2, 3, 4]` at 0, truncate
to 2, truncate back to 4. The reference file is `[1, 2, 0, 0]`; the adapter reads `[1, 2, 3, 4]`, because the shrinking
truncate rewrote block 0 with `putObject` at offset 0, which overwrites `[0, 2)` and leaves `[2, 4)` in place -/
theorem randomAccess_truncate_stale_tail :
    (adapterRun ⟨4⟩ "file" ⟨true, fun _ => none⟩ [] [.write 0 [1, 2, 3, 4], .truncate 2, .truncate 4]).bind
        (fun h => (KeyValueAdapter.open ⟨4⟩ "file").read h 0 4) = some [1, 2, 3, 4] ∧
      window (referenceRun [] [.write 0 [1, 2, 3, 4], .truncate 2, .truncate 4]) 0 4 = [1, 2, 0, 0] := by
  decide

end OneHelpers.KeyValue
