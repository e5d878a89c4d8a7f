/-
Model of `KeyValueAdapter` and `KeyValueFileHandle` (`src/keyValueAdapter.cc`): a POSIX file over fixed-size
blocks, block `i` of file `fileId` being the object `getKey fileId i`.

- `blockLoop` is the `for (bufOffset = 0; bufOffset < size; blockOffset = 0, ++blockId)` loop that `write` and
  `readBlocks` share: it cuts `[offset, offset + size)` into per-block pieces. The loop runs on a fuel of `size`
  iterations; `blockLoop_cover` shows that for `blockSize > 0` the fuel never runs out and the pieces tile the range.
- `writeBlock` is the read-modify-write of one piece: on a random-access helper a `putObject` at the block offset, on
  the others a fetch of the block, the new bytes stitched between the fetched prefix (zero-filled to the block
  offset) and the fetched suffix, and a whole-object `putObject`.
- `truncate` deletes the blocks past the new end and rewrites the remainder block through `fillToSize`.
- `unlinkOn` and `truncate` hand their keys to the helper's own `deleteObjects`, a parameter here: the three helpers
  delete in batches, each their own way (`DeleteObjects`).
The per-block pieces of one `write` touch distinct blocks (`blockLoop_blockId_lt`), so the executor's order of the
`writeFutures` is immaterial and the model applies them in loop order. Helper calls are modelled as succeeding; the
only failure left is `getKey` throwing on a file id made of '/' characters (`none`).
-/
import Mathlib.Tactic
import OneHelpers.Storage.KeyValueHelper

namespace OneHelpers.KeyValue

open SparseArray

/-! ## Block arithmetic -/

/-- `getBlockId` -/
def getBlockId (offset blockSize : ℕ) : ℕ := offset / blockSize

/-- `getBlockOffset` -/
def getBlockOffset (offset blockSize : ℕ) : ℕ := offset - getBlockId offset blockSize * blockSize

theorem getBlockOffset_eq_mod (offset blockSize : ℕ) : getBlockOffset offset blockSize = offset % blockSize := by
  unfold getBlockOffset getBlockId
  have := Nat.div_add_mod offset blockSize
  rw [Nat.mul_comm] at this
  omega

theorem getBlockId_mul_add (offset blockSize : ℕ) :
    getBlockId offset blockSize * blockSize + getBlockOffset offset blockSize = offset := by
  rw [getBlockOffset_eq_mod, getBlockId, Nat.mul_comm]
  exact Nat.div_add_mod offset blockSize

/-! ## Helper access -/

/-- the anonymous-namespace `readBlock`: an absent object (ENOENT) reads as an empty buffer -/
def readBlock (helper : KeyValueHelper) (key : String) (offset size : ℕ) : List UInt8 :=
  (helper.getObject key offset size).getD []

/-- `fillToSize`: a buffer shorter than `size` is zero-padded to it, a longer one is returned as it is -/
def fillToSize (buf : List UInt8) (size : ℕ) : List UInt8 :=
  if buf.length < size then buf ++ List.replicate (size - buf.length) 0 else buf

theorem fillToSize_eq_resize {buf : List UInt8} {size : ℕ} (h : buf.length ≤ size) :
    fillToSize buf size = resize buf size := by
  unfold fillToSize resize
  split_ifs with hl
  · rw [List.take_of_length_le h]
  · have e : buf.length = size := by omega
    simp [e]

theorem readBlock_eq_slice (helper : KeyValueHelper) (key : String) (offset size : ℕ) :
    readBlock helper key offset size = slice ((helper.objects key).getD []) offset size := by
  unfold readBlock KeyValueHelper.getObject
  cases helper.objects key <;> simp [slice]

theorem readBlock_length_le (helper : KeyValueHelper) (key : String) (offset size : ℕ) :
    (readBlock helper key offset size).length ≤ size := by
  unfold readBlock KeyValueHelper.getObject
  cases helper.objects key <;> simp

/-! ## The block loop -/

/-- one iteration of the block loop: the block, the offset in it, the offset in the buffer and the length -/
structure Piece where
  blockId : ℕ
  blockOffset : ℕ
  bufOffset : ℕ
  blockSize : ℕ
deriving DecidableEq, Repr

/-- `for (bufOffset = 0; bufOffset < size; blockOffset = 0, ++blockId)` with
`blockSize = min(m_blockSize - blockOffset, size - bufOffset)` and `bufOffset += blockSize` -/
def blockLoop (mBlockSize size : ℕ) : ℕ → ℕ → ℕ → ℕ → List Piece
  | 0, _, _, _ => []
  | fuel + 1, blockId, blockOffset, bufOffset =>
    if bufOffset < size then
      let blockSize := min (mBlockSize - blockOffset) (size - bufOffset)
      ⟨blockId, blockOffset, bufOffset, blockSize⟩ ::
        blockLoop mBlockSize size fuel (blockId + 1) 0 (bufOffset + blockSize)
    else []

/-- the pieces of `[offset, offset + size)`: the loop started at the block of `offset`, with `size` as fuel -/
def blockPieces (mBlockSize offset size : ℕ) : List Piece :=
  blockLoop mBlockSize size size (getBlockId offset mBlockSize) (getBlockOffset offset mBlockSize) 0

theorem blockLoop_blockId_ge (B size fuel blockId blockOffset bufOffset : ℕ) :
    ∀ p ∈ blockLoop B size fuel blockId blockOffset bufOffset, blockId ≤ p.blockId := by
  induction fuel generalizing blockId blockOffset bufOffset with
  | zero => simp [blockLoop]
  | succ fuel ih =>
    intro p hp
    simp only [blockLoop] at hp
    split_ifs at hp
    · rcases List.mem_cons.1 hp with rfl | hp
      · exact le_rfl
      · exact Nat.le_of_succ_le (ih _ _ _ p hp)
    · simp at hp

/-- the pieces of one loop lie in strictly increasing blocks, so no two of them touch one object -/
theorem blockLoop_blockId_lt (B size fuel blockId blockOffset bufOffset : ℕ) :
    (blockLoop B size fuel blockId blockOffset bufOffset).Pairwise (fun p q => p.blockId < q.blockId) := by
  induction fuel generalizing blockId blockOffset bufOffset with
  | zero => simp [blockLoop]
  | succ fuel ih =>
    simp only [blockLoop]
    split_ifs
    · refine List.Pairwise.cons (fun q hq => ?_) (ih _ _ _)
      exact Nat.lt_of_succ_le (blockLoop_blockId_ge B size fuel _ _ _ q hq)
    · exact List.Pairwise.nil

/-! ## The file handle and the adapter -/

/-- `KeyValueFileHandle`: the file id and the block size it was opened with -/
structure KeyValueFileHandle where
  fileId : String
  mBlockSize : ℕ

/-- `KeyValueAdapter`: the block size of the files it opens -/
structure KeyValueAdapter where
  mBlockSize : ℕ

/-- the `filledBuf` that `writeBlock` builds on a helper without random access: the fetched block cut to the block
offset and zero-filled up to it, the new bytes, then the fetched bytes past them -/
def stitchBlock (fetchedBuf buf : List UInt8) (blockOffset : ℕ) : List UInt8 :=
  let filledBuf : List UInt8 :=
    if blockOffset > 0 then
      fillToSize (if fetchedBuf.length ≥ blockOffset then fetchedBuf.take blockOffset else fetchedBuf) blockOffset
    else []
  let filledBuf := filledBuf ++ buf
  if filledBuf.length < fetchedBuf.length then filledBuf ++ fetchedBuf.drop filledBuf.length else filledBuf

/-- the stitched block is the fetched block overwritten in place -/
theorem stitchBlock_eq_overwrite (fetchedBuf buf : List UInt8) (blockOffset : ℕ) :
    stitchBlock fetchedBuf buf blockOffset = overwrite fetchedBuf blockOffset buf := by
  have hpre : (if blockOffset > 0 then
      fillToSize (if fetchedBuf.length ≥ blockOffset then fetchedBuf.take blockOffset else fetchedBuf) blockOffset
      else []) = resize fetchedBuf blockOffset := by
    split_ifs with h0 hl
    · rw [fillToSize_eq_resize (by simp)]
      unfold resize
      simp [List.take_take, List.length_take, Nat.min_eq_left hl]
      omega
    · rw [fillToSize_eq_resize (by omega)]
    · simp [resize, show blockOffset = 0 by omega]
  simp only [stitchBlock, hpre, overwrite, List.length_append, length_resize]
  split_ifs with hlt
  · rfl
  · rw [List.drop_eq_nil_of_le (by omega), List.append_nil]

namespace KeyValueFileHandle

variable (fh : KeyValueFileHandle)

/-- `KeyValueFileHandle::readBlock`: the piece of block `blockId` at `blockOffset`, as `::readBlock` returns it -/
def readBlock (helper : KeyValueHelper) (blockId blockOffset size : ℕ) : Option (List UInt8) := do
  let key ← getKey fh.fileId blockId
  pure (KeyValue.readBlock helper key blockOffset size)

/-- `KeyValueFileHandle::writeBlock` -/
def writeBlock (helper : KeyValueHelper) (buf : List UInt8) (blockId blockOffset : ℕ) :
    Option KeyValueHelper := do
  let key ← getKey fh.fileId blockId
  if buf.length ≠ fh.mBlockSize then
    if helper.hasRandomAccess then
      pure (helper.putObject key buf blockOffset)
    else
      let fetchedBuf := KeyValue.readBlock helper key 0 fh.mBlockSize
      pure (helper.putObject key (stitchBlock fetchedBuf buf blockOffset) 0)
  else
    pure (helper.putObject key buf 0)

/-- `KeyValueFileHandle::write`: the helper after all pieces are written, and the size reported -/
def write (helper : KeyValueHelper) (offset : ℕ) (buf : List UInt8) : Option (KeyValueHelper × ℕ) :=
  if buf.isEmpty then some (helper, 0)
  else do
    let helper ← (blockPieces fh.mBlockSize offset buf.length).foldlM
      (fun helper p => fh.writeBlock helper ((buf.drop p.bufOffset).take p.blockSize) p.blockId p.blockOffset)
      helper
    pure (helper, buf.length)

/-- `KeyValueFileHandle::readBlocks`, which `read` runs: each piece zero-filled to its length, concatenated -/
def readBlocks (helper : KeyValueHelper) (offset requestedSize : ℕ) : Option (List UInt8) :=
  if requestedSize = 0 then some []
  else do
    let results ← (blockPieces fh.mBlockSize offset requestedSize).mapM
      (fun p => (fh.readBlock helper p.blockId p.blockOffset p.blockSize).map (fillToSize · p.blockSize))
    pure results.flatten

/-- `KeyValueFileHandle::read` -/
def read (helper : KeyValueHelper) (offset size : ℕ) : Option (List UInt8) := fh.readBlocks helper offset size

end KeyValueFileHandle

namespace KeyValueAdapter

variable (a : KeyValueAdapter)

/-- `KeyValueAdapter::open` -/
def «open» (fileId : String) : KeyValueFileHandle := ⟨fileId, a.mBlockSize⟩

/-- `KeyValueAdapter::unlink` on a helper whose `deleteObjects` is `deleteObjects`: the keys of every block up to
`currentSize / blockSize` are handed to it -/
def unlinkOn (deleteObjects : KeyValueHelper → List String → KeyValueHelper) (helper : KeyValueHelper)
    (fileId : String) (currentSize : ℕ) : Option KeyValueHelper :=
  if currentSize = 0 then some helper
  else do
    let keysToDelete ← (List.range (currentSize / a.mBlockSize + 1)).mapM (getKey fileId)
    pure (deleteObjects helper keysToDelete)

/-- the objects `truncate` deletes: those past the new last block, and the new last block when the new size is on
a block boundary -/
def truncateDeleted (currentLastBlockId newLastBlockId newLastBlockOffset : ℕ) : List ℕ :=
  (List.range (currentLastBlockId + 1)).filter fun objectId =>
    objectId > newLastBlockId || (objectId == newLastBlockId && newLastBlockOffset == 0)

/-- `KeyValueAdapter::truncate` on a helper whose `deleteObjects` is `deleteObjects` -/
def truncate (deleteObjects : KeyValueHelper → List String → KeyValueHelper) (helper : KeyValueHelper)
    (fileId : String) (size currentSize : ℕ) : Option KeyValueHelper :=
  if size = currentSize then some helper
  else do
    let defBlockSize := a.mBlockSize
    let currentLastBlockId := getBlockId currentSize defBlockSize
    let newLastBlockId := getBlockId size defBlockSize
    let newLastBlockOffset := getBlockOffset size defBlockSize
    let keysToDelete ←
      (truncateDeleted currentLastBlockId newLastBlockId newLastBlockOffset).mapM (getKey fileId)
    let key ← getKey fileId newLastBlockId
    -- a size on a block boundary keeps the previous block, whole
    let (key, remainderBlockSize) ←
      if newLastBlockOffset = 0 ∧ newLastBlockId > 0 then
        (getKey fileId (newLastBlockId - 1)).map fun k => (k, defBlockSize)
      else some (key, newLastBlockOffset)
    let helper :=
      if remainderBlockSize > 0 ∨ newLastBlockId > 0 then
        helper.putObject key (fillToSize (readBlock helper key 0 remainderBlockSize) remainderBlockSize) 0
      else helper
    pure (if keysToDelete.isEmpty then helper else deleteObjects helper keysToDelete)

end KeyValueAdapter

end OneHelpers.KeyValue
