/-
The batched deletion of `S3Helper`, `SwiftHelper` and `CephRadosHelper` (`src/s3Helper.cc`, `src/swiftHelper.cc`,
`src/cephRadosHelper.cc`), and `KeyValueAdapter::unlink` on top of them.

The three helpers run the same loop: `offset` goes from 0 in steps of `MAX_DELETE_OBJECTS` while it is below the
number of keys, and each round deletes `folly::range(keys.begin(), keys.begin() + batchSize)` with
`batchSize = min(keys.size() - offset, MAX_DELETE_OBJECTS)`. S3 and Swift send a batch as one request, CephRados
removes its keys one by one and counts ENOENT as success. The loop makes the right number of rounds with the right
batch sizes, but every range starts at `keys.begin()`, not at `keys.begin() + offset`: each batch is a prefix of the
list, so the helpers delete exactly the first `MAX_DELETE_OBJECTS` keys, the first key once per round, and keep
every key after them.

S3 moves its request into the retried call of the first round, and every later round sends the moved-from request,
whose bucket name is empty; the model takes S3 to answer it with an error, which `throwOnError` throws
(`S3Helper.deleteObjectsOutcome_eq`). Swift moves its batch into the retried call too, which matters only on a retry;
retries and the other errors are not modelled. The `unsigned` offset would wrap on a list of 2^32 keys; the model
counts it in ℕ.

Results: `deleteBatches_eq` (the batches, round by round), `mem_flatten_deleteBatches` (the keys deleted are the
first batch), `objects_deleteInBatches` and `S3Helper.deleteObjectsOutcome_eq` (what each helper leaves, and that S3
throws past one batch), `nonRandomAccess_refines` (on S3 and Swift the adapter's writes and truncates refine the flat
file while no truncate deletes more than `MAX_DELETE_OBJECTS` blocks), `unlinkOn_eq` (`KeyValueAdapter::unlink` on
any helper), and `deleteObjects_keeps_past_first_batch` (more than `MAX_DELETE_OBJECTS` keys, or the unlink of a file
of more than `MAX_DELETE_OBJECTS` blocks, leave objects behind).
-/
import Mathlib.Tactic
import OneHelpers.Storage.KeyValueRefinement

namespace OneHelpers.KeyValue

open SparseArray

/-! ## The batching loop -/

/-- `MAX_DELETE_OBJECTS` of `keyValueHelper.h` -/
def MAX_DELETE_OBJECTS : ℕ := 1000

section Batches

variable {α : Type*}

/-- the batches of the loop from `offset` on, `fuel` rounds at most: each round takes `batchSize` keys from the
front of the list -/
def deleteBatchesLoop (keys : List α) : ℕ → ℕ → List (List α)
  | 0, _ => []
  | fuel + 1, offset =>
    if offset < keys.length then
      keys.take (min (keys.length - offset) MAX_DELETE_OBJECTS) ::
        deleteBatchesLoop keys fuel (offset + MAX_DELETE_OBJECTS)
    else []

/-- the batches the helpers delete; the offset grows by `MAX_DELETE_OBJECTS` each round, so `keys.length` rounds
are more than the loop makes -/
def deleteBatches (keys : List α) : List (List α) := deleteBatchesLoop keys keys.length 0

/-- the rounds from `offset` on, `⌈(n - offset) / MAX_DELETE_OBJECTS⌉` of them, each with its batch -/
theorem deleteBatchesLoop_eq (keys : List α) (fuel offset : ℕ)
    (hfuel : (keys.length - offset + MAX_DELETE_OBJECTS - 1) / MAX_DELETE_OBJECTS ≤ fuel) :
    deleteBatchesLoop keys fuel offset =
      (List.range ((keys.length - offset + MAX_DELETE_OBJECTS - 1) / MAX_DELETE_OBJECTS)).map fun i =>
        keys.take (min (keys.length - (offset + i * MAX_DELETE_OBJECTS)) MAX_DELETE_OBJECTS) := by
  -- induction on the fuel; the offset moves on by a batch each round
  induction fuel generalizing offset with
  | zero =>
    have hr : (keys.length - offset + MAX_DELETE_OBJECTS - 1) / MAX_DELETE_OBJECTS = 0 := Nat.le_zero.mp hfuel
    rw [hr]
    rfl
  | succ fuel ih =>
    by_cases hlt : offset < keys.length
    · -- one round more than from the next offset
      have hr : (keys.length - offset + MAX_DELETE_OBJECTS - 1) / MAX_DELETE_OBJECTS =
          (keys.length - (offset + MAX_DELETE_OBJECTS) + MAX_DELETE_OBJECTS - 1) / MAX_DELETE_OBJECTS + 1 := by
        unfold MAX_DELETE_OBJECTS
        omega
      rw [hr] at hfuel ⊢
      rw [deleteBatchesLoop, if_pos hlt, ih (offset + MAX_DELETE_OBJECTS) (by omega), List.range_succ_eq_map,
        List.map_cons, List.map_map]
      congr 1
      apply List.map_congr_left
      intro i _
      have hoff : offset + MAX_DELETE_OBJECTS + i * MAX_DELETE_OBJECTS = offset + (i + 1) * MAX_DELETE_OBJECTS := by
        ring
      simp only [Function.comp, Nat.succ_eq_add_one, hoff]
    · have hr : (keys.length - offset + MAX_DELETE_OBJECTS - 1) / MAX_DELETE_OBJECTS = 0 := by
        unfold MAX_DELETE_OBJECTS
        omega
      rw [hr, deleteBatchesLoop, if_neg hlt]
      rfl

/-- **The loop's batches**: round `i` of `⌈n / MAX_DELETE_OBJECTS⌉` takes `min (n - i * MAX_DELETE_OBJECTS)
MAX_DELETE_OBJECTS` keys, all from the front of the list -/
theorem deleteBatches_eq (keys : List α) :
    deleteBatches keys =
      (List.range ((keys.length + MAX_DELETE_OBJECTS - 1) / MAX_DELETE_OBJECTS)).map fun i =>
        keys.take (min (keys.length - i * MAX_DELETE_OBJECTS) MAX_DELETE_OBJECTS) := by
  have hfuel : (keys.length - 0 + MAX_DELETE_OBJECTS - 1) / MAX_DELETE_OBJECTS ≤ keys.length := by
    unfold MAX_DELETE_OBJECTS
    omega
  rw [deleteBatches, deleteBatchesLoop_eq keys _ 0 hfuel]
  simp

theorem length_le_of_mem_deleteBatches {keys b : List α} (hb : b ∈ deleteBatches keys) :
    b.length ≤ MAX_DELETE_OBJECTS := by
  rw [deleteBatches_eq, List.mem_map] at hb
  obtain ⟨i, -, rfl⟩ := hb
  rw [List.length_take]
  omega

/-- **What the batches delete**: a key is in some batch exactly when it is among the first `MAX_DELETE_OBJECTS` -/
theorem mem_flatten_deleteBatches {keys : List α} {k : α} :
    k ∈ (deleteBatches keys).flatten ↔ k ∈ keys.take MAX_DELETE_OBJECTS := by
  rw [deleteBatches_eq]
  simp only [List.mem_flatten, List.mem_map, List.mem_range]
  constructor
  · rintro ⟨b, ⟨i, -, rfl⟩, hk⟩
    exact List.take_subset_take_left keys (Nat.min_le_right _ _) hk
  · intro hk
    -- the first round takes the first `MAX_DELETE_OBJECTS` keys, or all of them
    have hpos : 0 < keys.length := by
      cases keys with
      | nil => simp at hk
      | cons _ _ => simp
    refine ⟨_, ⟨0, ?_, rfl⟩, ?_⟩
    · unfold MAX_DELETE_OBJECTS
      omega
    · rw [Nat.zero_mul, Nat.sub_zero, Nat.min_comm, ← List.take_eq_take_min]
      exact hk

/-- past `MAX_DELETE_OBJECTS` keys the loop makes two rounds or more, and both of the first two start with the
first key -/
theorem deleteBatches_of_lt {keys : List α} (hlen : MAX_DELETE_OBJECTS < keys.length) :
    ∃ rest, deleteBatches keys = keys.take MAX_DELETE_OBJECTS ::
      keys.take (min (keys.length - MAX_DELETE_OBJECTS) MAX_DELETE_OBJECTS) :: rest := by
  have hr : (keys.length + MAX_DELETE_OBJECTS - 1) / MAX_DELETE_OBJECTS =
      (keys.length + MAX_DELETE_OBJECTS - 1) / MAX_DELETE_OBJECTS - 2 + 1 + 1 := by
    unfold MAX_DELETE_OBJECTS at hlen ⊢
    omega
  rw [deleteBatches_eq, hr, List.range_succ_eq_map, List.range_succ_eq_map]
  simp only [List.map_cons, List.cons.injEq]
  refine ⟨_, ?_, ?_, rfl⟩
  · rw [Nat.zero_mul, Nat.sub_zero, Nat.min_eq_right hlen.le]
  · rw [Nat.succ_eq_add_one, Nat.zero_add, Nat.one_mul]

/-- up to `MAX_DELETE_OBJECTS` keys make one round, which takes them all -/
theorem deleteBatches_of_le {keys : List α} (hne : keys ≠ []) (hlen : keys.length ≤ MAX_DELETE_OBJECTS) :
    deleteBatches keys = [keys] := by
  have hpos : 0 < keys.length := List.length_pos_of_ne_nil hne
  have hr : (keys.length + MAX_DELETE_OBJECTS - 1) / MAX_DELETE_OBJECTS = 1 := by
    unfold MAX_DELETE_OBJECTS at hlen ⊢
    omega
  rw [deleteBatches_eq, hr, List.range_one, List.map_singleton, Nat.zero_mul, Nat.sub_zero,
    Nat.min_eq_left hlen, List.take_length]

end Batches

/-! ## The three helpers -/

/-- a request that removes exactly the keys of its batch -/
def DeletesBatch (request : KeyValueHelper → List String → KeyValueHelper) : Prop :=
  ∀ h batch k, (request h batch).objects k = if k ∈ batch then none else h.objects k

/-- the helpers' common loop: the batches in order, each handed to `request` -/
def deleteInBatches (request : KeyValueHelper → List String → KeyValueHelper) (h : KeyValueHelper)
    (keys : List String) : KeyValueHelper :=
  (deleteBatches keys).foldl request h

namespace S3Helper

/-- `m_client->DeleteObjects(request)` for one batch: a request with its bucket name set deletes the batch; a request
without one (the moved-from request of a later round, whose name is empty) gets an error from S3 -/
def sendDeleteObjects (bucketSet : Bool) (h : KeyValueHelper) (batch : List String) : Option KeyValueHelper :=
  if bucketSet then some (h.deleteObjects batch) else none

/-- the loop of `S3Helper::deleteObjects`: the request is moved into the retried call of the first round, so every
later round sends it without its bucket name, and `throwOnError` throws the first error. The objects left, and
whether it threw -/
def deleteLoop (bucketSet : Bool) (h : KeyValueHelper) : List (List String) → KeyValueHelper × Bool
  | [] => (h, false)
  | batch :: batches =>
    match sendDeleteObjects bucketSet h batch with
    | none => (h, true)
    | some h' => deleteLoop false h' batches

/-- `S3Helper::deleteObjects`: the objects left, and whether it threw -/
def deleteObjectsOutcome (h : KeyValueHelper) (keys : List String) : KeyValueHelper × Bool :=
  deleteLoop true h (deleteBatches keys)

/-- the objects `S3Helper::deleteObjects` leaves -/
def deleteObjects (h : KeyValueHelper) (keys : List String) : KeyValueHelper := (deleteObjectsOutcome h keys).1

end S3Helper

namespace SwiftHelper

/-- `SwiftHelper::deleteObjects`: one `swiftDeleteObjects` call per batch -/
def deleteObjects : KeyValueHelper → List String → KeyValueHelper :=
  deleteInBatches KeyValueHelper.deleteObjects

end SwiftHelper

namespace CephRadosHelper

/-- `ioCTX.remove` of one key; ENOENT is ignored, so an absent key is simply left absent -/
def remove (h : KeyValueHelper) (key : String) : KeyValueHelper := h.deleteObjects [key]

/-- `CephRadosHelper::deleteObjects`: each key of a batch removed on its own -/
def deleteObjects : KeyValueHelper → List String → KeyValueHelper :=
  deleteInBatches fun h batch => batch.foldl remove h

end CephRadosHelper

theorem deletesBatch_deleteObjects : DeletesBatch KeyValueHelper.deleteObjects :=
  fun h batch k => KeyValueHelper.deleteObjects_objects h batch k

theorem deletesBatch_remove : DeletesBatch fun h batch => batch.foldl CephRadosHelper.remove h := by
  intro h batch k
  induction batch generalizing h with
  | nil => simp
  | cons key batch ih =>
    dsimp only at ih ⊢
    rw [List.foldl_cons, ih, CephRadosHelper.remove, KeyValueHelper.deleteObjects_objects]
    by_cases hk : k = key
    · simp [hk]
    · simp [hk]

theorem objects_foldl_request {request : KeyValueHelper → List String → KeyValueHelper}
    (hreq : DeletesBatch request) (batches : List (List String)) (h : KeyValueHelper) (k : String) :
    (batches.foldl request h).objects k = if k ∈ batches.flatten then none else h.objects k := by
  induction batches generalizing h with
  | nil => simp
  | cons batch batches ih =>
    rw [List.foldl_cons, ih, hreq, List.flatten_cons]
    by_cases hk : k ∈ batch
    · simp [hk]
    · simp [hk]

/-- **What a helper leaves**: the first `MAX_DELETE_OBJECTS` keys are removed, every other object is kept -/
theorem objects_deleteInBatches {request : KeyValueHelper → List String → KeyValueHelper}
    (hreq : DeletesBatch request) (h : KeyValueHelper) (keys : List String) (k : String) :
    (deleteInBatches request h keys).objects k =
      if k ∈ keys.take MAX_DELETE_OBJECTS then none else h.objects k := by
  rw [deleteInBatches, objects_foldl_request hreq]
  simp only [mem_flatten_deleteBatches]

namespace S3Helper

/-- **S3 deletes one batch and throws past it.** The first batch goes with the bucket name and is deleted; with more
than `MAX_DELETE_OBJECTS` keys the second round sends the moved-from request, and its error is thrown -/
theorem deleteObjectsOutcome_eq (h : KeyValueHelper) (keys : List String) :
    deleteObjectsOutcome h keys =
      (h.deleteObjects (keys.take MAX_DELETE_OBJECTS), decide (MAX_DELETE_OBJECTS < keys.length)) := by
  unfold deleteObjectsOutcome
  by_cases hne : keys = []
  · subst hne
    rfl
  by_cases hlen : keys.length ≤ MAX_DELETE_OBJECTS
  · -- one round, with the bucket name
    rw [deleteBatches_of_le hne hlen, List.take_of_length_le hlen, decide_eq_false (Nat.not_lt.2 hlen)]
    rfl
  · -- a second round, without it
    obtain ⟨rest, hb⟩ := deleteBatches_of_lt (Nat.lt_of_not_le hlen)
    rw [hb, decide_eq_true (Nat.lt_of_not_le hlen)]
    rfl

theorem objects_deleteObjects (h : KeyValueHelper) (keys : List String) (k : String) :
    (deleteObjects h keys).objects k = if k ∈ keys.take MAX_DELETE_OBJECTS then none else h.objects k := by
  rw [deleteObjects, deleteObjectsOutcome_eq]
  rfl

end S3Helper

/-- the three helpers' `deleteObjects`, for statements about all of them -/
def helperDeleteObjects : List (KeyValueHelper → List String → KeyValueHelper) :=
  [S3Helper.deleteObjects, SwiftHelper.deleteObjects, CephRadosHelper.deleteObjects]

theorem objects_helperDeleteObjects {del : KeyValueHelper → List String → KeyValueHelper}
    (hdel : del ∈ helperDeleteObjects) (h : KeyValueHelper) (keys : List String) (k : String) :
    (del h keys).objects k = if k ∈ keys.take MAX_DELETE_OBJECTS then none else h.objects k := by
  simp only [helperDeleteObjects, List.mem_cons, List.not_mem_nil, or_false] at hdel
  rcases hdel with rfl | rfl | rfl
  · exact S3Helper.objects_deleteObjects h keys k
  · exact objects_deleteInBatches deletesBatch_deleteObjects h keys k
  · exact objects_deleteInBatches deletesBatch_remove h keys k

/-- **Up to `MAX_DELETE_OBJECTS` keys are deleted exactly.** With at most `MAX_DELETE_OBJECTS` keys, the
`deleteObjects` of S3, Swift and Ceph RADOS removes those keys and keeps every other object -/
theorem deleteObjects_within_batch {keys : List String} (hlen : keys.length ≤ MAX_DELETE_OBJECTS) :
    ∀ del ∈ helperDeleteObjects, ∀ (h : KeyValueHelper) (k : String),
      (del h keys).objects k = if k ∈ keys then none else h.objects k := by
  intro del hdel h k
  rw [objects_helperDeleteObjects hdel h keys k, List.take_of_length_le hlen]

theorem deleteObjects_within_batch_one :
    ["a"].length ≤ MAX_DELETE_OBJECTS ∧ ∀ del ∈ helperDeleteObjects, ∀ (h : KeyValueHelper) (k : String),
      (del h ["a"]).objects k = if k ∈ ["a"] then none else h.objects k :=
  ⟨by decide, deleteObjects_within_batch (by decide)⟩

/-! ## `KeyValueAdapter::truncate` on S3 and Swift -/

/-- the helper's kind survives any fold of operations that keep it -/
theorem randomAccess_foldl {β : Type*} {f : KeyValueHelper → β → KeyValueHelper}
    (hf : ∀ h b, (f h b).randomAccess = h.randomAccess) (bs : List β) (h : KeyValueHelper) :
    (bs.foldl f h).randomAccess = h.randomAccess := by
  induction bs generalizing h with
  | nil => rfl
  | cons b bs ih => rw [List.foldl_cons, ih, hf]

theorem randomAccess_helperDeleteObjects {del : KeyValueHelper → List String → KeyValueHelper}
    (hdel : del ∈ helperDeleteObjects) (h : KeyValueHelper) (keys : List String) :
    (del h keys).randomAccess = h.randomAccess := by
  simp only [helperDeleteObjects, List.mem_cons, List.not_mem_nil, or_false] at hdel
  rcases hdel with rfl | rfl | rfl
  · rw [S3Helper.deleteObjects, S3Helper.deleteObjectsOutcome_eq]
    rfl
  · apply randomAccess_foldl
    intro _ _
    rfl
  · -- a batch is removed key by key
    apply randomAccess_foldl
    intro h' batch
    apply randomAccess_foldl
    intro _ _
    rfl

/-- each helper removes exactly the keys of every list of at most `MAX_DELETE_OBJECTS` keys -/
theorem deletesUpTo_helperDeleteObjects {del : KeyValueHelper → List String → KeyValueHelper}
    (hdel : del ∈ helperDeleteObjects) : DeletesUpTo MAX_DELETE_OBJECTS del where
  objects h keys k hlen := by rw [objects_helperDeleteObjects hdel h keys k, List.take_of_length_le hlen]
  randomAccess := randomAccess_helperDeleteObjects hdel

/-- **S3 and Swift refine the flat file.** For every block size and every file id `getKey` accepts, from any state
of S3 or Swift that holds a reference file, after any sequence of `off_t` writes and truncates (each truncate given
the reference length as `currentSize`) none of which hands more than `MAX_DELETE_OBJECTS` blocks to `deleteObjects`,
every `off_t` read returns exactly the reference bytes -/
theorem nonRandomAccess_refines (a : KeyValueAdapter) {fileId : String} (hB : 0 < a.mBlockSize)
    (hid : ValidFileId fileId) {del : KeyValueHelper → List String → KeyValueHelper}
    (hdel : del ∈ [S3Helper.deleteObjects, SwiftHelper.deleteObjects]) (h : KeyValueHelper)
    (hra : h.randomAccess = false) (F : List UInt8) (hh : Holds h fileId a.mBlockSize F) (hF : F.length ≤ 2 ^ 63)
    (ops : List FileOp) (hops : ∀ op ∈ ops, op.InRange)
    (hbatch : ∀ c ∈ deletedBlocksRun a.mBlockSize F ops, c ≤ MAX_DELETE_OBJECTS) :
    ∃ h', adapterRunOn a del fileId h F ops = some h' ∧
      ∀ offset n, offset + n ≤ 2 ^ 63 →
        (a.open fileId).read h' offset n = some (window (referenceRun F ops) offset n) := by
  have hmem : del ∈ helperDeleteObjects := by
    simp only [List.mem_cons, List.not_mem_nil, or_false] at hdel
    rcases hdel with rfl | rfl
    · exact List.mem_cons_self
    · exact List.mem_cons_of_mem _ List.mem_cons_self
  exact adapterRunOn_refines a hB (deletesUpTo_helperDeleteObjects hmem) hid h hra F hh hF ops hops hbatch

theorem nonRandomAccess_refines_four :
    (0 < (⟨4⟩ : KeyValueAdapter).mBlockSize ∧ ValidFileId "file" ∧
      ∀ c ∈ deletedBlocksRun 4 [] [.write 3 [7, 8], .truncate 4, .write 9 [1]], c ≤ MAX_DELETE_OBJECTS) ∧
      ∃ h', adapterRunOn ⟨4⟩ S3Helper.deleteObjects "file" ⟨false, fun _ => none⟩ []
          [.write 3 [7, 8], .truncate 4, .write 9 [1]] = some h' ∧
        ∀ offset n, offset + n ≤ 2 ^ 63 → (KeyValueAdapter.open ⟨4⟩ "file").read h' offset n =
          some (window (referenceRun [] [.write 3 [7, 8], .truncate 4, .write 9 [1]]) offset n) :=
  ⟨⟨by decide, by decide, by decide⟩,
    nonRandomAccess_refines ⟨4⟩ (by decide) (by decide) List.mem_cons_self _ rfl [] (holds_empty false "file" 4)
      (by decide) _ (by simp [FileOp.InRange]) (by decide)⟩

/-! ## `KeyValueAdapter::unlink` on a helper -/

namespace KeyValueAdapter

variable (a : KeyValueAdapter)

/-- `unlink` hands the keys of blocks `0 .. currentSize / blockSize` to the helper -/
theorem unlinkOn_eq (deleteObjects : KeyValueHelper → List String → KeyValueHelper) (helper : KeyValueHelper)
    {fileId : String} (hid : ValidFileId fileId) {currentSize : ℕ} (hsize : currentSize ≠ 0) :
    a.unlinkOn deleteObjects helper fileId currentSize =
      some (deleteObjects helper ((List.range (currentSize / a.mBlockSize + 1)).map (blockKey fileId))) := by
  simp [unlinkOn, hsize, mapM_getKey hid]

end KeyValueAdapter

/-- the key of block `MAX_DELETE_OBJECTS` is not among the keys of the blocks before it -/
theorem blockKey_not_mem_take {fileId : String} (hid : ValidFileId fileId) (n : ℕ) :
    blockKey fileId MAX_DELETE_OBJECTS ∉ ((List.range n).map (blockKey fileId)).take MAX_DELETE_OBJECTS := by
  intro hmem
  rw [← List.map_take, List.take_range, List.mem_map] at hmem
  obtain ⟨j, hj, hkey⟩ := hmem
  rw [List.mem_range] at hj
  have hlt : j < MAX_DELETE_OBJECTS := lt_of_lt_of_le hj (Nat.min_le_left _ _)
  have hbound : MAX_DELETE_OBJECTS < 2 ^ 64 := by unfold MAX_DELETE_OBJECTS; norm_num
  exact absurd (blockKey_inj hid (hlt.trans hbound) hbound hkey) hlt.ne

/-- **Deletion stops after the first batch.** For every list of more than `MAX_DELETE_OBJECTS` keys whose key
`MAX_DELETE_OBJECTS` is not among the ones before it (any list without repeats), the first key is in two batches
or more and key `MAX_DELETE_OBJECTS` in none, so S3, Swift and CephRados all keep its object. `unlink` of a file
of more than `MAX_DELETE_OBJECTS` blocks on any of them keeps the object of block `MAX_DELETE_OBJECTS`. -/
theorem deleteObjects_keeps_past_first_batch :
    (∀ (keys : List String) (hlen : MAX_DELETE_OBJECTS < keys.length),
      keys[MAX_DELETE_OBJECTS] ∉ keys.take MAX_DELETE_OBJECTS →
        2 ≤ (deleteBatches keys).countP (fun b => keys[0] ∈ b) ∧
        (∀ b ∈ deleteBatches keys, keys[MAX_DELETE_OBJECTS] ∉ b) ∧
        ∀ del ∈ helperDeleteObjects, ∀ h : KeyValueHelper,
          (del h keys).objects keys[MAX_DELETE_OBJECTS] = h.objects keys[MAX_DELETE_OBJECTS]) ∧
    ∀ (a : KeyValueAdapter) (fileId : String) (currentSize : ℕ), ValidFileId fileId →
      MAX_DELETE_OBJECTS ≤ currentSize / a.mBlockSize →
        ∀ del ∈ helperDeleteObjects, ∀ h : KeyValueHelper, ∃ h',
          a.unlinkOn del h fileId currentSize = some h' ∧
            h'.objects (blockKey fileId MAX_DELETE_OBJECTS) = h.objects (blockKey fileId MAX_DELETE_OBJECTS) := by
  refine ⟨fun keys hlen hkeep => ⟨?_, ?_, ?_⟩, fun a fileId currentSize hid hsize del hdel h => ?_⟩
  · -- both of the first two batches are nonempty prefixes
    obtain ⟨rest, hb⟩ := deleteBatches_of_lt hlen
    have hhead : ∀ m, 0 < m → keys[0] ∈ keys.take m := fun m hm =>
      List.mem_take_iff_getElem.mpr ⟨0, by omega, rfl⟩
    have h1 : keys[0] ∈ keys.take MAX_DELETE_OBJECTS := hhead _ (by unfold MAX_DELETE_OBJECTS; omega)
    have h2 : keys[0] ∈ keys.take (min (keys.length - MAX_DELETE_OBJECTS) MAX_DELETE_OBJECTS) :=
      hhead _ (by unfold MAX_DELETE_OBJECTS at hlen ⊢; omega)
    rw [hb, List.countP_cons_of_pos (by simpa using h1), List.countP_cons_of_pos (by simpa using h2)]
    omega
  · intro b hb hmem
    exact hkeep (mem_flatten_deleteBatches.mp (List.mem_flatten.mpr ⟨b, hb, hmem⟩))
  · intro del hdel h
    rw [objects_helperDeleteObjects hdel, if_neg hkeep]
  · have hpos : currentSize ≠ 0 := by
      rintro rfl
      simp [MAX_DELETE_OBJECTS] at hsize
    refine ⟨_, a.unlinkOn_eq del h hid hpos, ?_⟩
    rw [objects_helperDeleteObjects hdel, if_neg (blockKey_not_mem_take hid _)]

/-- at 1001 keys, and for the unlink of a file of 1001 one-byte blocks -/
theorem deleteObjects_keeps_past_first_batch_thousand :
    ((S3Helper.deleteObjects ⟨false, fun _ => some []⟩ (List.replicate 1000 "a" ++ ["b"])).objects "b" = some [] ∧
      (CephRadosHelper.deleteObjects ⟨true, fun _ => some []⟩ (List.replicate 1000 "a" ++ ["b"])).objects "b" =
        some []) ∧
    ValidFileId "file" ∧ MAX_DELETE_OBJECTS ≤ 1000 / (⟨1⟩ : KeyValueAdapter).mBlockSize ∧
      ∃ h', (⟨1⟩ : KeyValueAdapter).unlinkOn S3Helper.deleteObjects ⟨false, fun _ => some []⟩ "file" 1000 =
          some h' ∧
        h'.objects (blockKey "file" MAX_DELETE_OBJECTS) = some [] := by
  have hlen : MAX_DELETE_OBJECTS < (List.replicate 1000 "a" ++ ["b"]).length := by
    rw [List.length_append, List.length_replicate]
    decide
  have hlast : (List.replicate 1000 "a" ++ ["b"])[MAX_DELETE_OBJECTS] = "b" := by
    rw [List.getElem_append_right (by rw [List.length_replicate]; decide)]
    simp only [List.length_replicate, MAX_DELETE_OBJECTS, Nat.sub_self]
    rfl
  have hkeep : (List.replicate 1000 "a" ++ ["b"])[MAX_DELETE_OBJECTS] ∉
      (List.replicate 1000 "a" ++ ["b"]).take MAX_DELETE_OBJECTS := by
    rw [hlast, List.take_append_of_le_length (by rw [List.length_replicate]; decide), List.take_replicate,
      List.mem_replicate]
    exact fun h => absurd h.2 (by decide)
  have hkeys := (deleteObjects_keeps_past_first_batch.1 _ hlen hkeep).2.2
  rw [hlast] at hkeys
  have hid : ValidFileId "file" := by decide
  have hsize : MAX_DELETE_OBJECTS ≤ 1000 / (⟨1⟩ : KeyValueAdapter).mBlockSize := by decide
  have hs3 : S3Helper.deleteObjects ∈ helperDeleteObjects := List.mem_cons_self
  have hceph : CephRadosHelper.deleteObjects ∈ helperDeleteObjects :=
    List.mem_cons_of_mem _ (List.mem_cons_of_mem _ List.mem_cons_self)
  exact ⟨⟨hkeys _ hs3 _, hkeys _ hceph _⟩, hid, hsize,
    deleteObjects_keeps_past_first_batch.2 ⟨1⟩ "file" 1000 hid hsize _ hs3 _⟩

end OneHelpers.KeyValue
