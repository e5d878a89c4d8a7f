/-
File I/O of the WebDAV helper (`WebDAVFileHandle`, `WebDAVHelper`) against an HTTP server.

A read is a `GET` with a `Range` header (the one-byte read at offset 0 asks for two bytes and keeps the first), whose
last byte is computed in `size_t`; a write is a SabreDAV `PATCH` with an `X-Update-Range` header or a mod_dav `PUT`
with a `Content-Range` header, as the helper's `rangeWriteSupport` says; a truncate is a `PUT`, of nothing when the
size is 0, and otherwise of the buffer `folly::IOBuf::create(size - currentSize)`, whose zeros are written into its
room but whose length stays 0; `getattr` reads `getcontentlength` from a `PROPFIND` with `std::stoi`. A status code is turned
into an error by `httpStatusToPosixError`.

The server (`serve`) follows RFC 7233 for ranged `GET`s, writes the body of a ranged `PUT` or `PATCH` in place,
zero-filling any gap past the end of the resource, replaces the resource on a `PUT` without a range, and reports the
resource's length as `getcontentlength`.

The byte-array file the helper stands for (`specApply`) is the reference file of the key-value helpers, except that a
truncate to a size strictly between 0 and the length fails with `ERANGE`, shrinking being unsupported.

Results:
- `read_spec`: a read that starts before the end of the file, with a range that ends within `size_t`, returns the
  file's bytes from there on, cut at the end.
- `write_spec`: a write of a non-empty buffer in either mode writes it in place.
- `applyOp_of_supported` (step) and `webDAV_refines` (run): on every sequence of non-empty writes and of truncates
  that do not extend the file, the helper's file is the byte-array file and reads return its bytes.
- `webDAV_io_bugs`: an extending truncate sends an empty `PUT` and empties the file, a read at the end of the file
  fails with `ERANGE`, an empty write with `PUT` ranges empties the file, and `getattr` fails from `2 ^ 31` bytes on.
-/
import Mathlib.Tactic
import OneHelpers.Core.SparseArray
import OneHelpers.Storage.KeyValueRefinement

namespace OneHelpers.WebDAV

open SparseArray

/-! ## Errors -/

/-- the POSIX errors the helper reports -/
inductive Errno where
  | EIO | EBADMSG | EPERM | ENOENT | ENOTSUP | EACCES | EAGAIN | ENXIO | EINVAL | EFBIG | ERANGE | EBUSY
  deriving DecidableEq, Repr

/-- `httpStatusToPosixError`: `none` for a `2xx` status -/
def httpStatusToPosixError (httpStatus : ℕ) : Option Errno :=
  if httpStatus / 100 = 2 then none
  else if httpStatus / 100 < 4 then some Errno.EIO
  else
    some <| match httpStatus with
      | 400 => .EBADMSG
      | 401 | 403 => .EPERM
      | 404 => .ENOENT
      | 405 => .ENOTSUP
      | 406 | 407 => .EACCES
      | 408 => .EAGAIN
      | 409 => .EBADMSG
      | 410 => Errno.ENXIO
      | 411 | 412 | 414 | 415 | 417 | 426 | 428 => .EINVAL
      | 413 => .EFBIG
      | 416 => .ERANGE
      | 429 => .EBUSY
      | 431 => .EFBIG
      | 451 => .EPERM
      | 500 => Errno.EIO
      | 501 => .ENOTSUP
      | 502 | 503 => Errno.ENXIO
      | 504 => .EAGAIN
      | 505 => .EINVAL
      | 511 => .EACCES
      | _ => Errno.EIO

/-- how a helper call fails: with a POSIX error, or with the `std::out_of_range` that `std::stoi` throws -/
inductive Error where
  | posix (errno : Errno)
  | outOfRange
  deriving DecidableEq, Repr

/-! ## Requests and the server -/

/-- the requests the helper sends for file I/O, with the byte ranges of their headers -/
inductive Request where
  /-- `GET` with `Range: bytes=first-last` -/
  | get (first last : ℕ)
  /-- `PUT`, with `Content-Range: bytes first-last/*` when given -/
  | put (contentRange : Option (ℕ × ℕ)) (body : List UInt8)
  /-- `PATCH` with `X-Update-Range: bytes=first-last` -/
  | patch (first last : ℕ) (body : List UInt8)
  deriving DecidableEq, Repr

/-- the server: the resource after the request, the status code and the body of the response -/
def serve (content : List UInt8) : Request → List UInt8 × ℕ × List UInt8
  | .get first last =>
    if first < content.length then (content, 206, slice content first (min last (content.length - 1) + 1 - first))
    else (content, 416, [])
  | .put (some (first, _)) body => (overwrite content first body, 204, [])
  | .put none body => (body, 201, [])
  | .patch first _ body => (overwrite content first body, 204, [])

/-- the `getcontentlength` the server reports in answer to `PROPFIND` -/
def getcontentlength (content : List UInt8) : ℕ := content.length

/-! ## The helper -/

/-- `WebDAVRangeWriteSupport` -/
inductive WebDAVRangeWriteSupport where
  | NONE
  | SABREDAV_PARTIALUPDATE
  | MODDAV_PUTRANGE
  deriving DecidableEq, Repr

/-- the request of `WebDAVGET::operator()` and whether it is the first-byte request; `none` for an empty read,
which is answered at once with nothing. The last byte `offset + size - 1` is computed in `size_t`, so it wraps
modulo `2 ^ 64` -/
def getRequest (offset size : ℕ) : Option (Request × Bool) :=
  if size = 0 then none
  else if offset = 0 ∧ size = 1 then some (.get 0 1, true)
  else some (.get offset ((offset + size - 1) % 2 ^ 64), false)

/-- `WebDAVGET::onEOM`: the body, or for the first-byte request its first byte -/
def getOnEOM (firstByteRequest : Bool) (resultCode : ℕ) (body : List UInt8) : Except Errno (List UInt8) :=
  match httpStatusToPosixError resultCode with
  | none => if firstByteRequest then .ok (body.take 1) else .ok body
  | some e => .error e

/-- the request of `WebDAVPUT::operator()`: a `Content-Range` only for a non-empty buffer -/
def putRequest (offset : ℕ) (buf : List UInt8) : Request :=
  .put (if buf.length > 0 then some (offset, offset + buf.length - 1) else none) buf

/-- the request of `WebDAVPATCH::operator()`; `none` for an empty buffer, which is answered at once -/
def patchRequest (offset : ℕ) (buf : List UInt8) : Option Request :=
  if buf.length = 0 then none else some (.patch offset (offset + buf.length - 1) buf)

/-- `onEOM` of `PUT` and `PATCH` -/
def putOnEOM (resultCode : ℕ) : Except Errno Unit :=
  match httpStatusToPosixError resultCode with
  | none => .ok ()
  | some e => .error e

/-- `WebDAVFileHandle::read` on a file with contents `content` -/
def read (content : List UInt8) (offset size : ℕ) : Except Errno (List UInt8) :=
  match getRequest offset size with
  | none => .ok []
  | some (req, firstByteRequest) => getOnEOM firstByteRequest (serve content req).2.1 (serve content req).2.2

/-- `WebDAVFileHandle::write`: the file's contents after it, and the number of bytes written or the error -/
def write (rangeWriteSupport : WebDAVRangeWriteSupport) (content : List UInt8) (offset : ℕ) (buf : List UInt8) :
    List UInt8 × Except Errno ℕ :=
  match rangeWriteSupport with
  | .SABREDAV_PARTIALUPDATE =>
    match patchRequest offset buf with
    | none => (content, .ok 0)
    | some req => ((serve content req).1, (putOnEOM (serve content req).2.1).map fun _ => buf.length)
  | .MODDAV_PUTRANGE =>
    ((serve content (putRequest offset buf)).1,
      (putOnEOM (serve content (putRequest offset buf)).2.1).map fun _ => buf.length)
  | .NONE => (content, .error .ENOTSUP)

/-- `folly::IOBuf::create(capacity)`, then the zeros written through `writableData()`: the buffer has room for
`capacity` bytes, but its length stays 0 since nothing calls `append`, so it holds no byte -/
def ioBufCreate (_capacity : ℕ) : List UInt8 := []

/-- `WebDAVHelper::truncate`: the file's contents after it, and its result; an extending truncate sends the buffer
`IOBuf::create(size - currentSize)` filled with zeros -/
def truncate (content : List UInt8) (size currentSize : ℕ) : List UInt8 × Except Errno Unit :=
  if size > 0 ∧ size = currentSize then (content, .ok ())
  else if size > 0 ∧ size < currentSize then (content, .error .ERANGE)
  else if size = 0 then ((serve content (putRequest size [])).1, putOnEOM (serve content (putRequest size [])).2.1)
  else
    ((serve content (putRequest size (ioBufCreate (size - currentSize)))).1,
      putOnEOM (serve content (putRequest size (ioBufCreate (size - currentSize)))).2.1)

/-- `std::stoi` of a non-negative decimal: its value when it fits in an `int`, and `std::out_of_range` otherwise -/
def stoi (n : ℕ) : Except Error ℤ := if n < 2 ^ 31 then .ok n else .error .outOfRange

/-- the `st_size` `WebDAVHelper::getattr` reports -/
def getattr (content : List UInt8) : Except Error ℤ := stoi (getcontentlength content)

/-! ## What the helper does against the server -/

theorem httpStatusToPosixError_of_div {httpStatus : ℕ} (h : httpStatus / 100 = 2) :
    httpStatusToPosixError httpStatus = none := by
  simp [httpStatusToPosixError, h]

/-- the server answers a ranged `GET` that starts inside the resource with the bytes from there up to the end of
the range, cut at the end of the resource -/
theorem serve_get {content : List UInt8} {first size : ℕ} (hfirst : first < content.length) (hsize : 0 < size) :
    serve content (.get first (first + size - 1)) = (content, 206, slice content first size) := by
  simp only [serve, if_pos hfirst, Prod.mk.injEq, true_and]
  unfold slice
  rw [List.take_eq_take_min, eq_comm, List.take_eq_take_min, List.length_drop]
  congr 1
  omega

/-- **A read that starts before the end of the file returns the file's bytes from there**, cut at the end of the
file; the one-byte read at offset 0 asks for two bytes and keeps the first. -/
theorem read_spec {content : List UInt8} {offset size : ℕ} (hoffset : offset < content.length)
    (hsize_t : offset + size ≤ 2 ^ 64) : read content offset size = .ok (slice content offset size) := by
  unfold read getRequest
  by_cases hsize : size = 0
  · subst hsize
    simp [slice]
  rw [if_neg hsize]
  by_cases hfirst : offset = 0 ∧ size = 1
  · obtain ⟨rfl, rfl⟩ := hfirst
    rw [if_pos ⟨rfl, rfl⟩]
    have hget : serve content (.get 0 (0 + 2 - 1)) = (content, 206, slice content 0 2) :=
      serve_get hoffset (by omega)
    simp only at hget ⊢
    rw [hget]
    simp [getOnEOM, httpStatusToPosixError, slice, List.take_take]
  · -- the last byte of the range does not wrap
    have hlast : (offset + size - 1) % 2 ^ 64 = offset + size - 1 := Nat.mod_eq_of_lt (by omega)
    rw [if_neg hfirst, hlast]
    simp only
    rw [serve_get hoffset (by omega)]
    simp [getOnEOM, httpStatusToPosixError]

/-- **A non-empty write goes in place** in either mode with range writes. -/
theorem write_spec {rangeWriteSupport : WebDAVRangeWriteSupport} (hmode : rangeWriteSupport ≠ .NONE)
    (content : List UInt8) (offset : ℕ) {buf : List UInt8} (hbuf : buf ≠ []) :
    write rangeWriteSupport content offset buf = (overwrite content offset buf, .ok buf.length) := by
  have hlen : buf.length ≠ 0 := fun h => hbuf (List.eq_nil_of_length_eq_zero h)
  cases rangeWriteSupport with
  | NONE => exact absurd rfl hmode
  | SABREDAV_PARTIALUPDATE =>
    simp [write, patchRequest, hlen, serve, putOnEOM, httpStatusToPosixError, Except.map]
  | MODDAV_PUTRANGE =>
    simp [write, putRequest, Nat.pos_of_ne_zero hlen, serve, putOnEOM, httpStatusToPosixError, Except.map]

/-! ## Runs of writes and truncates -/

open KeyValue (FileOp)

/-- one file operation through the helper, `currentSize` being the file's length: the contents after it, and its
result -/
def applyOp (rangeWriteSupport : WebDAVRangeWriteSupport) (content : List UInt8) :
    FileOp → List UInt8 × Except Errno Unit
  | .write offset buf =>
    ((write rangeWriteSupport content offset buf).1, (write rangeWriteSupport content offset buf).2.map fun _ => ())
  | .truncate size => truncate content size content.length

/-- the file's contents after a sequence of operations -/
def runOps (rangeWriteSupport : WebDAVRangeWriteSupport) (content : List UInt8) (ops : List FileOp) : List UInt8 :=
  ops.foldl (fun c op => (applyOp rangeWriteSupport c op).1) content

/-- the byte-array file the helper stands for: a truncate to a size strictly between 0 and the length fails with
`ERANGE` and leaves the file as it is, since shrinking is not supported; every other operation is the reference one -/
def specApply (F : List UInt8) : FileOp → List UInt8 × Except Errno Unit
  | .truncate size =>
    if 0 < size ∧ size < F.length then (F, .error .ERANGE) else (FileOp.apply F (.truncate size), .ok ())
  | op => (FileOp.apply F op, .ok ())

/-- the byte-array file after a sequence of operations -/
def specRun (F : List UInt8) (ops : List FileOp) : List UInt8 := ops.foldl (fun c op => (specApply c op).1) F

/-- the operations the helper carries out as the byte-array file does: a write of a non-empty buffer, and a
truncate that does not extend the file -/
def Supported (F : List UInt8) : FileOp → Prop
  | .write _ buf => buf ≠ []
  | .truncate size => size ≤ F.length

instance (F : List UInt8) : DecidablePred (Supported F)
  | .write _ buf => inferInstanceAs (Decidable (buf ≠ []))
  | .truncate size => inferInstanceAs (Decidable (size ≤ F.length))

/-- every operation of a sequence is supported on the file it meets -/
def RunSupported : List UInt8 → List FileOp → Prop
  | _, [] => True
  | F, op :: ops => Supported F op ∧ RunSupported (specApply F op).1 ops

instance decRunSupported : ∀ F ops, Decidable (RunSupported F ops)
  | _, [] => inferInstanceAs (Decidable True)
  | F, op :: ops =>
    have := decRunSupported (specApply F op).1 ops
    inferInstanceAs (Decidable (_ ∧ _))

/-- a supported operation has the effect and the result it has on the byte-array file -/
theorem applyOp_of_supported {rangeWriteSupport : WebDAVRangeWriteSupport} (hmode : rangeWriteSupport ≠ .NONE)
    {F : List UInt8} {op : FileOp} (hop : Supported F op) : applyOp rangeWriteSupport F op = specApply F op := by
  cases op with
  | write offset buf =>
    simp [applyOp, specApply, write_spec hmode F offset hop, FileOp.apply, Except.map]
  | truncate size =>
    simp only [Supported] at hop
    by_cases hsize : size = 0
    · subst hsize
      simp [applyOp, specApply, truncate, putRequest, serve, putOnEOM, httpStatusToPosixError, FileOp.apply,
        resize]
    · rcases Nat.lt_or_eq_of_le hop with hlt | heq
      · simp [applyOp, specApply, truncate, Nat.pos_of_ne_zero hsize, hlt, Nat.ne_of_lt hlt]
      · subst heq
        simp [applyOp, specApply, truncate, Nat.pos_of_ne_zero hsize, FileOp.apply, resize_length]

/-- on a supported sequence the helper's file follows the byte-array file -/
theorem runOps_of_runSupported {rangeWriteSupport : WebDAVRangeWriteSupport} (hmode : rangeWriteSupport ≠ .NONE) :
    ∀ (F : List UInt8) (ops : List FileOp), RunSupported F ops → runOps rangeWriteSupport F ops = specRun F ops
  | _, [], _ => rfl
  | F, op :: ops, ⟨hop, hops⟩ => by
    have hstep : (applyOp rangeWriteSupport F op).1 = (specApply F op).1 := by rw [applyOp_of_supported hmode hop]
    simp only [runOps, specRun, List.foldl_cons, hstep]
    exact runOps_of_runSupported hmode _ ops hops

/-- **The WebDAV file refines the byte-array file** on every sequence of non-empty writes, in either range-write
mode, and of truncates that do not extend the file: the helper's file is the byte-array one, and every read that
starts before its end, and whose range ends within `size_t`, returns the byte-array file's bytes from there. -/
theorem webDAV_refines {rangeWriteSupport : WebDAVRangeWriteSupport} (hmode : rangeWriteSupport ≠ .NONE)
    (F : List UInt8) (ops : List FileOp) (hops : RunSupported F ops) :
    runOps rangeWriteSupport F ops = specRun F ops ∧
      ∀ offset n, offset < (specRun F ops).length → offset + n ≤ 2 ^ 64 →
        read (runOps rangeWriteSupport F ops) offset n = .ok (slice (specRun F ops) offset n) := by
  have hrun := runOps_of_runSupported hmode F ops hops
  refine ⟨hrun, fun offset n hoffset hsize_t => ?_⟩
  rw [hrun]
  exact read_spec hoffset hsize_t

theorem webDAV_refines_three :
    (WebDAVRangeWriteSupport.MODDAV_PUTRANGE ≠ .NONE ∧ RunSupported [] [.write 2 [7, 8], .truncate 4, .write 1 [5]]) ∧
      runOps .MODDAV_PUTRANGE [] [.write 2 [7, 8], .truncate 4, .write 1 [5]] =
          specRun [] [.write 2 [7, 8], .truncate 4, .write 1 [5]] ∧
        ∀ offset n, offset < (specRun [] [.write 2 [7, 8], .truncate 4, .write 1 [5]]).length → offset + n ≤ 2 ^ 64 →
          read (runOps .MODDAV_PUTRANGE [] [.write 2 [7, 8], .truncate 4, .write 1 [5]]) offset n =
            .ok (slice (specRun [] [.write 2 [7, 8], .truncate 4, .write 1 [5]]) offset n) :=
  ⟨⟨by decide, by decide⟩, webDAV_refines (by decide) [] _ (by decide)⟩

/-! ## Where the helper departs from the byte-array file -/

/-- an extending truncate sends an empty `PUT` without `Content-Range`, which replaces the file with nothing, and
reports success -/
theorem truncate_of_lt {size currentSize : ℕ} (hlt : currentSize < size) (content : List UInt8) :
    truncate content size currentSize = ([], .ok ()) := by
  simp [truncate, Nat.ne_of_gt hlt, Nat.not_lt.2 hlt.le, Nat.pos_of_ne_zero (Nat.ne_zero_of_lt hlt), ioBufCreate,
    putRequest, serve, putOnEOM, httpStatusToPosixError]

/-- **Extending truncates, reads at the end and empty writes.** Every truncate past the current size empties the
file, `[1, 2]` truncated to 4 among them; a read at the end of the file is answered 416 and fails with `ERANGE`; an
empty write with `PUT` ranges sends a `PUT` without `Content-Range`, which replaces the file with nothing; and
`std::stoi` makes `getattr` fail on every file of `2 ^ 31` bytes or more. -/
theorem webDAV_io_bugs :
    (∀ (content : List UInt8) (size : ℕ), content.length < size → (truncate content size content.length).1 = []) ∧
      (truncate [1, 2] 4 2).1 = [] ∧ read [1, 2] 2 1 = .error .ERANGE ∧
      (write .MODDAV_PUTRANGE [1, 2] 0 []).1 = [] ∧
      ∀ content : List UInt8, 2 ^ 31 ≤ content.length → getattr content = .error .outOfRange := by
  refine ⟨fun content size hlt => by rw [truncate_of_lt hlt], by decide, by decide, by decide,
    fun content hlen => ?_⟩
  unfold getattr stoi getcontentlength
  rw [if_neg (Nat.not_lt.mpr hlen)]

end OneHelpers.WebDAV
