/-
The extended-attribute calls of `WebDAVHelper` (`src/webDAVHelper.cc`): attributes are dead properties of the
resource, in the namespace `http://onedata.org/metadata`, under the URI-encoded name.

`getxattr` reads the property from a `PROPFIND`: a property with one text child gives its text, one with another
child (the element `o:Null`) gives the empty value, and one that is missing, or has no child or more than one, is
`ENODATA`. `setxattr` ignores `create` and `replace` and sends a `PROPPATCH` that sets the property, to a text node or,
for an empty value, to `o:Null`. `removexattr` sends a `PROPPATCH` that removes the property, but names it in the
namespace `o:`, not `http://onedata.org/metadata`. `WebDAVPROPPATCH::onEOM` accepts the status lines `200 OK` and
`204 No Content` and throws `EINVAL` otherwise, inside a `try` block whose `catch` answers `EIO`.

The server follows RFC 4918 (9.2): it applies the instruction, removing a property that does not exist is no error,
and it answers `207 Multi-Status` with `HTTP/1.1 200 OK` for the property, on a body it parses (`servePatch`); it
rejects a body whose property name is no XML name (`serve`). `Poco::URI::encode` is not in the source: it is taken as
a function on names, injective where a result needs it, and the results on `servePatch` are for the names it encodes
to XML names (`PROPPATCHWith_serve_of_isXmlName`). Errors are `errno` values, as in `Xattr`.

Results:
- `PROPPATCHWith_serve_of_isXmlName`, `PROPPATCHWith_serve_malformed`: the server answers as `servePatch` for an
  encoded name that is an XML name, and rejects the request, with `EBADMSG` for the helper, for any other;
- `decode_run`: over every run of calls, the attributes the helper reads back are those `WebDAVHelper.observed`
  computes: a write stores the value whatever the flags, and a remove changes nothing.
- `webDAV_xattrs_ignore_flags_and_removal`: runs of reads and of writes without flags answer as `spec` does and leave
  its attributes; one call steps as `spec` exactly when it is a read or a write whose flags hold; no run removes an
  attribute; and the `EINVAL` of `onEOM` is never answered.
-/
import Mathlib.Tactic
import OneHelpers.Storage.Xattr
import OneHelpers.Storage.WebDAV

namespace OneHelpers.Xattr

open WebDAV (Errno httpStatusToPosixError)

/-! ## The properties of a resource and the server -/

/-- `kNSOnedata`: the namespace of the properties that hold attributes -/
def kNSOnedata : String := "http://onedata.org/metadata"

/-- the value of a property: a text node, or the element `o:Null` -/
inductive PropValue where
  | text (v : List UInt8)
  | null
  deriving DecidableEq, Repr

/-- the properties of one resource, by namespace and local name -/
abbrev Props := String × String → Option PropValue

/-- a `PROPPATCH` of one property -/
inductive Patch where
  | set (key : String × String) (value : PropValue)
  | remove (key : String × String)

/-- the property a `PROPPATCH` names -/
def Patch.key : Patch → String × String
  | .set key _ => key
  | .remove key => key

/-- the server on a `PROPPATCH` whose body it parses: the properties after it, the status code, and the body as the
parser reads it (`none` when it does not parse), with the text of its `d:status` if it has one -/
def servePatch (props : Props) : Patch → Props × ℕ × Option (Option String)
  | .set key value => (Function.update props key (some value), 207, some (some "HTTP/1.1 200 OK"))
  | .remove key => (Function.update props key none, 207, some (some "HTTP/1.1 200 OK"))

/-! ## The names in the body

The body names the property by its encoded name, as the local name of an element, so the server parses it only when
that name is an XML name; it rejects a body that is not well formed, whole, with `400 Bad Request` (RFC 4918, 8.2).
`Poco::URI::encode` leaves ASCII only, but keeps '/' and ':' and turns a space into `%20`, none of which an XML name
holds: `servePatch` is the server on the names for which the encoding gives XML names. -/

/-- a character that may start an XML name, in ASCII -/
def isNameStartChar (c : Char) : Bool := c.isAlpha || c == '_'

/-- a character of an XML name after the first, in ASCII, without the ':' of a prefix -/
def isNameChar (c : Char) : Bool := isNameStartChar c || c.isDigit || c == '-' || c == '.'

/-- an XML name without a prefix, in ASCII -/
def isXmlName (name : String) : Bool :=
  match name.toList with
  | [] => false
  | c :: cs => isNameStartChar c && cs.all isNameChar

example : isXmlName "user.comment" = true ∧ isXmlName "a%20b" = false ∧ isXmlName "a:b" = false := by decide

/-- the server on any `PROPPATCH`: one whose property name is no XML name is rejected whole -/
def serve (props : Props) (patch : Patch) : Props × ℕ × Option (Option String) :=
  if isXmlName patch.key.2 then servePatch props patch else (props, 400, none)

/-! ## `WebDAVPROPPATCH` -/

/-- the `errno` value of an error of `httpStatusToPosixError` (Linux) -/
def errnoValue : Errno → ℕ
  | .EPERM => 1
  | .ENOENT => 2
  | Errno.EIO => 5
  | Errno.ENXIO => 6
  | .EAGAIN => 11
  | .EACCES => 13
  | .EBUSY => 16
  | .EINVAL => 22
  | .EFBIG => 27
  | .ERANGE => 34
  | .EBADMSG => 74
  | .ENOTSUP => 95

/-- the value node of a set: a text node, or `o:Null` for an empty value, which WebDAV cannot store -/
def propertyValue (value : List UInt8) : PropValue := if value = [] then .null else .text value

/-- the instruction `WebDAVPROPPATCH::operator()` sends: set the property, or remove it under the namespace `o:` -/
def proppatchRequest (encode : String → String) (property : String) (value : List UInt8) (remove : Bool) : Patch :=
  if !remove then .set (kNSOnedata, encode property) (propertyValue value) else .remove ("o:", encode property)

/-- the block inside the `try` of `WebDAVPROPPATCH::onEOM`: the parser's exception (`none`) or `EINVAL` when there is
no status or it is neither `200 OK` nor `204 No Content` -/
def proppatchParse : Option (Option String) → Except (Option Errno) Unit
  | none => .error none
  | some none => .error (some .EINVAL)
  | some (some status) =>
    if status = "HTTP/1.1 200 OK" ∨ status = "HTTP/1.1 204 No Content" then .ok () else .error (some .EINVAL)

/-- `WebDAVPROPPATCH::onEOM`: an error status is its error; otherwise the `catch` turns every exception of the block,
its own `EINVAL` included, into `EIO` -/
def proppatchOnEOM (resultCode : ℕ) (body : Option (Option String)) : Except Errno Unit :=
  match httpStatusToPosixError resultCode with
  | some e => .error e
  | none =>
    match proppatchParse body with
    | .ok () => .ok ()
    | .error _ => .error Errno.EIO

/-- `WebDAVPROPPATCH` against a server: the request, the server's answer, and what the helper makes of it -/
def PROPPATCHWith (server : Props → Patch → Props × ℕ × Option (Option String)) (encode : String → String)
    (props : Props) (property : String) (value : List UInt8) (remove : Bool) : Props × Except ℕ Unit :=
  let served := server props (proppatchRequest encode property value remove)
  (served.1, (proppatchOnEOM served.2.1 served.2.2).mapError errnoValue)

/-- `WebDAVPROPPATCH`, against the server on bodies it parses -/
def PROPPATCH (encode : String → String) (props : Props) (property : String) (value : List UInt8) (remove : Bool) :
    Props × Except ℕ Unit :=
  PROPPATCHWith servePatch encode props property value remove

/-! ## `WebDAVHelper` -/

section Helper

variable (encode : String → String)

/-- what `getxattr` reads from a property: its text, the empty value for `o:Null`, and nothing from an empty text,
which has no child node -/
def PropValue.read : PropValue → Option (List UInt8)
  | .text v => if v = [] then none else some v
  | .null => some []

/-- `WebDAVHelper::getxattr` -/
def WebDAVHelper.getxattr (props : Props) (name : String) : Except ℕ (List UInt8) :=
  match (props (kNSOnedata, encode name)).bind PropValue.read with
  | none => .error ENODATA
  | some value => .ok value

/-- `WebDAVHelper::setxattr`: `create` and `replace` are not used -/
def WebDAVHelper.setxattr (props : Props) (name : String) (value : List UInt8) (_create _replace : Bool) :
    Props × Except ℕ Unit :=
  PROPPATCH encode props name value false

/-- `WebDAVHelper::removexattr` -/
def WebDAVHelper.removexattr (props : Props) (name : String) : Props × Except ℕ Unit :=
  PROPPATCH encode props name [] true

/-- one call on the resource's properties -/
def WebDAVHelper.step (props : Props) : Op → Props × Except ℕ Answer
  | .setxattr name value create replace =>
    let r := WebDAVHelper.setxattr encode props name value create replace
    (r.1, r.2.map fun _ => .done)
  | .getxattr name => (props, (WebDAVHelper.getxattr encode props name).map .value)
  | .removexattr name =>
    let r := WebDAVHelper.removexattr encode props name
    (r.1, r.2.map fun _ => .done)

/-- the calls one after another: the properties left and the answers -/
def WebDAVHelper.run : Props → List Op → Props × List (Except ℕ Answer)
  | props, [] => (props, [])
  | props, op :: ops =>
    ((WebDAVHelper.run (WebDAVHelper.step encode props op).1 ops).1,
      (WebDAVHelper.step encode props op).2 :: (WebDAVHelper.run (WebDAVHelper.step encode props op).1 ops).2)

/-- the attributes `getxattr` reads from the properties -/
def decode (props : Props) : Attrs := fun name => (props (kNSOnedata, encode name)).bind PropValue.read

end Helper

/-- the calls as the attributes the WebDAV helper reads see them: a write stores the value whatever its flags, and a
remove changes nothing -/
def WebDAVHelper.observed : Calls :=
  ⟨Spec.getxattr, fun attrs name value _ _ => .ok (Function.update attrs name (some value)), fun attrs _ => .ok attrs⟩

/-! ## The server's answers -/

theorem read_propertyValue (value : List UInt8) : (propertyValue value).read = some value := by
  unfold propertyValue
  split_ifs with h
  · rw [h]; rfl
  · simp [PropValue.read, h]

/-- the server's `207` with `200 OK` is a success -/
theorem proppatchOnEOM_multistatus : proppatchOnEOM 207 (some (some "HTTP/1.1 200 OK")) = .ok () := by
  simp [proppatchOnEOM, httpStatusToPosixError, proppatchParse]

/-- the `EINVAL` of the block never leaves it: `onEOM` answers `EINVAL` only for a status code that means it -/
theorem proppatchOnEOM_eq_EINVAL_iff (resultCode : ℕ) (body : Option (Option String)) :
    proppatchOnEOM resultCode body = .error .EINVAL ↔ httpStatusToPosixError resultCode = some .EINVAL := by
  unfold proppatchOnEOM
  cases httpStatusToPosixError resultCode with
  | some e => simp
  | none =>
    cases proppatchParse body with
    | ok u => simp
    | error e => simp

section Calls

variable {encode : String → String}

theorem PROPPATCH_set (props : Props) (name : String) (value : List UInt8) :
    PROPPATCH encode props name value false =
      (Function.update props (kNSOnedata, encode name) (some (propertyValue value)), .ok ()) := by
  simp [PROPPATCH, PROPPATCHWith, proppatchRequest, servePatch, proppatchOnEOM_multistatus, Except.mapError]

theorem PROPPATCH_remove (props : Props) (name : String) (value : List UInt8) :
    PROPPATCH encode props name value true = (Function.update props ("o:", encode name) none, .ok ()) := by
  simp [PROPPATCH, PROPPATCHWith, proppatchRequest, servePatch, proppatchOnEOM_multistatus, Except.mapError]

/-- both instructions name the property by its encoded name -/
theorem proppatchRequest_key (encode : String → String) (property : String) (value : List UInt8) (remove : Bool) :
    (proppatchRequest encode property value remove).key.2 = encode property := by
  unfold proppatchRequest
  split <;> rfl

/-- **Where the names are XML names, the server is `servePatch`.** -/
theorem PROPPATCHWith_serve_of_isXmlName {property : String} (h : isXmlName (encode property) = true)
    (props : Props) (value : List UInt8) (remove : Bool) :
    PROPPATCHWith serve encode props property value remove = PROPPATCH encode props property value remove := by
  simp only [PROPPATCH, PROPPATCHWith, serve, proppatchRequest_key, h, if_true]

/-- where the encoded name is no XML name, the request is rejected: nothing changes and the call fails with the
`EBADMSG` of `400` -/
theorem PROPPATCHWith_serve_malformed {property : String} (h : isXmlName (encode property) = false)
    (props : Props) (value : List UInt8) (remove : Bool) :
    PROPPATCHWith serve encode props property value remove = (props, .error (errnoValue .EBADMSG)) := by
  simp [PROPPATCHWith, serve, proppatchRequest_key, h, proppatchOnEOM, httpStatusToPosixError, Except.mapError]

theorem getxattr_eq (props : Props) (name : String) :
    WebDAVHelper.getxattr encode props name = Spec.getxattr (decode encode props) name :=
  rfl

/-- a set under the attributes' namespace is a write of the attribute -/
theorem decode_update_onedata (hencode : Function.Injective encode) (props : Props) (name : String)
    (value : List UInt8) :
    decode encode (Function.update props (kNSOnedata, encode name) (some (propertyValue value))) =
      Function.update (decode encode props) name (some value) := by
  funext n
  by_cases hn : n = name
  · subst hn
    simp [decode, read_propertyValue]
  · have hkey : (kNSOnedata, encode n) ≠ (kNSOnedata, encode name) := fun h => hn (hencode (Prod.ext_iff.1 h).2)
    simp [decode, Function.update_of_ne hkey, Function.update_of_ne hn]

/-- a property of another namespace is no attribute -/
theorem decode_update_other {ns : String} (hns : ns ≠ kNSOnedata) (props : Props) (key : String)
    (value : Option PropValue) : decode encode (Function.update props (ns, key) value) = decode encode props := by
  funext n
  have hkey : (kNSOnedata, encode n) ≠ (ns, key) := fun h => hns (Prod.ext_iff.1 h).1.symm
  simp only [decode, Function.update_of_ne hkey]

/-- **One call, read back.** What the helper reads after a call is what `observed` computes from what it read
before, and the call answers as there -/
theorem decode_step (hencode : Function.Injective encode) (props : Props) (op : Op) :
    (decode encode (WebDAVHelper.step encode props op).1, (WebDAVHelper.step encode props op).2) =
      WebDAVHelper.observed.step (decode encode props) op := by
  cases op with
  | setxattr name value create replace =>
    simp only [WebDAVHelper.step, WebDAVHelper.setxattr, PROPPATCH_set, decode_update_onedata hencode,
      Calls.step, WebDAVHelper.observed, Except.map]
  | getxattr name => simp only [WebDAVHelper.step, Calls.step, WebDAVHelper.observed, getxattr_eq]
  | removexattr name =>
    have hns : "o:" ≠ kNSOnedata := by decide
    simp only [WebDAVHelper.step, WebDAVHelper.removexattr, PROPPATCH_remove, decode_update_other hns,
      Calls.step, WebDAVHelper.observed, Except.map]

/-- **Every run, read back.** Over every run, the attributes the helper reads and its answers are those of
`observed` -/
theorem decode_run (hencode : Function.Injective encode) (props : Props) (ops : List Op) :
    (decode encode (WebDAVHelper.run encode props ops).1, (WebDAVHelper.run encode props ops).2) =
      WebDAVHelper.observed.run (decode encode props) ops := by
  -- induction on the calls, the properties generalized; each call is `decode_step`
  induction ops generalizing props with
  | nil => rfl
  | cons op ops ih =>
    have hstep := Prod.ext_iff.1 (decode_step hencode props op)
    have hrest := Prod.ext_iff.1 (ih (WebDAVHelper.step encode props op).1)
    simp only at hstep hrest
    simp only [WebDAVHelper.run, Calls.run, ← hstep.1, ← hstep.2, ← hrest.1, ← hrest.2]

end Calls

/-! ## Against the interface -/

/-- a read, or a write with neither flag -/
def Op.Plain : Op → Prop
  | .getxattr _ => True
  | .setxattr _ _ create replace => create = false ∧ replace = false
  | .removexattr _ => False

/-- the calls that the interface lets succeed as the WebDAV helper does: reads, and writes whose flags hold -/
def Agrees (attrs : Attrs) : Op → Prop
  | .getxattr _ => True
  | .setxattr name _ create replace =>
    ¬(create = true ∧ replace = true) ∧ (create = true → attrs name = none) ∧ (replace = true → (attrs name).isSome)
  | .removexattr _ => False

theorem Agrees.of_plain {attrs : Attrs} {op : Op} (hop : op.Plain) : Agrees attrs op := by
  cases op with
  | setxattr name value create replace =>
    obtain ⟨rfl, rfl⟩ := hop
    simp [Agrees]
  | getxattr name => trivial
  | removexattr name => exact hop.elim

theorem observed_step_eq_iff (attrs : Attrs) (op : Op) :
    WebDAVHelper.observed.step attrs op = spec.step attrs op ↔ Agrees attrs op := by
  cases op with
  | setxattr name value create replace =>
    cases create <;> cases replace <;> cases hv : attrs name <;>
      simp [Calls.step, WebDAVHelper.observed, spec, Spec.setxattr, Agrees, hv]
  | getxattr name => simp [Calls.step, WebDAVHelper.observed, spec, Agrees]
  | removexattr name =>
    -- the interface drops the attribute or answers `ENODATA`; the helper does neither
    simp only [Calls.step, WebDAVHelper.observed, spec, Spec.removexattr, Agrees, iff_false]
    cases hv : attrs name with
    | none => simp
    | some value =>
      intro h
      have := congrFun (Prod.ext_iff.1 h).1 name
      simp [hv] at this

/-- two helpers that step alike on the calls of `P` run alike on runs of such calls -/
theorem Calls.run_eq_of_step {h h' : Calls} {P : Op → Prop}
    (hstep : ∀ attrs op, P op → h.step attrs op = h'.step attrs op) :
    ∀ (attrs : Attrs) (ops : List Op), (∀ op ∈ ops, P op) → h.run attrs ops = h'.run attrs ops := by
  intro attrs ops hops
  induction ops generalizing attrs with
  | nil => rfl
  | cons op ops ih =>
    have hrest := ih (h'.step attrs op).1 fun o ho => hops o (List.mem_cons_of_mem op ho)
    simp only [Calls.run, hstep attrs op (hops op List.mem_cons_self), hrest]

/-- no call of `observed` drops an attribute -/
theorem observed_step_isSome {attrs : Attrs} {name : String} (h : (attrs name).isSome) (op : Op) :
    ((WebDAVHelper.observed.step attrs op).1 name).isSome := by
  cases op with
  | setxattr n value create replace =>
    by_cases hn : name = n
    · subst hn
      simp [Calls.step, WebDAVHelper.observed]
    · simpa [Calls.step, WebDAVHelper.observed, Function.update_of_ne hn] using h
  | getxattr n => exact h
  | removexattr n => exact h

theorem observed_run_isSome {name : String} :
    ∀ (attrs : Attrs) (ops : List Op), (attrs name).isSome → ((WebDAVHelper.observed.run attrs ops).1 name).isSome := by
  intro attrs ops h
  induction ops generalizing attrs with
  | nil => exact h
  | cons op ops ih => exact ih _ (observed_step_isSome h op)

/-- **The WebDAV helper ignores the flags and never removes an attribute.** For an injective name encoding: runs of
reads and of writes without flags answer as `spec` does and leave the same attributes; one call steps as `spec`
exactly when it is a read or a write whose flags hold, so `create` on an attribute that exists, `replace` on one that
does not, both at once, and every `removexattr` answer otherwise; an attribute once there stays there over every run;
and the `EINVAL` of `WebDAVPROPPATCH::onEOM` is never answered for a `2xx` status. -/
theorem webDAV_xattrs_ignore_flags_and_removal {encode : String → String} (hencode : Function.Injective encode) :
    (∀ (props : Props) (ops : List Op), (∀ op ∈ ops, op.Plain) →
        (decode encode (WebDAVHelper.run encode props ops).1, (WebDAVHelper.run encode props ops).2) =
          spec.run (decode encode props) ops) ∧
      (∀ (props : Props) (op : Op),
        (decode encode (WebDAVHelper.step encode props op).1, (WebDAVHelper.step encode props op).2) =
            spec.step (decode encode props) op ↔ Agrees (decode encode props) op) ∧
      (∀ (props : Props) (ops : List Op) (name : String), (decode encode props name).isSome →
        (decode encode (WebDAVHelper.run encode props ops).1 name).isSome) ∧
      ∀ (resultCode : ℕ) (body : Option (Option String)), resultCode / 100 = 2 →
        proppatchOnEOM resultCode body ≠ .error .EINVAL := by
  refine ⟨fun props ops hops => ?_, fun props op => ?_, fun props ops name h => ?_,
    fun resultCode body hcode => ?_⟩
  · rw [decode_run hencode]
    exact Calls.run_eq_of_step (fun attrs op hop => (observed_step_eq_iff attrs op).2 (Agrees.of_plain hop)) _ ops
      hops
  · rw [decode_step hencode, observed_step_eq_iff]
  · have hrun := congrArg Prod.fst (decode_run hencode props ops)
    simp only at hrun
    rw [hrun]
    exact observed_run_isSome _ ops h
  · rw [Ne, proppatchOnEOM_eq_EINVAL_iff, WebDAV.httpStatusToPosixError_of_div hcode]
    simp

theorem webDAV_xattrs_ignore_flags_and_removal_id :
    Function.Injective (id : String → String) ∧
      (∀ (props : Props) (ops : List Op), (∀ op ∈ ops, op.Plain) →
        (decode id (WebDAVHelper.run id props ops).1, (WebDAVHelper.run id props ops).2) =
          spec.run (decode id props) ops) :=
  ⟨Function.injective_id, (webDAV_xattrs_ignore_flags_and_removal Function.injective_id).1⟩

example : (WebDAVHelper.run id (fun _ => none)
    [.setxattr "user.a" [1] true true, .removexattr "user.a", .getxattr "user.a"]).2 =
      [.ok .done, .ok .done, .ok (.value [1])] := by decide

end OneHelpers.Xattr
