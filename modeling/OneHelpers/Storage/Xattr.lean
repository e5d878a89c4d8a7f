/-
The extended-attribute calls of three helpers: `PosixHelper` (`src/posixHelper.cc`), `GlusterFSHelper`
(`src/glusterfsHelper.cc`) and `CephHelper` (`src/cephHelper.cc`), each over the attribute store of one file.

The POSIX and GlusterFS helpers hand `create` and `replace` to `setxattr(2)` (or `glfs_setxattr`) as `XATTR_CREATE` /
`XATTR_REPLACE`, and read a value into a buffer of 256 (POSIX) or 1024 (GlusterFS) bytes, filled up to one byte short,
and on `ERANGE` into one of `XATTR_SIZE_MAX` bytes, again filled up to one byte short. The Ceph helper's striper has no
flags: the helper reads the attribute first and answers `EEXIST` / `ENODATA` itself, and writes in a second call.

The calls under the POSIX and GlusterFS helpers are a parameter, `SysCalls`. What the helpers rely on of them is
`SysCalls.Lawful`: for the names the file's filesystem takes and the values within its limit they behave as the
manual pages of `setxattr(2)`, `getxattr(2)` and `removexattr(2)` say (`sysSetxattr`, `sysGetxattr`,
`sysRemovexattr`); anywhere else (a namespace the filesystem does not support or the caller may not use, a name past
its length limit, a value past the filesystem's limit) they may fail in any way. The striper is modelled on an existing
file and on names and values within the OSD's limits: `getxattr` answers `ENODATA` for a missing attribute, `setxattr`
overwrites, and `rmxattr`, a `RMXATTR` of the file's first object, succeeds also when the attribute is missing. Errors
are positive `errno` values, as `makePosixError` takes their absolute value.

Results:
- `xattr_helpers_refine`: from attributes shorter than `XATTR_SIZE_MAX`, over every run of `setxattr`, `getxattr` and
  `removexattr` calls on names the filesystem takes, with values within its limit and shorter than `XATTR_SIZE_MAX`,
  the POSIX and GlusterFS helpers answer as `spec`, the semantics of the helper interface, and leave the same
  attributes; the Ceph helper leaves the same attributes and answers the same, except that removing a missing
  attribute succeeds where `spec` answers `ENODATA`.
- `xattr_size_max_unreadable`: the POSIX and GlusterFS helpers read back exactly the values shorter than
  `XATTR_SIZE_MAX`; on a filesystem that takes values of `XATTR_SIZE_MAX` bytes, such a value is stored and then
  answered with `ERANGE`, where the Ceph helper reads it.
- `ceph_create_not_exclusive`: `CephHelper::setxattr` with `create` is no atomic create. When every call's check
  runs before every call's write, all the calls creating one missing attribute succeed and the last write wins; run
  one after another, only the first does.
-/
import Mathlib.Tactic

namespace OneHelpers.Xattr

/-! ## The attribute store and the system calls -/

/-- the extended attributes of one file: each name's value, if it has one -/
abbrev Attrs := String → Option (List UInt8)

/-- `errno` values (Linux) -/
def E2BIG : ℕ := 7
def EEXIST : ℕ := 17
def EINVAL : ℕ := 22
def EDOM : ℕ := 33
def ERANGE : ℕ := 34
def ENODATA : ℕ := 61

/-- `XATTR_SIZE_MAX` (`linux/limits.h`): the longest value `setxattr(2)` takes -/
def XATTR_SIZE_MAX : ℕ := 65536

def XATTR_CREATE : ℕ := 1
def XATTR_REPLACE : ℕ := 2

/-- `setxattr(2)` as its manual page defines it, on a name the filesystem takes: a value longer than `XATTR_SIZE_MAX`
is refused, `XATTR_CREATE` refuses an attribute that exists and `XATTR_REPLACE` one that does not -/
def sysSetxattr (attrs : Attrs) (name : String) (value : List UInt8) (flags : ℕ) : Except ℕ Attrs :=
  if XATTR_SIZE_MAX < value.length then .error E2BIG
  else if flags &&& XATTR_CREATE ≠ 0 ∧ (attrs name).isSome then .error EEXIST
  else if flags &&& XATTR_REPLACE ≠ 0 ∧ (attrs name).isNone then .error ENODATA
  else .ok (Function.update attrs name (some value))

/-- `getxattr(2)` into a buffer of `size` bytes (`size > 0`): the value, or `ERANGE` when it does not fit -/
def sysGetxattr (attrs : Attrs) (name : String) (size : ℕ) : Except ℕ (List UInt8) :=
  match attrs name with
  | none => .error ENODATA
  | some value => if size < value.length then .error ERANGE else .ok value

/-- `removexattr(2)` -/
def sysRemovexattr (attrs : Attrs) (name : String) : Except ℕ Attrs :=
  match attrs name with
  | none => .error ENODATA
  | some _ => .ok (Function.update attrs name none)

/-- the attribute calls the POSIX and GlusterFS helpers make on one file: `setxattr(2)`, `getxattr(2)` and
`removexattr(2)`, or their `glfs_` counterparts -/
structure SysCalls where
  setxattr : Attrs → String → List UInt8 → ℕ → Except ℕ Attrs
  getxattr : Attrs → String → ℕ → Except ℕ (List UInt8)
  removexattr : Attrs → String → Except ℕ Attrs

/-- what the helpers rely on of the calls, for the names the file's filesystem takes (`names`: in a namespace it
supports and the caller may use, within its length limit) and values of up to `valueMax` bytes, its limit: there the
calls behave as their manual pages say -/
structure SysCalls.Lawful (sys : SysCalls) (names : String → Prop) (valueMax : ℕ) : Prop where
  valueMax_le : valueMax ≤ XATTR_SIZE_MAX
  setxattr : ∀ attrs name value flags, names name → value.length ≤ valueMax →
    sys.setxattr attrs name value flags = sysSetxattr attrs name value flags
  getxattr : ∀ attrs name size, names name → 0 < size → sys.getxattr attrs name size = sysGetxattr attrs name size
  removexattr : ∀ attrs name, names name → sys.removexattr attrs name = sysRemovexattr attrs name

/-- the calls as their manual pages define them, on a filesystem that takes every name and values of up to
`XATTR_SIZE_MAX` bytes -/
def manualCalls : SysCalls := ⟨sysSetxattr, sysGetxattr, sysRemovexattr⟩

theorem manualCalls_lawful : manualCalls.Lawful (fun _ => True) XATTR_SIZE_MAX :=
  ⟨le_rfl, fun _ _ _ _ _ _ => rfl, fun _ _ _ _ _ => rfl, fun _ _ _ => rfl⟩

/-! ## `PosixHelper` and `GlusterFSHelper` -/

/-- the `getxattr` of `PosixHelper` and `GlusterFSHelper`: a first call into `initialMaxSize - 1` bytes, and on
`ERANGE` a second into `XATTR_SIZE_MAX - 1` bytes -/
def getxattrWith (sys : SysCalls) (initialMaxSize : ℕ) (attrs : Attrs) (name : String) : Except ℕ (List UInt8) :=
  match sys.getxattr attrs name (initialMaxSize - 1) with
  | .error e => if e = ERANGE then sys.getxattr attrs name (XATTR_SIZE_MAX - 1) else .error e
  | .ok value => .ok value

/-- the `flags` of `setxattr` from `create` and `replace`; both at once is `EINVAL` -/
def setxattrFlags (create replace : Bool) : Except ℕ ℕ :=
  if create && replace then .error EINVAL
  else .ok (if create then XATTR_CREATE else if replace then XATTR_REPLACE else 0)

/-- `PosixHelper::getxattr`, under a user context that `UserCtxSetter` could set (`valid`) or not -/
def PosixHelper.getxattr (sys : SysCalls) (valid : Bool) (attrs : Attrs) (name : String) : Except ℕ (List UInt8) :=
  if valid then getxattrWith sys 256 attrs name else .error EDOM

/-- `PosixHelper::setxattr` -/
def PosixHelper.setxattr (sys : SysCalls) (valid : Bool) (attrs : Attrs) (name : String) (value : List UInt8)
    (create replace : Bool) : Except ℕ Attrs :=
  if valid then setxattrFlags create replace >>= sys.setxattr attrs name value else .error EDOM

/-- `PosixHelper::removexattr` -/
def PosixHelper.removexattr (sys : SysCalls) (valid : Bool) (attrs : Attrs) (name : String) : Except ℕ Attrs :=
  if valid then sys.removexattr attrs name else .error EDOM

/-- `GlusterFSHelper::getxattr` -/
def GlusterFSHelper.getxattr (sys : SysCalls) (attrs : Attrs) (name : String) : Except ℕ (List UInt8) :=
  getxattrWith sys 1024 attrs name

/-- `GlusterFSHelper::setxattr` -/
def GlusterFSHelper.setxattr (sys : SysCalls) (attrs : Attrs) (name : String) (value : List UInt8)
    (create replace : Bool) : Except ℕ Attrs :=
  setxattrFlags create replace >>= sys.setxattr attrs name value

/-- `GlusterFSHelper::removexattr` -/
def GlusterFSHelper.removexattr (sys : SysCalls) (attrs : Attrs) (name : String) : Except ℕ Attrs :=
  sys.removexattr attrs name

/-! ## `CephHelper` -/

/-- `RadosStriper::getxattr`: the value, or `ENODATA` -/
def striperGetxattr (attrs : Attrs) (name : String) : Except ℕ (List UInt8) :=
  match attrs name with
  | none => .error ENODATA
  | some value => .ok value

/-- `RadosStriper::setxattr`: the value replaces whatever was there -/
def striperSetxattr (attrs : Attrs) (name : String) (value : List UInt8) : Attrs :=
  Function.update attrs name (some value)

/-- `RadosStriper::rmxattr`: a `RMXATTR` of the file's first object, which succeeds also when the attribute is
missing -/
def striperRmxattr (attrs : Attrs) (name : String) : Except ℕ Attrs := .ok (Function.update attrs name none)

/-- `CephHelper::getxattr` -/
def CephHelper.getxattr (attrs : Attrs) (name : String) : Except ℕ (List UInt8) := striperGetxattr attrs name

/-- the checks `CephHelper::setxattr` makes before it writes: the error it answers, or `none` to go on and write -/
def CephHelper.setxattrCheck (attrs : Attrs) (name : String) (create replace : Bool) : Option ℕ :=
  if create && replace then some EINVAL
  else if create then
    -- `xattrExists >= 0`: any answer but an error means the attribute is there
    match striperGetxattr attrs name with
    | .ok _ => some EEXIST
    | .error _ => none
  else if replace then
    match striperGetxattr attrs name with
    | .ok _ => none
    | .error _ => some ENODATA
  else none

/-- `CephHelper::setxattr`: the checks, then the write -/
def CephHelper.setxattr (attrs : Attrs) (name : String) (value : List UInt8) (create replace : Bool) :
    Except ℕ Attrs :=
  match CephHelper.setxattrCheck attrs name create replace with
  | some e => .error e
  | none => .ok (striperSetxattr attrs name value)

/-- `CephHelper::removexattr` -/
def CephHelper.removexattr (attrs : Attrs) (name : String) : Except ℕ Attrs := striperRmxattr attrs name

/-! ## What the helper interface promises -/

/-- the extended-attribute semantics of the helper interface: `create` and `replace` as `XATTR_CREATE` and
`XATTR_REPLACE` of `setxattr(2)`, both at once refused, with no bound on the value -/
def Spec.setxattr (attrs : Attrs) (name : String) (value : List UInt8) (create replace : Bool) : Except ℕ Attrs :=
  if create && replace then .error EINVAL
  else if create && (attrs name).isSome then .error EEXIST
  else if replace && (attrs name).isNone then .error ENODATA
  else .ok (Function.update attrs name (some value))

def Spec.getxattr (attrs : Attrs) (name : String) : Except ℕ (List UInt8) :=
  match attrs name with
  | none => .error ENODATA
  | some value => .ok value

def Spec.removexattr (attrs : Attrs) (name : String) : Except ℕ Attrs :=
  match attrs name with
  | none => .error ENODATA
  | some _ => .ok (Function.update attrs name none)

/-- a call on the attributes of one file -/
inductive Op where
  | setxattr (name : String) (value : List UInt8) (create replace : Bool)
  | getxattr (name : String)
  | removexattr (name : String)

/-- the answer to a call: done, or the value read -/
inductive Answer where
  | done
  | value (v : List UInt8)
  deriving DecidableEq, Repr

/-- the three calls of one helper -/
structure Calls where
  getxattr : Attrs → String → Except ℕ (List UInt8)
  setxattr : Attrs → String → List UInt8 → Bool → Bool → Except ℕ Attrs
  removexattr : Attrs → String → Except ℕ Attrs

/-- a call that changes the attributes answers `done`, and a failed one leaves them as they were -/
def Calls.step (h : Calls) (attrs : Attrs) : Op → Attrs × Except ℕ Answer
  | .setxattr name value create replace =>
    match h.setxattr attrs name value create replace with
    | .ok attrs' => (attrs', .ok .done)
    | .error e => (attrs, .error e)
  | .getxattr name => (attrs, (h.getxattr attrs name).map .value)
  | .removexattr name =>
    match h.removexattr attrs name with
    | .ok attrs' => (attrs', .ok .done)
    | .error e => (attrs, .error e)

/-- the calls one after another: the attributes left and the answers -/
def Calls.run (h : Calls) : Attrs → List Op → Attrs × List (Except ℕ Answer)
  | attrs, [] => (attrs, [])
  | attrs, op :: ops => ((h.run (h.step attrs op).1 ops).1, (h.step attrs op).2 :: (h.run (h.step attrs op).1 ops).2)

def spec : Calls := ⟨Spec.getxattr, Spec.setxattr, Spec.removexattr⟩

/-- the POSIX helper with a user context it could set -/
def PosixHelper.calls (sys : SysCalls) : Calls :=
  ⟨PosixHelper.getxattr sys true, PosixHelper.setxattr sys true, PosixHelper.removexattr sys true⟩

def GlusterFSHelper.calls (sys : SysCalls) : Calls :=
  ⟨GlusterFSHelper.getxattr sys, GlusterFSHelper.setxattr sys, GlusterFSHelper.removexattr sys⟩

def CephHelper.calls : Calls := ⟨CephHelper.getxattr, CephHelper.setxattr, CephHelper.removexattr⟩

example : ((PosixHelper.calls manualCalls).run (fun _ => none)
    [.setxattr "user.a" [1, 2] true false, .setxattr "user.a" [3] true false, .getxattr "user.a"]).2 =
      [.ok .done, .error EEXIST, .ok (.value [1, 2])] := by decide

/-! ## Each helper steps as the specification -/

/-- every stored value is shorter than `XATTR_SIZE_MAX` -/
def Small (attrs : Attrs) : Prop := ∀ name value, attrs name = some value → value.length < XATTR_SIZE_MAX

/-- a call on a name the filesystem takes, whose value, if any, is within its limit `valueMax` and shorter than
`XATTR_SIZE_MAX` -/
def Op.Within (names : String → Prop) (valueMax : ℕ) : Op → Prop
  | .setxattr name value _ _ => names name ∧ value.length ≤ valueMax ∧ value.length < XATTR_SIZE_MAX
  | .getxattr name => names name
  | .removexattr name => names name

/-- a removal -/
def Op.isRemove : Op → Bool
  | .removexattr _ => true
  | _ => false

section Sys

variable {sys : SysCalls} {names : String → Prop} {valueMax : ℕ}

/-- the two buffers of `getxattrWith`: a value that fits the first is read by it, any other shorter than
`XATTR_SIZE_MAX` by the second, and a longer one by neither -/
theorem getxattrWith_eq (hsys : sys.Lawful names valueMax) {initialMaxSize : ℕ} (hpos : 2 ≤ initialMaxSize)
    (hsize : initialMaxSize ≤ XATTR_SIZE_MAX) (attrs : Attrs) {name : String} (hname : names name) :
    getxattrWith sys initialMaxSize attrs name =
      match attrs name with
      | none => .error ENODATA
      | some value => if value.length < XATTR_SIZE_MAX then .ok value else .error ERANGE := by
  unfold getxattrWith
  rw [hsys.getxattr _ _ _ hname (by omega), hsys.getxattr _ _ _ hname (by decide)]
  unfold sysGetxattr
  cases hv : attrs name with
  | none => rfl
  | some value =>
    simp only
    by_cases hfit : initialMaxSize - 1 < value.length
    · -- the first buffer is too short: `ERANGE`, and the second call decides
      rw [if_pos hfit]
      simp only [if_true]
      by_cases hlt : value.length < XATTR_SIZE_MAX
      · rw [if_neg (by omega), if_pos hlt]
      · rw [if_pos (by omega), if_neg hlt]
    · -- it fits the first buffer, which is shorter than `XATTR_SIZE_MAX`
      have hlt : value.length < XATTR_SIZE_MAX := by
        unfold XATTR_SIZE_MAX at hsize ⊢
        omega
      rw [if_neg hfit, if_pos hlt]

theorem setxattrFlags_bind (hsys : sys.Lawful names valueMax) (attrs : Attrs) {name : String} (hname : names name)
    {value : List UInt8} (hlen : value.length ≤ valueMax) (create replace : Bool) :
    (setxattrFlags create replace >>= sys.setxattr attrs name value) = Spec.setxattr attrs name value create replace := by
  have hcall : sys.setxattr attrs name value = sysSetxattr attrs name value :=
    funext fun flags => hsys.setxattr attrs name value flags hname hlen
  have hmax : value.length ≤ XATTR_SIZE_MAX := hlen.trans hsys.valueMax_le
  rw [hcall]
  cases create <;> cases replace <;> cases hv : attrs name <;>
    simp [setxattrFlags, sysSetxattr, Spec.setxattr, hv, XATTR_CREATE, XATTR_REPLACE, not_lt.2 hmax, bind,
      Except.bind]

theorem removexattr_eq (hsys : sys.Lawful names valueMax) (attrs : Attrs) {name : String} (hname : names name) :
    sys.removexattr attrs name = Spec.removexattr attrs name :=
  hsys.removexattr attrs name hname

theorem posix_step (hsys : sys.Lawful names valueMax) {attrs : Attrs} (hattrs : Small attrs) {op : Op}
    (hop : op.Within names valueMax) : (PosixHelper.calls sys).step attrs op = spec.step attrs op := by
  cases op with
  | setxattr name value create replace =>
    simp only [Calls.step, PosixHelper.calls, spec, PosixHelper.setxattr, if_true,
      setxattrFlags_bind hsys attrs hop.1 hop.2.1]
  | getxattr name =>
    simp only [Calls.step, PosixHelper.calls, spec, PosixHelper.getxattr, if_true,
      getxattrWith_eq hsys (show 2 ≤ 256 by decide) (show 256 ≤ XATTR_SIZE_MAX by decide) attrs hop]
    cases hv : attrs name with
    | none => simp [Spec.getxattr, hv]
    | some value => simp [Spec.getxattr, hv, hattrs name value hv]
  | removexattr name =>
    simp only [Calls.step, PosixHelper.calls, spec, PosixHelper.removexattr, if_true, removexattr_eq hsys attrs hop]

theorem glusterfs_step (hsys : sys.Lawful names valueMax) {attrs : Attrs} (hattrs : Small attrs) {op : Op}
    (hop : op.Within names valueMax) : (GlusterFSHelper.calls sys).step attrs op = spec.step attrs op := by
  cases op with
  | setxattr name value create replace =>
    simp only [Calls.step, GlusterFSHelper.calls, spec, GlusterFSHelper.setxattr,
      setxattrFlags_bind hsys attrs hop.1 hop.2.1]
  | getxattr name =>
    simp only [Calls.step, GlusterFSHelper.calls, spec, GlusterFSHelper.getxattr,
      getxattrWith_eq hsys (show 2 ≤ 1024 by decide) (show 1024 ≤ XATTR_SIZE_MAX by decide) attrs hop]
    cases hv : attrs name with
    | none => simp [Spec.getxattr, hv]
    | some value => simp [Spec.getxattr, hv, hattrs name value hv]
  | removexattr name =>
    simp only [Calls.step, GlusterFSHelper.calls, spec, GlusterFSHelper.removexattr, removexattr_eq hsys attrs hop]

end Sys

/-- the Ceph helper's own checks give the flags' meaning exactly, with no bound on the value -/
theorem cephHelper_setxattr_eq (attrs : Attrs) (name : String) (value : List UInt8) (create replace : Bool) :
    CephHelper.setxattr attrs name value create replace = Spec.setxattr attrs name value create replace := by
  cases create <;> cases replace <;> cases hv : attrs name <;>
    simp [CephHelper.setxattr, CephHelper.setxattrCheck, striperGetxattr, striperSetxattr, Spec.setxattr, hv]

/-- the Ceph helper leaves the attributes as the specification does; it answers as it, except that a removal is
always done -/
theorem ceph_step (attrs : Attrs) (op : Op) :
    CephHelper.calls.step attrs op =
      ((spec.step attrs op).1, if op.isRemove then .ok .done else (spec.step attrs op).2) := by
  cases op with
  | setxattr name value create replace =>
    simp only [Calls.step, CephHelper.calls, spec, cephHelper_setxattr_eq, Op.isRemove]
    split <;> rfl
  | getxattr name => rfl
  | removexattr name =>
    simp only [Calls.step, CephHelper.calls, spec, CephHelper.removexattr, striperRmxattr, Spec.removexattr,
      Op.isRemove, if_true]
    cases hv : attrs name with
    | none =>
      -- a missing attribute stays missing: the removal changes nothing
      have hsame : Function.update attrs name none = attrs := by
        rw [← hv]
        exact Function.update_eq_self name attrs
      simp [hsame]
    | some value => simp

/-- a `setxattr` of the specification leaves the attributes as they were or stores the value -/
theorem spec_setxattr_attrs (attrs : Attrs) (name : String) (value : List UInt8) (create replace : Bool) :
    (spec.step attrs (.setxattr name value create replace)).1 = attrs ∨
      (spec.step attrs (.setxattr name value create replace)).1 = Function.update attrs name (some value) := by
  simp only [Calls.step, spec, Spec.setxattr]
  split_ifs <;> simp

/-- a `removexattr` of the specification leaves the attributes as they were or drops the attribute -/
theorem spec_removexattr_attrs (attrs : Attrs) (name : String) :
    (spec.step attrs (.removexattr name)).1 = attrs ∨
      (spec.step attrs (.removexattr name)).1 = Function.update attrs name none := by
  simp only [Calls.step, spec, Spec.removexattr]
  cases attrs name <;> simp

theorem Small.update {attrs : Attrs} (hattrs : Small attrs) (name : String) {value : Option (List UInt8)}
    (hvalue : ∀ v ∈ value, v.length < XATTR_SIZE_MAX) : Small (Function.update attrs name value) := by
  intro n v hv
  by_cases hn : n = name
  · subst hn
    rw [Function.update_self] at hv
    exact hvalue v hv
  · rw [Function.update_of_ne hn] at hv
    exact hattrs n v hv

/-- the specification keeps the stored values short when the calls' values are -/
theorem Small.step {names : String → Prop} {valueMax : ℕ} {attrs : Attrs} (hattrs : Small attrs) {op : Op}
    (hop : op.Within names valueMax) : Small (spec.step attrs op).1 := by
  cases op with
  | setxattr name value create replace =>
    rcases spec_setxattr_attrs attrs name value create replace with h | h <;> rw [h]
    · exact hattrs
    · exact hattrs.update name fun v hv => by
        obtain rfl := Option.mem_some_iff.1 hv
        exact hop.2.2
  | getxattr name => exact hattrs
  | removexattr name =>
    rcases spec_removexattr_attrs attrs name with h | h <;> rw [h]
    · exact hattrs
    · exact hattrs.update name fun v hv => absurd hv (by simp)

/-- a helper that steps as the specification on short attributes and calls within the limits runs as it -/
theorem run_eq_spec {names : String → Prop} {valueMax : ℕ} {h : Calls}
    (hstep : ∀ attrs, Small attrs → ∀ op : Op, op.Within names valueMax → h.step attrs op = spec.step attrs op) :
    ∀ (attrs : Attrs), Small attrs → ∀ ops : List Op, (∀ op ∈ ops, op.Within names valueMax) →
      h.run attrs ops = spec.run attrs ops := by
  intro attrs hattrs ops hops
  -- induction on the calls, the attributes generalized; `Small` is carried by `Small.step`
  induction ops generalizing attrs with
  | nil => rfl
  | cons op ops ih =>
    have hop := hops op List.mem_cons_self
    have hrest := ih (spec.step attrs op).1 (hattrs.step hop) fun o ho => hops o (List.mem_cons_of_mem op ho)
    simp only [Calls.run, hstep attrs hattrs op hop, hrest]

/-- the Ceph helper's run: the specification's attributes, and its answers with every removal done -/
theorem ceph_run : ∀ (attrs : Attrs) (ops : List Op),
    (CephHelper.calls.run attrs ops).1 = (spec.run attrs ops).1 ∧
      (CephHelper.calls.run attrs ops).2 =
        List.zipWith (fun op answer => if op.isRemove then .ok .done else answer) ops (spec.run attrs ops).2
  | attrs, [] => ⟨rfl, rfl⟩
  | attrs, op :: ops => by
    -- induction on the calls: the two runs go on from the same attributes
    obtain ⟨hattrs, hanswers⟩ := ceph_run (spec.step attrs op).1 ops
    simp only [Calls.run, ceph_step attrs op, hattrs, hanswers, List.zipWith_cons_cons, true_and]

/-- **The three helpers keep the interface's attribute semantics, Ceph's removal apart.** For calls that behave as
their manual pages say on the names the file's filesystem takes and the values within its limit: from attributes
shorter than `XATTR_SIZE_MAX`, over every run of `setxattr`, `getxattr` and `removexattr` calls on such names, with
such values shorter than `XATTR_SIZE_MAX`, `PosixHelper` and `GlusterFSHelper` answer every call as `spec` does and
leave the same attributes: `create` fails with `EEXIST` on an attribute that exists, `replace` with `ENODATA` on one
that does not, both at once with `EINVAL`, and a read returns the value last written. `CephHelper` leaves the same
attributes and gives the same answers, except that every removal is done, also of a missing attribute, where `spec`
answers `ENODATA`. -/
theorem xattr_helpers_refine {sys : SysCalls} {names : String → Prop} {valueMax : ℕ} (hsys : sys.Lawful names valueMax)
    {attrs : Attrs} (hattrs : Small attrs) {ops : List Op} (hops : ∀ op ∈ ops, op.Within names valueMax) :
    (PosixHelper.calls sys).run attrs ops = spec.run attrs ops ∧
      (GlusterFSHelper.calls sys).run attrs ops = spec.run attrs ops ∧
      (CephHelper.calls.run attrs ops).1 = (spec.run attrs ops).1 ∧
      (CephHelper.calls.run attrs ops).2 =
        List.zipWith (fun op answer => if op.isRemove then .ok .done else answer) ops (spec.run attrs ops).2 ∧
      ∀ name, attrs name = none → (spec.step attrs (.removexattr name)).2 = .error ENODATA ∧
        (CephHelper.calls.step attrs (.removexattr name)).2 = .ok .done :=
  ⟨run_eq_spec (fun _ ha _ ho => posix_step hsys ha ho) attrs hattrs ops hops,
    run_eq_spec (fun _ ha _ ho => glusterfs_step hsys ha ho) attrs hattrs ops hops,
    (ceph_run attrs ops).1, (ceph_run attrs ops).2,
    fun name hv => ⟨by simp [Calls.step, spec, Spec.removexattr, hv], rfl⟩⟩

theorem xattr_helpers_refine_three :
    manualCalls.Lawful (fun _ => True) XATTR_SIZE_MAX ∧ Small (fun _ => none) ∧
      (∀ op ∈ [Op.setxattr "user.a" [1] true false, .setxattr "user.a" [2] false true, .getxattr "user.a"],
        op.Within (fun _ => True) XATTR_SIZE_MAX) ∧
      ((PosixHelper.calls manualCalls).run (fun _ => none)
        [.setxattr "user.a" [1] true false, .setxattr "user.a" [2] false true, .getxattr "user.a"]).2 =
        (spec.run (fun _ => none)
          [.setxattr "user.a" [1] true false, .setxattr "user.a" [2] false true, .getxattr "user.a"]).2 := by
  have hsmall : Small (fun _ => none) := fun _ _ h => by simp at h
  have hops : ∀ op ∈ [Op.setxattr "user.a" [1] true false, .setxattr "user.a" [2] false true, .getxattr "user.a"],
      op.Within (fun _ => True) XATTR_SIZE_MAX := by
    intro op hop
    simp only [List.mem_cons, List.not_mem_nil, or_false] at hop
    rcases hop with rfl | rfl | rfl <;> simp [Op.Within, XATTR_SIZE_MAX]
  exact ⟨manualCalls_lawful, hsmall, hops, by rw [(xattr_helpers_refine manualCalls_lawful hsmall hops).1]⟩

/-! ## Values of `XATTR_SIZE_MAX` bytes -/

/-- the arguments of one `CephHelper::setxattr` call -/
structure SetCall where
  name : String
  value : List UInt8
  create : Bool
  replace : Bool

/-- where a call stands: its checks to come, its write to come, or answered -/
inductive Phase where
  | pending
  | checked
  | answered (result : Except ℕ Unit)
  deriving DecidableEq

/-- what runs next: the checks of call `i`, against the attributes as they are then, or its write -/
inductive Sched where
  | check (i : ℕ)
  | write (i : ℕ)

/-- one step of the calls in flight, on the striper's attributes and the phase of each call; a step of a call that
is not at that point changes nothing -/
def flightStep (calls : List SetCall) (s : Attrs × List Phase) : Sched → Attrs × List Phase
  | .check i =>
    match calls[i]?, s.2[i]? with
    | some c, some .pending =>
      match CephHelper.setxattrCheck s.1 c.name c.create c.replace with
      | some e => (s.1, s.2.set i (.answered (.error e)))
      | none => (s.1, s.2.set i .checked)
    | _, _ => s
  | .write i =>
    match calls[i]?, s.2[i]? with
    | some c, some .checked => (striperSetxattr s.1 c.name c.value, s.2.set i (.answered (.ok ())))
    | _, _ => s

def flightRun (calls : List SetCall) (s : Attrs × List Phase) (sched : List Sched) : Attrs × List Phase :=
  sched.foldl (flightStep calls) s

/-- calls that each create the attribute `name` -/
def creates (name : String) (values : List (List UInt8)) : List SetCall := values.map fun v => ⟨name, v, true, false⟩

/-- every call's checks, then every call's write -/
def checksFirst (n : ℕ) : List Sched := (List.range n).map .check ++ (List.range n).map .write

/-- each call's checks and then its write, one call after another -/
def oneByOne (n : ℕ) : List Sched := (List.range n).flatMap fun i => [.check i, .write i]

section Flight

variable {attrs : Attrs} {name : String}

theorem flightRun_append (calls : List SetCall) (s : Attrs × List Phase) (a b : List Sched) :
    flightRun calls s (a ++ b) = flightRun calls (flightRun calls s a) b := List.foldl_append

theorem creates_getElem? {values : List (List UInt8)} {i : ℕ} (hi : i < values.length) :
    (creates name values)[i]? = some ⟨name, values[i], true, false⟩ := by
  simp [creates, hi]

/-- the phases of `k` calls at `x` and of the rest at `y`: call `k` is at `y` -/
theorem getElem?_replicate_append {α : Type} (x y : α) {k n : ℕ} (hk : k < n) :
    (List.replicate k x ++ List.replicate (n - k) y)[k]? = some y := by
  rw [List.getElem?_append_right (by simp), List.length_replicate, Nat.sub_self, List.getElem?_replicate]
  simp only [if_pos (show 0 < n - k by omega)]

/-- the phases of `k` calls at `x`, then others: a call below `k` is at `x` -/
theorem getElem?_replicate_append_left {α : Type} (x : α) (l : List α) {k i : ℕ} (hi : i < k) :
    (List.replicate k x ++ l)[i]? = some x := by
  rw [List.getElem?_append_left (by simpa using hi), List.getElem?_replicate, if_pos hi]

/-- moving call `k` from `y` to `x` -/
theorem set_replicate_append {α : Type} (x y : α) {k n : ℕ} (hk : k < n) :
    (List.replicate k x ++ List.replicate (n - k) y).set k x =
      List.replicate (k + 1) x ++ List.replicate (n - (k + 1)) y := by
  obtain ⟨m, hm⟩ : ∃ m, n - k = m + 1 := ⟨n - k - 1, by omega⟩
  rw [hm, List.set_append_right _ _ (by simp), List.length_replicate, Nat.sub_self, List.replicate_succ,
    List.set_cons_zero, List.replicate_succ', List.append_assoc, List.singleton_append,
    show n - (k + 1) = m by omega]

/-- the attribute after values written one after another: the last one, or what it was before -/
theorem foldl_striperSetxattr_self (attrs : Attrs) (vs : List (List UInt8)) :
    (vs.foldl (fun a v => striperSetxattr a name v) attrs) name = vs.getLast?.or (attrs name) := by
  induction vs generalizing attrs with
  | nil => rfl
  | cons v vs ih =>
    rw [List.foldl_cons, ih, List.getLast?_cons]
    simp only [striperSetxattr, Function.update_self]
    cases vs.getLast? <;> rfl

/-- a create call checked while the attribute is missing goes on to its write -/
theorem setxattrCheck_create_absent (habsent : attrs name = none) :
    CephHelper.setxattrCheck attrs name true false = none := by
  simp [CephHelper.setxattrCheck, striperGetxattr, habsent]

/-- a create call checked after a write answers `EEXIST` -/
theorem setxattrCheck_create_present (v : List UInt8) :
    CephHelper.setxattrCheck (striperSetxattr attrs name v) name true false = some EEXIST := by
  simp [CephHelper.setxattrCheck, striperGetxattr, striperSetxattr]

/-- the first `k` checks of calls creating a missing attribute all pass, and change nothing but the phases -/
theorem flightRun_checks {values : List (List UInt8)} (habsent : attrs name = none) {k : ℕ}
    (hk : k ≤ values.length) :
    flightRun (creates name values) (attrs, List.replicate values.length .pending) ((List.range k).map .check) =
      (attrs, List.replicate k .checked ++ List.replicate (values.length - k) .pending) := by
  -- induction on the checks run, each one on the next call
  induction k with
  | zero => simp [flightRun]
  | succ k ih =>
    have hlt : k < values.length := by omega
    rw [List.range_succ, List.map_append, flightRun_append, ih (by omega)]
    simp only [flightRun, List.map_cons, List.map_nil, List.foldl_cons, List.foldl_nil, flightStep,
      creates_getElem? hlt, getElem?_replicate_append _ _ hlt, setxattrCheck_create_absent habsent,
      set_replicate_append _ _ hlt]

/-- after all the checks, the first `k` writes: the values written one after another, those calls answered -/
theorem flightRun_writes (attrs : Attrs) (name : String) {values : List (List UInt8)} {k : ℕ} (hk : k ≤ values.length) :
    flightRun (creates name values) (attrs, List.replicate values.length .checked) ((List.range k).map .write) =
      ((values.take k).foldl (fun a v => striperSetxattr a name v) attrs,
        List.replicate k (.answered (.ok ())) ++ List.replicate (values.length - k) .checked) := by
  -- induction on the writes run, each one on the next call
  induction k with
  | zero => simp [flightRun]
  | succ k ih =>
    have hlt : k < values.length := by omega
    rw [List.range_succ, List.map_append, flightRun_append, ih (by omega), List.take_add_one,
      List.getElem?_eq_getElem hlt, Option.toList_some, List.foldl_append]
    simp only [flightRun, List.map_cons, List.map_nil, List.foldl_cons, List.foldl_nil, flightStep,
      creates_getElem? hlt, getElem?_replicate_append _ _ hlt, set_replicate_append _ _ hlt]

/-- one call after another: the first creates the attribute, every later one answers `EEXIST` -/
theorem flightRun_oneByOne (habsent : attrs name = none) (v : List UInt8) {rest : List (List UInt8)} {j : ℕ}
    (hj : j ≤ rest.length) :
    flightRun (creates name (v :: rest)) (attrs, List.replicate (rest.length + 1) .pending) (oneByOne (j + 1)) =
      (striperSetxattr attrs name v,
        .answered (.ok ()) :: (List.replicate j (.answered (.error EEXIST)) ++ List.replicate (rest.length - j) .pending)) := by
  -- induction on the calls after the first; each one's check sees the first call's write
  induction j with
  | zero =>
    simp [oneByOne, flightRun, flightStep, creates, setxattrCheck_create_absent habsent, List.replicate_succ]
  | succ j ih =>
    have hlt : j < rest.length := by omega
    have hcall : (creates name (v :: rest))[j + 1]? = some ⟨name, rest[j], true, false⟩ := by
      simp [creates, hlt]
    rw [oneByOne, List.range_succ, List.flatMap_append, ← oneByOne, flightRun_append, ih (by omega)]
    simp only [flightRun, List.flatMap_cons, List.flatMap_nil, List.append_nil, List.foldl_cons, List.foldl_nil,
      flightStep, hcall, List.getElem?_cons_succ, getElem?_replicate_append _ _ hlt,
      setxattrCheck_create_present, List.set_cons_succ, set_replicate_append _ _ hlt,
      getElem?_replicate_append_left _ _ (Nat.lt_succ_self j)]

/-- **Ceph's create is not exclusive.** `CephHelper::setxattr` with `create` checks that the attribute is missing in
one call to the striper and writes it in another. For every file on which an attribute is missing and every list of
calls creating it: when every call's check runs before every call's write, all the calls succeed and the attribute
ends with the last value written; run one after another, the first call succeeds and every later one answers
`EEXIST`. -/
theorem ceph_create_not_exclusive (attrs : Attrs) (name : String) (values : List (List UInt8))
    (habsent : attrs name = none) :
    (flightRun (creates name values) (attrs, List.replicate values.length .pending) (checksFirst values.length)).2 =
        List.replicate values.length (.answered (.ok ())) ∧
      (flightRun (creates name values) (attrs, List.replicate values.length .pending)
        (checksFirst values.length)).1 name = values.getLast? ∧
      ∀ v rest, values = v :: rest →
        (flightRun (creates name values) (attrs, List.replicate values.length .pending) (oneByOne values.length)).2 =
            .answered (.ok ()) :: List.replicate rest.length (.answered (.error EEXIST)) ∧
          (flightRun (creates name values) (attrs, List.replicate values.length .pending)
            (oneByOne values.length)).1 name = some v := by
  -- all the checks pass on the missing attribute, then every write goes through
  have hchecks := flightRun_checks habsent (le_refl values.length)
  rw [Nat.sub_self, List.replicate_zero, List.append_nil] at hchecks
  have hwrites := flightRun_writes attrs name (le_refl values.length)
  rw [Nat.sub_self, List.replicate_zero, List.append_nil, List.take_length] at hwrites
  have hrace : flightRun (creates name values) (attrs, List.replicate values.length .pending)
      (checksFirst values.length) =
        (values.foldl (fun a v => striperSetxattr a name v) attrs, List.replicate values.length (.answered (.ok ()))) := by
    rw [checksFirst, flightRun_append, hchecks, hwrites]
  refine ⟨by rw [hrace], ?_, ?_⟩
  · rw [hrace]
    exact (foldl_striperSetxattr_self attrs values).trans (by rw [habsent, Option.or_none])
  rintro v rest rfl
  have hserial := flightRun_oneByOne habsent v (le_refl rest.length)
  rw [Nat.sub_self, List.replicate_zero, List.append_nil] at hserial
  simp only [List.length_cons] at hserial ⊢
  rw [hserial]
  exact ⟨rfl, by simp [striperSetxattr]⟩

end Flight

theorem ceph_create_not_exclusive_two :
    (fun _ => none : Attrs) "user.a" = none ∧
      (flightRun (creates "user.a" [[1], [2]]) ((fun _ => none), List.replicate 2 .pending) (checksFirst 2)).2 =
        [.answered (.ok ()), .answered (.ok ())] := by
  have h := ceph_create_not_exclusive (fun _ => none) "user.a" [[1], [2]] rfl
  exact ⟨rfl, h.1⟩

end OneHelpers.Xattr
