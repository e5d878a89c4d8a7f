/-
`messages::Status` (`src/messages/status.cc`): the outcome of an operation as the client and the provider exchange it.
On the wire it is a `clproto::Status::Code`, and in the client a `std::error_code`; `translation`, a `boost::bimap` of
the codes and `std::errc` values, takes one to the other. A received status gets the error code of its code's pair,
`protocol_error` for a code the map lacks, and a status the client sends gets the code `translation.right.find` finds
for its value, under an `assert` that there is one.

With the `errno` values of Linux, `std::errc::not_supported` and `std::errc::operation_not_supported` are both 95,
and `std::errc::resource_unavailable_try_again` and `std::errc::operation_would_block` both 11. The right view of the
map is a multiset, so it holds both pairs of each, and which of the two its `find` gives is left to the index:
`serializeAndDestroy` takes that `find` as a parameter, any `find` of the right view (`Bimap.IsRightFind`).

Results:
- `status_code_roundtrip`: whichever pair `find` gives, a received status is sent back with a code of the same
  error code, its own but for the codes of the two shared values; with the pair inserted first, exactly `eopnotsupp`
  is sent as `enotsup` and `eagain` as `ewouldblock`; a status that can be sent is received back as it was; the
  `assert` fails exactly for the values that are neither 0 nor a `std::errc` value; and a received status throws
  exactly when its code is not `ok`.
-/
import Mathlib.Tactic
import OneHelpers.Core.Bimap

namespace OneHelpers.Messages

/-! ## Codes, `std::errc` and the translation -/

/-- `one::clproto::Status::Code`, the codes `createTranslation` lists -/
inductive Code
  | ok | eafnosupport | eaddrinuse | eaddrnotavail | eisconn | e2big | edom | efault | ebadf | ebadmsg | epipe
  | econnaborted | ealready | econnrefused | econnreset | exdev | edestaddrreq | ebusy | enotempty | enoexec | eexist
  | efbig | enametoolong | enosys | ehostunreach | eidrm | eilseq | enotty | eintr | einval | espipe | eio | eisdir
  | emsgsize | enetdown | enetreset | enetunreach | enobufs | echild | enolink | enolck | enodata | enomsg
  | enoprotoopt | enospc | enosr | enxio | enodev | enoent | esrch | enotdir | enotsock | enostr | enotconn | enomem
  | enotsup | ecanceled | einprogress | eperm | eopnotsupp | ewouldblock | eownerdead | eacces | eproto
  | eprotonosupport | erofs | edeadlk | eagain | erange | enotrecoverable | etime | etxtbsy | etimedout | enfile
  | emfile | emlink | eloop | eoverflow | eprototype
  deriving DecidableEq, Repr

/-- `std::errc` -/
inductive Errc
  | address_family_not_supported | address_in_use | address_not_available | already_connected | argument_list_too_long
  | argument_out_of_domain | bad_address | bad_file_descriptor | bad_message | broken_pipe | connection_aborted
  | connection_already_in_progress | connection_refused | connection_reset | cross_device_link
  | destination_address_required | device_or_resource_busy | directory_not_empty | executable_format_error
  | file_exists | file_too_large | filename_too_long | function_not_supported | host_unreachable | identifier_removed
  | illegal_byte_sequence | inappropriate_io_control_operation | interrupted | invalid_argument | invalid_seek
  | io_error | is_a_directory | message_size | network_down | network_reset | network_unreachable | no_buffer_space
  | no_child_process | no_link | no_lock_available | no_message_available | no_message | no_protocol_option
  | no_space_on_device | no_stream_resources | no_such_device_or_address | no_such_device | no_such_file_or_directory
  | no_such_process | not_a_directory | not_a_socket | not_a_stream | not_connected | not_enough_memory
  | not_supported | operation_canceled | operation_in_progress | operation_not_permitted | operation_not_supported
  | operation_would_block | owner_dead | permission_denied | protocol_error | protocol_not_supported
  | read_only_file_system | resource_deadlock_would_occur | resource_unavailable_try_again | result_out_of_range
  | state_not_recoverable | stream_timeout | text_file_busy | timed_out | too_many_files_open_in_system
  | too_many_files_open | too_many_links | too_many_symbolic_link_levels | value_too_large | wrong_protocol_type
  deriving DecidableEq, Repr

/-- the value of each `std::errc` enumerator: its `errno` constant on Linux -/
def Errc.value : Errc → ℕ
  | .address_family_not_supported => 97
  | .address_in_use => 98
  | .address_not_available => 99
  | .already_connected => 106
  | .argument_list_too_long => 7
  | .argument_out_of_domain => 33
  | .bad_address => 14
  | .bad_file_descriptor => 9
  | .bad_message => 74
  | .broken_pipe => 32
  | .connection_aborted => 103
  | .connection_already_in_progress => 114
  | .connection_refused => 111
  | .connection_reset => 104
  | .cross_device_link => 18
  | .destination_address_required => 89
  | .device_or_resource_busy => 16
  | .directory_not_empty => 39
  | .executable_format_error => 8
  | .file_exists => 17
  | .file_too_large => 27
  | .filename_too_long => 36
  | .function_not_supported => 38
  | .host_unreachable => 113
  | .identifier_removed => 43
  | .illegal_byte_sequence => 84
  | .inappropriate_io_control_operation => 25
  | .interrupted => 4
  | .invalid_argument => 22
  | .invalid_seek => 29
  | .io_error => 5
  | .is_a_directory => 21
  | .message_size => 90
  | .network_down => 100
  | .network_reset => 102
  | .network_unreachable => 101
  | .no_buffer_space => 105
  | .no_child_process => 10
  | .no_link => 67
  | .no_lock_available => 37
  | .no_message_available => 61
  | .no_message => 42
  | .no_protocol_option => 92
  | .no_space_on_device => 28
  | .no_stream_resources => 63
  | .no_such_device_or_address => 6
  | .no_such_device => 19
  | .no_such_file_or_directory => 2
  | .no_such_process => 3
  | .not_a_directory => 20
  | .not_a_socket => 88
  | .not_a_stream => 60
  | .not_connected => 107
  | .not_enough_memory => 12
  | .not_supported => 95
  | .operation_canceled => 125
  | .operation_in_progress => 115
  | .operation_not_permitted => 1
  | .operation_not_supported => 95
  | .operation_would_block => 11
  | .owner_dead => 130
  | .permission_denied => 13
  | .protocol_error => 71
  | .protocol_not_supported => 93
  | .read_only_file_system => 30
  | .resource_deadlock_would_occur => 35
  | .resource_unavailable_try_again => 11
  | .result_out_of_range => 34
  | .state_not_recoverable => 131
  | .stream_timeout => 62
  | .text_file_busy => 26
  | .timed_out => 110
  | .too_many_files_open_in_system => 23
  | .too_many_files_open => 24
  | .too_many_links => 31
  | .too_many_symbolic_link_levels => 40
  | .value_too_large => 75
  | .wrong_protocol_type => 91

/-- the pairs of `createTranslation` after the first, `{Status_Code_ok, static_cast<std::errc>(0)}` -/
def errcPairs : List (Code × Errc) :=
  [(.eafnosupport, .address_family_not_supported), (.eaddrinuse, .address_in_use),
    (.eaddrnotavail, .address_not_available), (.eisconn, .already_connected), (.e2big, .argument_list_too_long),
    (.edom, .argument_out_of_domain), (.efault, .bad_address), (.ebadf, .bad_file_descriptor),
    (.ebadmsg, .bad_message), (.epipe, .broken_pipe), (.econnaborted, .connection_aborted),
    (.ealready, .connection_already_in_progress), (.econnrefused, .connection_refused),
    (.econnreset, .connection_reset), (.exdev, .cross_device_link), (.edestaddrreq, .destination_address_required),
    (.ebusy, .device_or_resource_busy), (.enotempty, .directory_not_empty), (.enoexec, .executable_format_error),
    (.eexist, .file_exists), (.efbig, .file_too_large), (.enametoolong, .filename_too_long),
    (.enosys, .function_not_supported), (.ehostunreach, .host_unreachable), (.eidrm, .identifier_removed),
    (.eilseq, .illegal_byte_sequence), (.enotty, .inappropriate_io_control_operation), (.eintr, .interrupted),
    (.einval, .invalid_argument), (.espipe, .invalid_seek), (.eio, .io_error), (.eisdir, .is_a_directory),
    (.emsgsize, .message_size), (.enetdown, .network_down), (.enetreset, .network_reset),
    (.enetunreach, .network_unreachable), (.enobufs, .no_buffer_space), (.echild, .no_child_process),
    (.enolink, .no_link), (.enolck, .no_lock_available), (.enodata, .no_message_available), (.enomsg, .no_message),
    (.enoprotoopt, .no_protocol_option), (.enospc, .no_space_on_device), (.enosr, .no_stream_resources),
    (.enxio, .no_such_device_or_address), (.enodev, .no_such_device), (.enoent, .no_such_file_or_directory),
    (.esrch, .no_such_process), (.enotdir, .not_a_directory), (.enotsock, .not_a_socket), (.enostr, .not_a_stream),
    (.enotconn, .not_connected), (.enomem, .not_enough_memory), (.enotsup, .not_supported),
    (.ecanceled, .operation_canceled), (.einprogress, .operation_in_progress), (.eperm, .operation_not_permitted),
    (.eopnotsupp, .operation_not_supported), (.ewouldblock, .operation_would_block), (.eownerdead, .owner_dead),
    (.eacces, .permission_denied), (.eproto, .protocol_error), (.eprotonosupport, .protocol_not_supported),
    (.erofs, .read_only_file_system), (.edeadlk, .resource_deadlock_would_occur),
    (.eagain, .resource_unavailable_try_again), (.erange, .result_out_of_range),
    (.enotrecoverable, .state_not_recoverable), (.etime, .stream_timeout), (.etxtbsy, .text_file_busy),
    (.etimedout, .timed_out), (.enfile, .too_many_files_open_in_system), (.emfile, .too_many_files_open),
    (.emlink, .too_many_links), (.eloop, .too_many_symbolic_link_levels), (.eoverflow, .value_too_large),
    (.eprototype, .wrong_protocol_type)]

/-- the pairs `createTranslation` lists -/
def translationPairs : List (Code × ℕ) := (.ok, 0) :: errcPairs.map fun p => (p.1, p.2.value)

/-- `translation`, the bimap built from the pairs -/
def translation : List (Code × ℕ) := Bimap.ofList translationPairs

/-! ## `messages::Status` -/

/-- a `messages::Status`: the value of its `std::error_code`, and its description -/
structure Status where
  code : ℕ
  description : Option String
  deriving DecidableEq, Repr

namespace Status

/-- `Status(clproto::Status &)`: the error code of the code's pair, `protocol_error` for a code the map lacks -/
def ofProto (code : Code) (description : Option String) : Status :=
  ⟨(Bimap.findLeft translation code).getD Errc.protocol_error.value, description⟩

/-- `throwOnError`: nothing on a zero error code, else the `std::system_error` thrown, with the description if there is
one -/
def throwOnError (s : Status) : Except (ℕ × Option String) Unit :=
  if s.code = 0 then .ok () else .error (s.code, s.description)

/-- `serializeAndDestroy`, `find` being `translation.right.find`: the code and description sent; `none` where the
`assert` that it finds the value fails -/
def serializeAndDestroy (find : ℕ → Option Code) (s : Status) : Option (Code × Option String) :=
  (find s.code).map fun code => (code, s.description)

end Status

/-! ## The translation -/

theorem nodup_translationPairs : (translationPairs.map Prod.fst).Nodup := by
  decide

theorem translation_eq : translation = translationPairs :=
  Bimap.ofList_of_nodup nodup_translationPairs

/-- every `std::errc` value has a pair -/
theorem mem_errcPairs (e : Errc) : e ∈ errcPairs.map Prod.snd := by
  cases e <;> decide

/-- no `std::errc` value is zero -/
theorem Errc.value_ne_zero (e : Errc) : e.value ≠ 0 := by
  cases e <;> decide

/-- the values of the pairs: 0 and the values of `std::errc` -/
theorem mem_translationPairs_snd {v : ℕ} : v ∈ translationPairs.map Prod.snd ↔ v = 0 ∨ ∃ e : Errc, e.value = v := by
  simp only [translationPairs, List.map_cons, List.map_map, List.mem_cons, List.mem_map, Function.comp_apply]
  apply or_congr Iff.rfl
  constructor
  · rintro ⟨p, -, rfl⟩
    exact ⟨p.2, rfl⟩
  · rintro ⟨e, rfl⟩
    obtain ⟨p, hp, rfl⟩ := List.mem_map.1 (mem_errcPairs e)
    exact ⟨p, hp, rfl⟩

/-- the code each code is sent back as by the first pair of its value -/
theorem findRight_findLeft (code : Code) :
    (Bimap.findLeft translation code).bind (Bimap.findRight translation) =
      some (if code = .eopnotsupp then .enotsup else if code = .eagain then .ewouldblock else code) := by
  rw [translation_eq]
  cases code <;> rfl

theorem exists_findLeft (code : Code) : ∃ v, Bimap.findLeft translation code = some v := by
  rw [translation_eq]
  cases code <;> exact ⟨_, rfl⟩

/-- only `ok` has the value 0 -/
theorem findLeft_eq_zero_iff {code : Code} {v : ℕ} (hv : Bimap.findLeft translation code = some v) :
    v = 0 ↔ code = .ok := by
  have hmem := Bimap.mem_of_findLeft hv
  rw [translation_eq, translationPairs, List.mem_cons, List.mem_map] at hmem
  constructor
  · rintro rfl
    rcases hmem with h | ⟨p, -, hp⟩
    · exact (Prod.mk.inj h).1
    · exact absurd (Prod.mk.inj hp).2 (Errc.value_ne_zero p.2)
  · rintro rfl
    have h0 : Bimap.findLeft translation .ok = some 0 := by
      rw [translation_eq]
      rfl
    rw [h0] at hv
    exact (Option.some_inj.1 hv).symm

/-- two codes share a value only when both are `enotsup` and `eopnotsupp`, or `eagain` and `ewouldblock` -/
theorem eq_of_findLeft_eq {code code' : Code} {v : ℕ} (hv : Bimap.findLeft translation code = some v)
    (hv' : Bimap.findLeft translation code' = some v) :
    code' = code ∨ v = Errc.not_supported.value ∨ v = Errc.operation_would_block.value := by
  have hvalues : ∀ p ∈ translationPairs, ∀ q ∈ translationPairs, p.2 = q.2 → q.1 = p.1 ∨ p.2 = 95 ∨ p.2 = 11 := by
    set_option maxRecDepth 20000 in decide
  rw [translation_eq] at hv hv'
  exact hvalues (code, v) (Bimap.mem_of_findLeft hv) (code', v) (Bimap.mem_of_findLeft hv') rfl

/-- the codes of the shared values -/
theorem mem_shared_values {p : Code × ℕ} (hp : p ∈ translationPairs) :
    (p.2 = Errc.not_supported.value → p.1 = .enotsup ∨ p.1 = .eopnotsupp) ∧
      (p.2 = Errc.operation_would_block.value → p.1 = .ewouldblock ∨ p.1 = .eagain) := by
  revert p
  decide

/-- two codes, each one of `a` and `b`, are equal or are `a` and `b` -/
theorem eq_or_pair_eq {a b c c' : Code} (hc : c = a ∨ c = b) (hc' : c' = a ∨ c' = b) :
    c' = c ∨ ({c, c'} : Finset Code) = {a, b} := by
  rcases hc with rfl | rfl <;> rcases hc' with rfl | rfl
  · exact .inl rfl
  · exact .inr rfl
  · exact .inr (Finset.pair_comm _ _)
  · exact .inl rfl

section Find

variable {find : ℕ → Option Code} (hfind : Bimap.IsRightFind translation find)
include hfind

/-- a received code is sent back as a code of its value: itself, or the other code of a shared value -/
theorem serializeAndDestroy_ofProto (code : Code) (description : Option String) :
    ∃ code', (Status.ofProto code description).serializeAndDestroy find = some (code', description) ∧
      Status.ofProto code' description = Status.ofProto code description ∧
      (code' = code ∨ ({code, code'} : Finset Code) = {.enotsup, .eopnotsupp} ∨
        ({code, code'} : Finset Code) = {.ewouldblock, .eagain}) := by
  obtain ⟨v, hv⟩ := exists_findLeft code
  obtain ⟨code', hfound, hmem⟩ := hfind.exists_of_mem (Bimap.mem_of_findLeft hv)
  have hv' : Bimap.findLeft translation code' = some v :=
    Bimap.findLeft_of_mem (translation_eq ▸ nodup_translationPairs) hmem
  refine ⟨code', by simp [Status.serializeAndDestroy, Status.ofProto, hv, hfound],
    by simp [Status.ofProto, hv, hv'], ?_⟩
  -- apart from the two shared values, a value has one code
  have hshared := mem_shared_values (translation_eq ▸ Bimap.mem_of_findLeft hv)
  have hshared' := mem_shared_values (translation_eq ▸ hmem)
  rcases eq_of_findLeft_eq hv hv' with h | h | h
  · exact .inl h
  · rcases eq_or_pair_eq (hshared.1 h) (hshared'.1 h) with h' | h'
    exacts [.inl h', .inr (.inl h')]
  · rcases eq_or_pair_eq (hshared.2 h) (hshared'.2 h) with h' | h'
    exacts [.inl h', .inr (.inr h')]

/-- a value sent is received back: `left.find` undoes `right.find` -/
theorem ofProto_of_serializeAndDestroy {s : Status} {code : Code} {description : Option String}
    (h : s.serializeAndDestroy find = some (code, description)) : Status.ofProto code description = s := by
  obtain ⟨code', hcode, hpair⟩ := Option.map_eq_some_iff.1 h
  obtain ⟨rfl, rfl⟩ := Prod.mk.inj hpair
  have hleft := hfind.findLeft (translation_eq ▸ nodup_translationPairs) hcode
  simp [Status.ofProto, hleft]

/-- the `assert` of `serializeAndDestroy` fails on the values no pair has -/
theorem serializeAndDestroy_eq_none_iff (s : Status) :
    s.serializeAndDestroy find = none ↔ s.code ≠ 0 ∧ ∀ e : Errc, e.value ≠ s.code := by
  rw [Status.serializeAndDestroy, Option.map_eq_none_iff, hfind.eq_none_iff, translation_eq]
  constructor
  · intro h
    refine ⟨fun h0 => h (.ok, 0) List.mem_cons_self h0.symm, fun e he => ?_⟩
    obtain ⟨p, hp, rfl⟩ := List.mem_map.1 (mem_errcPairs e)
    exact h (p.1, p.2.value) (List.mem_cons_of_mem _ (List.mem_map_of_mem hp)) he
  · rintro ⟨h0, he⟩ p hp hv
    have hmem : s.code ∈ translationPairs.map Prod.snd := hv ▸ List.mem_map_of_mem hp
    rcases mem_translationPairs_snd.1 hmem with h | ⟨e, he'⟩
    · exact h0 h
    · exact he e he'

end Find

/-- the first pair of a value, which the ordered index finds: a received code is sent back as itself, but
`eopnotsupp` as `enotsup` and `eagain` as `ewouldblock` -/
theorem serializeAndDestroy_ofProto_findRight (code : Code) (description : Option String) :
    (Status.ofProto code description).serializeAndDestroy (Bimap.findRight translation) =
      some (if code = .eopnotsupp then .enotsup else if code = .eagain then .ewouldblock else code, description) := by
  obtain ⟨v, hv⟩ := exists_findLeft code
  have hback := findRight_findLeft code
  rw [hv, Option.bind_some] at hback
  simp [Status.serializeAndDestroy, Status.ofProto, hv, hback]

theorem throwOnError_ofProto_eq_ok_iff (code : Code) (description : Option String) :
    (Status.ofProto code description).throwOnError = .ok () ↔ code = .ok := by
  obtain ⟨v, hv⟩ := exists_findLeft code
  simp [Status.throwOnError, Status.ofProto, hv, findLeft_eq_zero_iff hv]

/-- **Status codes there and back.** -/
theorem status_code_roundtrip :
    (∀ find, Bimap.IsRightFind translation find →
      (∀ code description, ∃ code', (Status.ofProto code description).serializeAndDestroy find = some (code', description) ∧
        Status.ofProto code' description = Status.ofProto code description ∧
        (code' = code ∨ ({code, code'} : Finset Code) = {.enotsup, .eopnotsupp} ∨
          ({code, code'} : Finset Code) = {.ewouldblock, .eagain})) ∧
      (∀ s : Status, ∀ code description, s.serializeAndDestroy find = some (code, description) →
        Status.ofProto code description = s) ∧
      ∀ s : Status, s.serializeAndDestroy find = none ↔ s.code ≠ 0 ∧ ∀ e : Errc, e.value ≠ s.code) ∧
    (∀ code description, (Status.ofProto code description).serializeAndDestroy (Bimap.findRight translation) =
        some (if code = .eopnotsupp then .enotsup else if code = .eagain then .ewouldblock else code, description)) ∧
    ∀ code description, (Status.ofProto code description).throwOnError = .ok () ↔ code = .ok :=
  ⟨fun _ hfind => ⟨serializeAndDestroy_ofProto hfind, fun _ _ _ h => ofProto_of_serializeAndDestroy hfind h,
      serializeAndDestroy_eq_none_iff hfind⟩,
    serializeAndDestroy_ofProto_findRight, throwOnError_ofProto_eq_ok_iff⟩

example : (Status.ofProto .eagain none).serializeAndDestroy (Bimap.findRight translation) = some (.ewouldblock, none) := by
  rw [Status.serializeAndDestroy, Status.ofProto, translation_eq]
  rfl

end OneHelpers.Messages
