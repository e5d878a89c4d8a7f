/-
The clproto handshake on the connections of a pool: `CLProtoHandshakeResponseHandler`
(`src/communication/codec/clprotoHandshakeResponseHandler.h`) in the pipeline of every connection, and the
`onHandshakeDone` callback that `Translator::setHandshake` (`src/communication/layers/translator.h`) gives all of
them, with the answer read by `HandshakeResponse` (`src/messages/handshakeResponse.cc`).

The handler's `m_promise` is a `folly::Promise<folly::Unit>`, whose `setValue` and `setException` throw
`PromiseAlreadySatisfied` on a promise that holds a result. `read` sets the value before it asks
`m_onHandshakeResponse` about the answer, so on an answer it rejects, the `setException` that follows throws: neither
`m_onHandshakeDone` nor the passing on of the answer is reached, and `done()` has already succeeded, so
`CLProtoClientBootstrap::connect` goes on with the connection. `Translator::setHandshake` hands every connection the
same callback, which fulfils the future it returns once, on the first call.

The answers are any messages, and `m_onHandshakeResponse` any function from a message to the value of the error code
it returns; a run is any interleaving of the connections' reads. What the pipeline does with the exception `read`
throws is outside the sources; in the model the connection reads on.

Results:
- `handshake_errors_unreported`: on every run, the future `Translator::setHandshake` returns never fails. It succeeds
  exactly when some connection's first answer is accepted, and otherwise stays pending; every connection that got an
  answer has its `done()` fulfilled with a value, and its `read` threw exactly when the answer was rejected.
-/
import Mathlib.Tactic
import OneHelpers.Communication.Codec

namespace OneHelpers.Communication

/-! ## `folly::Promise` -/

namespace Promise

/-- `isFulfilled` -/
def isFulfilled : Promise → Bool
  | .pending => false
  | _ => true

/-- `setValue`; `none` where it throws `PromiseAlreadySatisfied` -/
def setValue : Promise → Option Promise
  | .pending => some .value
  | _ => none

/-- `setException`; `none` where it throws `PromiseAlreadySatisfied` -/
def setException : Promise → Option Promise
  | .pending => some .exception
  | _ => none

end Promise

/-! ## The answer -/

/-- `clproto::HandshakeStatus`: the statuses `translateStatus` names, and any other -/
inductive HandshakeStatus
  | OK | MACAROON_NOT_FOUND | MACAROON_EXPIRED | INVALID_MACAROON | INVALID_METHOD | ROOT_RESOURCE_NOT_FOUND
  | INVALID_PROVIDER | BAD_SIGNATURE_FOR_MACAROON | FAILED_TO_DESCRYPT_CAVEAT | NO_DISCHARGE_MACAROON_FOR_CAVEAT
  | INCOMPATIBLE_VERSION
  /-- a status the `switch` of `translateStatus` has no case for -/
  | other (value : ℕ)
  deriving DecidableEq, Repr

/-- `errors::handshake::ErrorCode` -/
inductive ErrorCode
  | ok | macaroon_expired | macaroon_not_found | invalid_macaroon | invalid_method | root_resource_not_found
  | invalid_provider | bad_signature_for_macaroon | failed_to_decrypt_caveat | no_discharge_macaroon_for_caveat
  | incompatible_version | internal_server_error
  deriving DecidableEq, Repr

/-- the value of `makeErrorCode(e)`: the enumerator's place in the declaration -/
def ErrorCode.value : ErrorCode → ℕ
  | .ok => 0 | .macaroon_expired => 1 | .macaroon_not_found => 2 | .invalid_macaroon => 3 | .invalid_method => 4
  | .root_resource_not_found => 5 | .invalid_provider => 6 | .bad_signature_for_macaroon => 7
  | .failed_to_decrypt_caveat => 8 | .no_discharge_macaroon_for_caveat => 9 | .incompatible_version => 10
  | .internal_server_error => 11

namespace HandshakeResponse

/-- `HandshakeResponse::translateStatus` -/
def translateStatus : HandshakeStatus → ErrorCode
  | .OK => .ok
  | .MACAROON_NOT_FOUND => .macaroon_not_found
  | .MACAROON_EXPIRED => .macaroon_expired
  | .INVALID_MACAROON => .invalid_macaroon
  | .INVALID_METHOD => .invalid_method
  | .ROOT_RESOURCE_NOT_FOUND => .root_resource_not_found
  | .INVALID_PROVIDER => .invalid_provider
  | .BAD_SIGNATURE_FOR_MACAROON => .bad_signature_for_macaroon
  | .FAILED_TO_DESCRYPT_CAVEAT => .failed_to_decrypt_caveat
  | .NO_DISCHARGE_MACAROON_FOR_CAVEAT => .no_discharge_macaroon_for_caveat
  | .INCOMPATIBLE_VERSION => .incompatible_version
  | .other _ => .internal_server_error

/-- `isMacaroonError` of the response to `status` -/
def isMacaroonError (status : HandshakeStatus) : Bool :=
  translateStatus status != .ok && translateStatus status != .internal_server_error

/-- the value of `status()` of the response to `status` -/
def status (status : HandshakeStatus) : ℕ := (translateStatus status).value

theorem status_eq_zero_iff (s : HandshakeStatus) : status s = 0 ↔ s = .OK := by
  cases s <;> simp [status, translateStatus, ErrorCode.value]

end HandshakeResponse

/-! ## The handler and the callback -/

namespace Handshake

variable {Msg : Type}

/-- what one `read` of `CLProtoHandshakeResponseHandler` does: the handler's promise after it, the value given to
`m_onHandshakeDone`, the message passed on by `ctx->fireRead`, and whether it threw -/
structure ReadResult (Msg : Type) where
  promise : Promise
  done : Option ℕ
  passed : Option Msg
  threw : Bool

/-- `CLProtoHandshakeResponseHandler::read` of `message` by a handler whose promise is `promise`;
`onHandshakeResponse` gives the value of the error code `m_onHandshakeResponse` returns -/
def read (onHandshakeResponse : Msg → ℕ) (promise : Promise) (message : Msg) : ReadResult Msg :=
  if promise.isFulfilled then ⟨promise, none, some message, false⟩
  else
    match promise.setValue with
    | none => ⟨promise, none, none, true⟩
    | some promise =>
      let handshakeResponseError := onHandshakeResponse message
      if handshakeResponseError = 0 then ⟨promise, some 0, some message, false⟩
      else
        match promise.setException with
        | none => ⟨promise, none, none, true⟩
        | some promise => ⟨promise, some handshakeResponseError, some message, false⟩

/-- the `std::once_flag` and the promise of `Translator::setHandshake`, behind the future it returns -/
structure FirstHandshake where
  called : Bool
  promise : Promise
  deriving DecidableEq, Repr

/-- the `onHandshakeDone` callback of `Translator::setHandshake`: under `std::call_once`, an exception for an error
code and a value otherwise -/
def FirstHandshake.onHandshakeDone (t : FirstHandshake) (ec : ℕ) : FirstHandshake :=
  if t.called then t
  -- the once flag is unset only while the promise is pending (`Inv.first`), so neither call throws
  else ⟨true, ((if ec ≠ 0 then t.promise.setException else t.promise.setValue)).getD t.promise⟩

/-- the connections of a pool during their handshakes: the promise of each one's handler, the messages passed on to
`CLProtoMessageHandler` with their connection, the connections whose `read` threw, and the callback's state -/
structure Connections (Msg : Type) where
  promises : ℕ → Promise
  passed : List (ℕ × Msg)
  threw : List ℕ
  first : FirstHandshake

/-- the pool's new pipelines, before any answer -/
def init : Connections Msg := ⟨fun _ => .pending, [], [], ⟨false, .pending⟩⟩

/-- connection `e.1` reads the message `e.2` -/
def step (onHandshakeResponse : Msg → ℕ) (s : Connections Msg) (e : ℕ × Msg) : Connections Msg :=
  let r := read onHandshakeResponse (s.promises e.1) e.2
  { promises := Function.update s.promises e.1 r.promise
    passed := s.passed ++ (r.passed.map fun m => (e.1, m)).toList
    threw := if r.threw then s.threw ++ [e.1] else s.threw
    first := match r.done with
      | some ec => s.first.onHandshakeDone ec
      | none => s.first }

def run (onHandshakeResponse : Msg → ℕ) (s : Connections Msg) (evs : List (ℕ × Msg)) : Connections Msg :=
  evs.foldl (step onHandshakeResponse) s

/-- the first message connection `i` reads in `evs` -/
def firstAnswer (evs : List (ℕ × Msg)) (i : ℕ) : Option Msg := (evs.find? fun e => decide (e.1 = i)).map Prod.snd

/-! ## One read -/

variable (f : Msg → ℕ)

theorem read_pending_of_eq_zero {m : Msg} (h : f m = 0) : read f .pending m = ⟨.value, some 0, some m, false⟩ := by
  simp [read, Promise.isFulfilled, Promise.setValue, h]

/-- **An answer the handler rejects**: the promise already holds its value, so `setException` throws -/
theorem read_pending_of_ne_zero {m : Msg} (h : f m ≠ 0) : read f .pending m = ⟨.value, none, none, true⟩ := by
  simp [read, Promise.isFulfilled, Promise.setValue, Promise.setException, h]

theorem read_value (m : Msg) : read f .value m = ⟨.value, none, some m, false⟩ := by
  simp [read, Promise.isFulfilled]

theorem run_append (s : Connections Msg) (evs : List (ℕ × Msg)) (e : ℕ × Msg) :
    run f s (evs ++ [e]) = step f (run f s evs) e := by
  simp [run, List.foldl_append]

theorem firstAnswer_append (evs : List (ℕ × Msg)) (e : ℕ × Msg) (j : ℕ) :
    firstAnswer (evs ++ [e]) j = (firstAnswer evs j).or (if e.1 = j then some e.2 else none) := by
  unfold firstAnswer
  rw [List.find?_append]
  cases hfind : evs.find? (fun e => decide (e.1 = j)) with
  | some p => rfl
  | none =>
    by_cases hj : e.1 = j
    · simp [hj]
    · simp [hj]

theorem firstAnswer_append_of_some {evs : List (ℕ × Msg)} {i : ℕ} {m₀ : Msg} (hfirst : firstAnswer evs i = some m₀)
    (m : Msg) (j : ℕ) : firstAnswer (evs ++ [(i, m)]) j = firstAnswer evs j := by
  rw [firstAnswer_append]
  by_cases hij : i = j
  · subst hij
    rw [hfirst]
    rfl
  · simp [hij]

theorem firstAnswer_append_of_none {evs : List (ℕ × Msg)} {i : ℕ} (hfirst : firstAnswer evs i = none) (m : Msg)
    (j : ℕ) : firstAnswer (evs ++ [(i, m)]) j = if i = j then some m else firstAnswer evs j := by
  rw [firstAnswer_append]
  by_cases hij : i = j
  · subst hij
    simp [hfirst]
  · simp [hij]

/-! ## Runs -/

/-- what a run has done, in terms of the first answer of each connection -/
structure Inv (evs : List (ℕ × Msg)) (s : Connections Msg) : Prop where
  promise : ∀ i, s.promises i = if (firstAnswer evs i).isSome then .value else .pending
  threw : ∀ i, i ∈ s.threw ↔ ∃ m, firstAnswer evs i = some m ∧ f m ≠ 0
  called : s.first.called = true ↔ ∃ i m, firstAnswer evs i = some m ∧ f m = 0
  first : s.first.promise = if s.first.called then .value else .pending

theorem inv_init : Inv f [] (init : Connections Msg) where
  promise i := rfl
  threw i := by simp [init, firstAnswer]
  called := by simp [init, firstAnswer]
  first := rfl

theorem FirstHandshake.onHandshakeDone_zero {t : FirstHandshake}
    (ht : t.promise = if t.called then .value else .pending) :
    t.onHandshakeDone 0 = ⟨true, .value⟩ := by
  unfold FirstHandshake.onHandshakeDone
  cases hc : t.called
  · simp [hc] at ht
    simp [ht, Promise.setValue]
  · simp [hc] at ht
    cases t
    simp_all

variable {evs : List (ℕ × Msg)} {s : Connections Msg}

/-- a later message of a connection that has its answer passes through and changes nothing else -/
theorem Inv.step_of_answered (hinv : Inv f evs s) {i : ℕ} {m₀ : Msg} (hfirst : firstAnswer evs i = some m₀)
    (m : Msg) : Inv f (evs ++ [(i, m)]) (step f s (i, m)) := by
  have hpi : s.promises i = .value := by rw [hinv.promise i, hfirst]; rfl
  have hans := firstAnswer_append_of_some hfirst m
  simp only [Handshake.step, hpi, read_value]
  refine ⟨fun j => ?_, fun j => ?_, ?_, hinv.first⟩
  · dsimp only
    rw [hans j]
    by_cases hij : j = i
    · subst hij
      rw [Function.update_self, hfirst]
      rfl
    · rw [Function.update_of_ne hij, hinv.promise j]
  · simp only [Bool.false_eq_true, if_false, hans j]
    exact hinv.threw j
  · simp only [hans]
    exact hinv.called

/-- a connection's first answer fulfils its handler's promise, whatever the answer -/
theorem Inv.promise_of_first (hinv : Inv f evs s) {i : ℕ} (hfirst : firstAnswer evs i = none) (m : Msg) (j : ℕ) :
    Function.update s.promises i .value j =
      if (firstAnswer (evs ++ [(i, m)]) j).isSome then .value else .pending := by
  rw [firstAnswer_append_of_none hfirst m j]
  by_cases hij : j = i
  · subst hij
    simp
  · rw [Function.update_of_ne hij, hinv.promise j, if_neg (Ne.symm hij)]

/-- an accepted first answer reaches the callback, which fulfils its promise with a value -/
theorem Inv.step_of_accepted (hinv : Inv f evs s) {i : ℕ} (hfirst : firstAnswer evs i = none) {m : Msg}
    (hm : f m = 0) : Inv f (evs ++ [(i, m)]) (step f s (i, m)) := by
  have hpi : s.promises i = .pending := by rw [hinv.promise i, hfirst]; rfl
  have hans := firstAnswer_append_of_none hfirst m
  simp only [Handshake.step, hpi, read_pending_of_eq_zero f hm]
  refine ⟨hinv.promise_of_first f hfirst m, fun j => ?_, ?_, ?_⟩
  · simp only [Bool.false_eq_true, if_false, hans j]
    by_cases hij : i = j
    · subst hij
      simp [hm, hfirst, hinv.threw i]
    · simp [hij, hinv.threw j]
  · simp only [FirstHandshake.onHandshakeDone_zero hinv.first, true_iff]
    exact ⟨i, m, by simp [hans], hm⟩
  · simp [FirstHandshake.onHandshakeDone_zero hinv.first]

/-- a rejected first answer makes the handler's `read` throw, and the callback is not called -/
theorem Inv.step_of_rejected (hinv : Inv f evs s) {i : ℕ} (hfirst : firstAnswer evs i = none) {m : Msg}
    (hm : f m ≠ 0) : Inv f (evs ++ [(i, m)]) (step f s (i, m)) := by
  have hpi : s.promises i = .pending := by rw [hinv.promise i, hfirst]; rfl
  have hans := firstAnswer_append_of_none hfirst m
  simp only [Handshake.step, hpi, read_pending_of_ne_zero f hm]
  refine ⟨hinv.promise_of_first f hfirst m, fun j => ?_, ?_, hinv.first⟩
  · simp only [if_true, List.mem_append, List.mem_singleton, hans j]
    by_cases hij : i = j
    · subst hij
      simp [hm]
    · simp [hij, Ne.symm hij, hinv.threw j]
  · rw [hinv.called]
    constructor
    · rintro ⟨j, m', hj, hm'⟩
      refine ⟨j, m', ?_, hm'⟩
      rw [hans j]
      by_cases hij : i = j
      · subst hij
        rw [hfirst] at hj
        cases hj
      · simp [hij, hj]
    · rintro ⟨j, m', hj, hm'⟩
      rw [hans j] at hj
      by_cases hij : i = j
      · subst hij
        simp only [if_true, Option.some.injEq] at hj
        subst hj
        exact absurd hm' hm
      · simp only [hij, if_false] at hj
        exact ⟨j, m', hj, hm'⟩

/-- a read keeps the invariant: a connection's first answer fulfils its promise, and, when accepted, the callback's;
a later message only passes through -/
theorem Inv.step (hinv : Inv f evs s) (e : ℕ × Msg) : Inv f (evs ++ [e]) (step f s e) := by
  obtain ⟨i, m⟩ := e
  cases hfirst : firstAnswer evs i with
  | some m₀ => exact hinv.step_of_answered f hfirst m
  | none =>
    by_cases hm : f m = 0
    · exact hinv.step_of_accepted f hfirst hm
    · exact hinv.step_of_rejected f hfirst hm

theorem inv_run (evs : List (ℕ × Msg)) : Inv f evs (run f init evs) := by
  induction evs using List.reverseRecOn with
  | nil => exact inv_init f
  | append_singleton evs e ih =>
    rw [run_append]
    exact ih.step f e

/-- **Rejected handshakes are never reported.** On every run the future of `Translator::setHandshake` never fails:
it succeeds exactly when some connection's first answer is accepted, and stays pending otherwise. Every connection
that got an answer has its `done()` fulfilled with a value, and its `read` threw exactly when the answer was
rejected. -/
theorem handshake_errors_unreported (evs : List (ℕ × Msg)) :
    (run f init evs).first.promise ≠ .exception ∧
      ((run f init evs).first.promise = .value ↔ ∃ i m, firstAnswer evs i = some m ∧ f m = 0) ∧
      ∀ i m, firstAnswer evs i = some m →
        (run f init evs).promises i = .value ∧ (i ∈ (run f init evs).threw ↔ f m ≠ 0) := by
  have hinv := inv_run f evs
  refine ⟨?_, ?_, ?_⟩
  · rw [hinv.first]
    split <;> simp
  · rw [← hinv.called, hinv.first]
    split <;> simp_all
  · intro i m hm
    refine ⟨by rw [hinv.promise i, hm]; rfl, ?_⟩
    rw [hinv.threw i, hm]
    simp

end Handshake

end OneHelpers.Communication
