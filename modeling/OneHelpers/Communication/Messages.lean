/-
The `clproto` messages as the communication layers read them. A message is its stream header (`message_stream`:
stream id and sequence number, absent on messages that belong to no stream) and its body, of which the layers tell
apart only the stream-control bodies; any other body is `other`, carrying an opaque payload. Server messages also
carry the `message_id` that the inbox matches responses by.

Protobuf reads an absent submessage as its default, so the sequence number of a message without a stream header is
`0` (`ServerMessage.sequenceNumber`).
-/
import Mathlib.Tactic

namespace OneHelpers.Communication

/-- `clproto::MessageStream` -/
structure MessageStream where
  streamId : ℕ
  sequenceNumber : ℕ
  deriving DecidableEq, Repr

/-- the body of a `clproto::ServerMessage` -/
inductive ServerBody where
  | endOfStream
  | messageRequest (streamId lowerSequenceNumber upperSequenceNumber : ℕ)
  | messageAcknowledgement (streamId sequenceNumber : ℕ)
  /-- `MessageStreamReset`, for one stream or, without a stream id, for all of them -/
  | messageStreamReset (streamId : Option ℕ)
  | other (payload : ℕ)
  deriving DecidableEq, Repr

/-- `clproto::ServerMessage` -/
structure ServerMessage where
  messageId : String
  messageStream : Option MessageStream
  body : ServerBody
  deriving DecidableEq, Repr

/-- the body of a `clproto::ClientMessage` -/
inductive ClientBody where
  | endOfStream
  | messageRequest (streamId lowerSequenceNumber upperSequenceNumber : ℕ)
  | messageAcknowledgement (streamId sequenceNumber : ℕ)
  | messageStreamReset
  | other (payload : ℕ)
  deriving DecidableEq, Repr

/-- `clproto::ClientMessage` -/
structure ClientMessage where
  messageStream : Option MessageStream
  body : ClientBody
  deriving DecidableEq, Repr

namespace ServerMessage

/-- `message_stream().sequence_number()` -/
def sequenceNumber (m : ServerMessage) : ℕ := (m.messageStream.map MessageStream.sequenceNumber).getD 0

/-- the message belongs to stream `streamId` -/
def OfStream (streamId : ℕ) (m : ServerMessage) : Prop := m.messageStream.map MessageStream.streamId = some streamId

instance (streamId : ℕ) : DecidablePred (OfStream streamId) := fun _ => inferInstanceAs (Decidable (_ = _))

theorem sequenceNumber_of_messageStream {m : ServerMessage} {ms : MessageStream} (h : m.messageStream = some ms) :
    m.sequenceNumber = ms.sequenceNumber := by
  simp [sequenceNumber, h]

theorem ofStream_iff {m : ServerMessage} {ms : MessageStream} (h : m.messageStream = some ms) (streamId : ℕ) :
    m.OfStream streamId ↔ ms.streamId = streamId := by
  simp [OfStream, h]

/-- a message belongs to one stream only -/
theorem OfStream.eq {m : ServerMessage} {a b : ℕ} (ha : m.OfStream a) (hb : m.OfStream b) : a = b := by
  unfold OfStream at ha hb
  rw [ha] at hb
  exact Option.some.inj hb

theorem not_ofStream_of_messageStream_eq_none {m : ServerMessage} (h : m.messageStream = none) (streamId : ℕ) :
    ¬ m.OfStream streamId := by
  simp [OfStream, h]

end ServerMessage

namespace ClientMessage

/-- `message_stream().sequence_number()` -/
def sequenceNumber (m : ClientMessage) : ℕ := (m.messageStream.map MessageStream.sequenceNumber).getD 0

end ClientMessage

end OneHelpers.Communication
