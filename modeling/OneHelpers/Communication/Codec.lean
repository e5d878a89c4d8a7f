/-
The inbound side of the clproto pipeline (`CLProtoPipelineFactory::newPipeline`): the bytes read from the socket
pass the upgrade response handler (when the clproto upgrade is on), then `PacketDecoder`, which cuts the byte stream
into frames, each a 4-byte big-endian length followed by that many bytes, as `PacketEncoder` writes them. Each
frame's bytes then reach `CLProtoMessageHandler::onMessage` (through `StringCodec`, which changes nothing of them,
and without a handshake handler).

The socket handler keeps the bytes read in one queue and hands it to the pipeline after every read; the model is
that queue, the state of the upgrade handler's promise, and the messages passed on.

Results:
- `decode_write`, `decode_of_prefix`: the decoder takes a whole frame off the front of the queue, and waits while
  the queue holds only part of one.
- `decode_spec`, `decode_wraps_length`: on any queue, one call takes a frame exactly when the announced bytes are
  there; an announced length of `2^32 - 4` or more wraps the 32-bit sum of the check, which then passes on a short
  queue, and `split` throws after `trimStart` has already dropped the length field.
- `decodeLoop_frames`: on a queue that is a prefix of a sequence of frames, the decoder loop passes on the messages of
  the whole frames and keeps the rest.
- `run_decoding`: however the frames are cut into reads, the decoder passes on the messages of the frames completed
  so far.
- `pipeline_delivers_frames`: without the upgrade, the pipeline passes on exactly the framed messages.
- `upgrade_pipeline_delivers_frames`: with the upgrade, the same holds when the response header ends at the end of a
  read.
- `upgrade_drops_first_frame`: when the first frame comes in the same read as the end of the response header, the
  upgrade handler clears it with the header.
-/
import Mathlib.Tactic

namespace OneHelpers.Communication

/-! ## Frames -/

namespace PacketEncoder

/-- `htonl(length)` copied as the four bytes of the length field: the length modulo `2 ^ 32`, most significant
byte first -/
def encodeLength (n : ℕ) : List UInt8 :=
  [n / 2 ^ 24 % 256, n / 2 ^ 16 % 256, n / 2 ^ 8 % 256, n % 256].map UInt8.ofNat

/-- `PacketEncoder::write` of a single buffer -/
def write (buf : List UInt8) : List UInt8 := encodeLength buf.length ++ buf

end PacketEncoder

namespace PacketDecoder

/-- `m_lengthFieldLength` -/
def lengthFieldLength : ℕ := 4

/-- `cursor.readBE<uint32_t>()`: the first four bytes of the queue, most significant first -/
def readBE (buf : List UInt8) : ℕ := (buf.take 4).foldl (fun acc b => acc * 256 + b.toNat) 0

/-- what one call of `PacketDecoder::decode` does -/
inductive Decoded where
  /-- `false`: the queue is left as it is until more bytes come -/
  | needMore
  /-- `true`: a frame is taken off the front of the queue -/
  | message (msg rest : List UInt8)
  /-- `buf.split` throws: the length check passed by wrapping around while fewer bytes than announced are queued -/
  | underflow
  deriving DecidableEq, Repr

/-- `PacketDecoder::decode`; the sum `messageLength + m_lengthFieldLength` is computed in `uint32_t` -/
def decode (buf : List UInt8) : Decoded :=
  if buf.length < lengthFieldLength then .needMore
  else
    let messageLength := readBE buf
    if buf.length ≥ (messageLength + lengthFieldLength) % 2 ^ 32 then
      if messageLength ≤ buf.length - lengthFieldLength then
        .message ((buf.drop lengthFieldLength).take messageLength) ((buf.drop lengthFieldLength).drop messageLength)
      else .underflow
    else .needMore

/-- `ByteToByteDecoder::read`: `decode` is called again as long as it takes a frame, one call per unit of fuel; the
messages passed on, the queue left, and whether a call threw -/
def decodeLoop : ℕ → List UInt8 → List (List UInt8) × List UInt8 × Bool
  | 0, buf => ([], buf, false)
  | fuel + 1, buf =>
    match decode buf with
    | .needMore => ([], buf, false)
    | .underflow => ([], buf, true)
    | .message msg rest =>
      let r := decodeLoop fuel rest
      (msg :: r.1, r.2.1, r.2.2)


open PacketEncoder

@[simp] theorem length_encodeLength (n : ℕ) : (encodeLength n).length = 4 := rfl

@[simp] theorem length_write (m : List UInt8) : (write m).length = m.length + 4 := by
  simp [write, Nat.add_comm]

theorem readBE_encodeLength (n : ℕ) (rest : List UInt8) : readBE (encodeLength n ++ rest) = n % 2 ^ 32 := by
  simp only [readBE, encodeLength, List.map_cons, List.map_nil, List.cons_append, List.nil_append,
    List.take_succ_cons, List.take_zero, List.foldl_cons, List.foldl_nil, UInt8.toNat_ofNat', Nat.reducePow]
  omega

/-- the length field is read from the first four bytes only -/
theorem readBE_of_take {q q' : List UInt8} (h : q.take 4 = q'.take 4) : readBE q = readBE q' := by
  unfold readBE
  rw [h]

/-- **A whole frame at the front of the queue is taken off.** -/
theorem decode_write {m : List UInt8} (hm : m.length < 2 ^ 32 - 4) (rest : List UInt8) :
    decode (write m ++ rest) = .message m rest := by
  have hread : readBE (write m ++ rest) = m.length := by
    rw [write, List.append_assoc, readBE_encodeLength, Nat.mod_eq_of_lt (by omega)]
  unfold decode
  simp only [hread, List.length_append, length_write, lengthFieldLength]
  rw [if_neg (by omega), if_pos (by omega), if_pos (by omega)]
  simp only [write, List.append_assoc, Decoded.message.injEq]
  refine ⟨?_, ?_⟩
  · rw [List.drop_left' (length_encodeLength _), List.take_left' rfl]
  · rw [List.drop_left' (length_encodeLength _), List.drop_left' rfl]

/-- **Part of a frame is left for more bytes.** -/
theorem decode_of_prefix {m q : List UInt8} (hm : m.length < 2 ^ 32 - 4) (hq : q <+: write m)
    (hlen : q.length < (write m).length) : decode q = .needMore := by
  unfold decode
  by_cases h4 : q.length < lengthFieldLength
  · rw [if_pos h4]
  · rw [if_neg h4]
    simp only [lengthFieldLength, not_lt] at h4
    -- the first four bytes are the frame's length field
    have htake : q.take 4 = (write m).take 4 := by
      rw [List.prefix_iff_eq_take.1 hq, List.take_take, Nat.min_eq_left h4]
    have hread : readBE q = m.length := by
      rw [readBE_of_take htake, write, readBE_encodeLength, Nat.mod_eq_of_lt (by omega)]
    rw [length_write] at hlen
    have hwrap : (m.length + lengthFieldLength) % 2 ^ 32 = m.length + 4 := Nat.mod_eq_of_lt (by
      simp only [lengthFieldLength]; omega)
    simp only [hread, hwrap]
    rw [if_neg (by omega)]

/-! ## The length check on any queue -/

theorem foldl_readBE_lt (l : List UInt8) (a : ℕ) :
    l.foldl (fun acc b => acc * 256 + b.toNat) a < (a + 1) * 256 ^ l.length := by
  induction l generalizing a with
  | nil => simp
  | cons b l ih =>
    -- one more byte multiplies the bound by 256
    have hb : b.toNat < 256 := b.toNat_lt
    calc (b :: l).foldl (fun acc b => acc * 256 + b.toNat) a
        = l.foldl (fun acc b => acc * 256 + b.toNat) (a * 256 + b.toNat) := rfl
      _ < (a * 256 + b.toNat + 1) * 256 ^ l.length := ih _
      _ ≤ (a + 1) * 256 * 256 ^ l.length := Nat.mul_le_mul_right _ (by omega)
      _ = (a + 1) * 256 ^ (b :: l).length := by rw [List.length_cons, pow_succ']; ring

/-- the length field is a `uint32_t` -/
theorem readBE_lt (buf : List UInt8) : readBE buf < 2 ^ 32 := by
  calc readBE buf < (0 + 1) * 256 ^ (buf.take 4).length := foldl_readBE_lt _ 0
    _ ≤ 1 * 256 ^ 4 := by
      rw [Nat.zero_add]
      exact Nat.mul_le_mul_left _ (Nat.pow_le_pow_right (by norm_num) (List.length_take_le _ _))
    _ = 2 ^ 32 := by norm_num

/-- **What one call does, on any queue**: it takes a frame when the queue holds the length field and the
announced bytes, throws when the announced length is within 4 of `2^32` and the bytes are missing (the sum wraps
and passes the check), and waits otherwise -/
theorem decode_spec (buf : List UInt8) :
    decode buf =
      if buf.length < lengthFieldLength then .needMore
      else if readBE buf + lengthFieldLength ≤ buf.length then
        .message ((buf.drop lengthFieldLength).take (readBE buf)) ((buf.drop lengthFieldLength).drop (readBE buf))
      else if 2 ^ 32 - lengthFieldLength ≤ readBE buf then .underflow
      else .needMore := by
  have hlt := readBE_lt buf
  unfold decode
  by_cases h4 : buf.length < lengthFieldLength
  · rw [if_pos h4, if_pos h4]
  · rw [if_neg h4, if_neg h4]
    unfold lengthFieldLength at h4 ⊢
    dsimp only
    by_cases hfits : readBE buf + 4 ≤ buf.length
    · -- no wrap: the sum is below `2^32`, or the queue is longer than any wrapped sum
      rw [if_pos hfits, if_pos (by omega), if_pos (by omega)]
    · rw [if_neg hfits]
      by_cases hbig : 2 ^ 32 - 4 ≤ readBE buf
      · -- the sum wraps to at most 3, below the queue's length
        have hwrap : (readBE buf + 4) % 2 ^ 32 = readBE buf + 4 - 2 ^ 32 := by omega
        rw [if_pos hbig, hwrap, if_pos (by omega), if_neg (by omega)]
      · rw [if_neg hbig, Nat.mod_eq_of_lt (by omega), if_neg (by omega)]

/-- **A length field near `2^32` passes the check.** On every queue that holds the length field but fewer bytes
than it announces, with an announced length of `2^32 - 4` or more, the 32-bit sum wraps, the check passes, and
`split` is called on a queue too short for it: the call neither returns `true` with a frame nor `false` with the
queue kept. -/
theorem decode_wraps_length (buf : List UInt8) (h4 : lengthFieldLength ≤ buf.length)
    (hbig : 2 ^ 32 - lengthFieldLength ≤ readBE buf) (hshort : buf.length < readBE buf + lengthFieldLength) :
    decode buf = .underflow := by
  rw [decode_spec, if_neg (Nat.not_lt.mpr h4), if_neg (Nat.not_le.mpr hshort), if_pos hbig]

/-- four bytes `ff`: the length `2^32 - 1` wraps the check to `3` -/
theorem decode_wraps_length_ff :
    (lengthFieldLength ≤ [255, 255, 255, 255].length ∧
        2 ^ 32 - lengthFieldLength ≤ readBE [255, 255, 255, 255] ∧
        [255, 255, 255, 255].length < readBE [255, 255, 255, 255] + lengthFieldLength) ∧
      decode [255, 255, 255, 255] = .underflow :=
  ⟨⟨by decide, by decide, by decide⟩, decode_wraps_length _ (by decide) (by decide) (by decide)⟩

/-- **The decoder loop on frames.** On a queue that is a prefix of the frames of `ms`, the loop passes on the
messages of the whole frames in it, in order, and keeps the rest, which is shorter than the next frame. -/
theorem decodeLoop_frames :
    ∀ (ms : List (List UInt8)), (∀ m ∈ ms, m.length < 2 ^ 32 - 4) →
      ∀ (fuel : ℕ) (q : List UInt8), q <+: (ms.map write).flatten → q.length < fuel →
        ∃ i r, decodeLoop fuel q = (ms.take i, r, false) ∧ q = ((ms.take i).map write).flatten ++ r ∧
          ∀ m ∈ (ms.drop i).head?, r.length < (write m).length
  | [], _, fuel, q, hq, hfuel => by
    have hq0 : q = [] := List.prefix_nil.1 hq
    subst hq0
    obtain ⟨f, rfl⟩ : ∃ f, fuel = f + 1 := Nat.exists_eq_succ_of_ne_zero (by simp at hfuel; omega)
    exact ⟨0, [], by simp [decodeLoop, decode, lengthFieldLength], rfl, by simp⟩
  | m :: ms, hms, fuel, q, hq, hfuel => by
    obtain ⟨f, rfl⟩ : ∃ f, fuel = f + 1 := Nat.exists_eq_succ_of_ne_zero (by omega)
    have hm := hms m List.mem_cons_self
    rw [List.map_cons, List.flatten_cons] at hq
    by_cases hshort : q.length < (write m).length
    · -- part of the first frame: the decoder waits
      have hpre : q <+: write m := List.prefix_of_prefix_length_le hq (List.prefix_append _ _) hshort.le
      refine ⟨0, q, ?_, by simp, by simpa using hshort⟩
      simp [decodeLoop, decode_of_prefix hm hpre hshort]
    · -- the first frame is whole: it is passed on, and the loop goes on with the rest
      obtain ⟨q', rfl⟩ := List.prefix_of_prefix_length_le (List.prefix_append _ _) hq (by omega)
      have hq' : q' <+: (ms.map write).flatten := (List.prefix_append_right_inj _).1 hq
      have hlen : q'.length < f := by simp only [List.length_append, length_write] at hfuel; omega
      obtain ⟨i, r, hloop, hq'eq, hnext⟩ :=
        decodeLoop_frames ms (fun x hx => hms x (List.mem_cons_of_mem _ hx)) f q' hq' hlen
      refine ⟨i + 1, r, ?_, ?_, by simpa using hnext⟩
      · simp [decodeLoop, decode_write hm, hloop]
      · simp [hq'eq]

end PacketDecoder

/-! ## The pipeline -/

/-- `CLPROTO_UPGRADE_RESPONSE_STATUS`, the bytes of "HTTP/1.1 101 Switching Protocols" -/
def clprotoUpgradeResponseStatus : List UInt8 :=
  [72, 84, 84, 80, 47, 49, 46, 49, 32, 49, 48, 49, 32, 83, 119, 105, 116, 99, 104, 105, 110, 103, 32, 80, 114,
    111, 116, 111, 99, 111, 108, 115]

/-- the end of an HTTP header, "\r\n\r\n" -/
def headerEnd : List UInt8 := [13, 10, 13, 10]

/-- the upgrade handler's `m_promise`: not fulfilled yet, fulfilled, or failed -/
inductive Promise where
  | pending
  | value
  | exception
  deriving DecidableEq, Repr

/-- the inbound state of a clproto pipeline: whether it has the upgrade handler, its promise, the socket handler's
read queue, the messages passed to `onMessage`, and whether the decoder threw -/
structure CLProtoPipeline where
  clprotoUpgrade : Bool
  promise : Promise
  queue : List UInt8
  delivered : List (List UInt8)
  failed : Bool
  deriving DecidableEq, Repr

namespace CLProtoPipeline

open PacketEncoder PacketDecoder

/-- a new pipeline -/
def init (clprotoUpgrade : Bool) : CLProtoPipeline := ⟨clprotoUpgrade, .pending, [], [], false⟩

/-- the queue reaches the decoder: every frame it holds is passed on; once a decode has thrown nothing more is -/
def decoderRead (p : CLProtoPipeline) : CLProtoPipeline :=
  if p.failed then p
  else
    let r := decodeLoop (p.queue.length + 1) p.queue
    { p with queue := r.2.1, delivered := p.delivered ++ r.1, failed := r.2.2 }

/-- the bytes of one read are appended to the queue, which goes through the pipeline: the upgrade handler, while its
promise is pending, keeps it until it holds the end of the response header, then fails on a wrong status or clears
it and switches to clproto (`CLProtoUpgradeResponseHandler::read`); otherwise it reaches the decoder -/
def read (p : CLProtoPipeline) (chunk : List UInt8) : CLProtoPipeline :=
  let p := { p with queue := p.queue ++ chunk }
  if p.clprotoUpgrade = true ∧ p.promise = .pending then
    if ¬ headerEnd <:+: p.queue then p
    else if ¬ clprotoUpgradeResponseStatus <+: p.queue then { p with promise := .exception }
    else decoderRead { p with queue := [], promise := .value }
  else decoderRead p

def run (p : CLProtoPipeline) (chunks : List (List UInt8)) : CLProtoPipeline := chunks.foldl read p

theorem run_cons (p : CLProtoPipeline) (c : List UInt8) (cs : List (List UInt8)) :
    p.run (c :: cs) = (p.read c).run cs := rfl

theorem run_append (p : CLProtoPipeline) (cs cs' : List (List UInt8)) : p.run (cs ++ cs') = (p.run cs).run cs' := by
  simp [run]

/-! ## Decoding -/

/-- the pipeline hands its queue to the decoder, which has not thrown -/
def Decoding (p : CLProtoPipeline) : Prop := (p.clprotoUpgrade = false ∨ p.promise = .value) ∧ p.failed = false

theorem read_of_decoding {p : CLProtoPipeline} (h : Decoding p) (c : List UInt8) :
    p.read c = decoderRead { p with queue := p.queue ++ c } := by
  unfold read
  rw [if_neg]
  rintro ⟨h1, h2⟩
  rcases h.1 with h' | h'
  · simp_all
  · simp_all

/-- **One read in the decoder.** When the queue and the bytes read are a prefix of the frames of `ms`, the messages
of the frames now whole are passed on, and the rest is kept. -/
theorem read_frames {ms : List (List UInt8)} (hms : ∀ m ∈ ms, m.length < 2 ^ 32 - 4) {p : CLProtoPipeline}
    (h : Decoding p) (c : List UInt8) (hq : p.queue ++ c <+: (ms.map write).flatten) :
    ∃ i, (p.read c).delivered = p.delivered ++ ms.take i ∧
      p.queue ++ c = ((ms.take i).map write).flatten ++ (p.read c).queue ∧
      (∀ m ∈ (ms.drop i).head?, (p.read c).queue.length < (write m).length) ∧ Decoding (p.read c) := by
  obtain ⟨i, r, hloop, heq, hnext⟩ := decodeLoop_frames ms hms _ _ hq (Nat.lt_succ_self _)
  have hread : p.read c = { p with queue := r, delivered := p.delivered ++ ms.take i, failed := false } := by
    rw [read_of_decoding h]
    unfold decoderRead
    rw [if_neg (by simp [h.2])]
    simp only [hloop]
  rw [hread]
  exact ⟨i, rfl, heq, hnext, h.1, rfl⟩

/-- **However the frames are cut into reads**, the decoder passes on the messages of the frames completed so far, in
order, and keeps the part of the next one. -/
theorem run_decoding :
    ∀ (cs ms : List (List UInt8)) (p : CLProtoPipeline), (∀ m ∈ ms, m.length < 2 ^ 32 - 4) → Decoding p →
      (∀ m ∈ ms.head?, p.queue.length < (write m).length) → p.queue ++ cs.flatten <+: (ms.map write).flatten →
      ∃ i, (p.run cs).delivered = p.delivered ++ ms.take i ∧
        p.queue ++ cs.flatten = ((ms.take i).map write).flatten ++ (p.run cs).queue ∧
        (∀ m ∈ (ms.drop i).head?, (p.run cs).queue.length < (write m).length) ∧ Decoding (p.run cs)
  | [], _, p, _, h, hshort, _ => ⟨0, by simp [run], by simp [run], by simpa [run] using hshort, h⟩
  | c :: cs, ms, p, hms, h, _, hq => by
    rw [List.flatten_cons, ← List.append_assoc] at hq
    obtain ⟨i, hdel, heq, hnext, hdec⟩ := read_frames hms h c ((List.prefix_append _ _).trans hq)
    -- what is left of the frames after this read
    have hsplit : (ms.map write).flatten = ((ms.take i).map write).flatten ++ ((ms.drop i).map write).flatten := by
      rw [← List.flatten_append, ← List.map_append, List.take_append_drop]
    have hq' : (p.read c).queue ++ cs.flatten <+: ((ms.drop i).map write).flatten := by
      rw [heq, List.append_assoc, hsplit] at hq
      exact (List.prefix_append_right_inj _).1 hq
    obtain ⟨j, hdel', heq', hnext', hdec'⟩ :=
      run_decoding cs (ms.drop i) (p.read c) (fun m hm => hms m (List.mem_of_mem_drop hm)) hdec hnext hq'
    refine ⟨i + j, ?_, ?_, ?_, hdec'⟩
    · rw [run_cons, hdel', hdel, List.take_add, List.append_assoc]
    · rw [run_cons, List.flatten_cons, ← List.append_assoc, heq, List.append_assoc, heq', List.take_add,
        List.map_append, List.flatten_append, List.append_assoc]
    · rw [run_cons, ← List.drop_drop]
      exact hnext'

/-- from a decoding pipeline with an empty queue, reads that together are the frames of `ms` pass on exactly `ms` -/
theorem run_decoding_delivers {p : CLProtoPipeline} (h : Decoding p) (hq : p.queue = [])
    {ms : List (List UInt8)} (hms : ∀ m ∈ ms, m.length < 2 ^ 32 - 4) {cs : List (List UInt8)}
    (hcs : cs.flatten = (ms.map write).flatten) :
    (p.run cs).delivered = p.delivered ++ ms ∧ (p.run cs).queue = [] ∧ Decoding (p.run cs) := by
  obtain ⟨i, hdel, heq, hnext, hdec⟩ := run_decoding cs ms p hms h (by simp [hq]) (by simp [hq, hcs])
  rw [hq, List.nil_append, hcs, ← List.take_append_drop i ms, List.map_append, List.flatten_append,
    List.take_append_drop] at heq
  -- the queue left is all the frames not passed on, which is shorter than the next of them: there is none
  have hleft : (p.run cs).queue = ((ms.drop i).map write).flatten := (List.append_cancel_left heq).symm
  have hdrop : ms.drop i = [] := by
    cases hd : ms.drop i with
    | nil => rfl
    | cons m rest =>
      have := hnext m (by simp [hd])
      rw [hleft, hd] at this
      simp at this
  refine ⟨?_, by rw [hleft, hdrop]; rfl, hdec⟩
  rw [hdel, ← List.take_append_drop i ms, hdrop, List.append_nil, List.take_take, Nat.min_self]

/-- **Without the upgrade the pipeline passes on exactly the framed messages**, however they are cut into reads. -/
theorem pipeline_delivers_frames (ms : List (List UInt8)) (hms : ∀ m ∈ ms, m.length < 2 ^ 32 - 4)
    (cs : List (List UInt8)) (hcs : cs.flatten = (ms.map write).flatten) :
    ((init false).run cs).delivered = ms := by
  rw [(run_decoding_delivers ⟨Or.inl rfl, rfl⟩ rfl hms hcs).1]
  rfl

theorem pipeline_delivers_frames_two :
    ((∀ m ∈ [[7, 8], [9]], m.length < 2 ^ 32 - 4) ∧
      [[0, 0], [0, 2, 7, 8, 0], [0, 0, 1, 9]].flatten = ([[7, 8], [9]].map write).flatten) ∧
    ((init false).run [[0, 0], [0, 2, 7, 8, 0], [0, 0, 1, 9]]).delivered = [[7, 8], [9]] :=
  ⟨⟨by decide, by decide⟩, pipeline_delivers_frames [[7, 8], [9]] (by decide) _ (by decide)⟩


/-! ## The upgrade -/

/-- a prefix of a list short of all of it is a prefix of the list without its last element -/
theorem prefix_dropLast_of_ne {α : Type*} {P H : List α} (hP : P <+: H) (hne : P ≠ H) : P <+: H.dropLast := by
  obtain ⟨t, rfl⟩ := hP
  have ht : t ≠ [] := fun h => hne (by simp [h])
  rw [List.dropLast_append_of_ne_nil ht]
  exact List.prefix_append _ _

/-- **The response header.** While the header has not ended the upgrade handler keeps what was read; the read that
completes it clears the queue and switches to the decoder, and the empty reads after it change nothing. -/
theorem run_header {H : List UInt8} (hstatus : clprotoUpgradeResponseStatus <+: H) (hend : headerEnd <:+ H)
    (hfirst : ¬ headerEnd <:+: H.dropLast) :
    ∀ (cs : List (List UInt8)) (P : List UInt8), P ++ cs.flatten = H → P ≠ H →
      Decoding ((⟨true, .pending, P, [], false⟩ : CLProtoPipeline).run cs) ∧
        ((⟨true, .pending, P, [], false⟩ : CLProtoPipeline).run cs).queue = [] ∧
        ((⟨true, .pending, P, [], false⟩ : CLProtoPipeline).run cs).delivered = []
  | [], P, hP, hne => absurd (by simpa using hP) hne
  | c :: cs, P, hP, hne => by
    rw [List.flatten_cons, ← List.append_assoc] at hP
    rw [run_cons]
    by_cases hc : P ++ c = H
    · -- the read that completes the header: the queue is cleared
      have hread :
          (⟨true, .pending, P, [], false⟩ : CLProtoPipeline).read c = ⟨true, .value, [], [], false⟩ := by
        simp [read, hc, hend.isInfix, hstatus, decoderRead, decodeLoop, decode, lengthFieldLength]
      rw [hread]
      have hnil : cs.flatten = (([] : List (List UInt8)).map write).flatten := by
        rw [hc] at hP
        simpa using hP
      obtain ⟨hdel, hq, hdec⟩ :=
        @run_decoding_delivers ⟨true, .value, [], [], false⟩ ⟨Or.inr rfl, rfl⟩ rfl [] (by simp) cs hnil
      exact ⟨hdec, hq, by simpa using hdel⟩
    · -- the header goes on: its end has not come yet
      have hpre : P ++ c <+: H := ⟨cs.flatten, hP⟩
      have hnoend : ¬ headerEnd <:+: P ++ c := fun hinf =>
        hfirst (hinf.trans (prefix_dropLast_of_ne hpre hc).isInfix)
      have hread : (⟨true, .pending, P, [], false⟩ : CLProtoPipeline).read c =
          ⟨true, .pending, P ++ c, [], false⟩ := by
        unfold read
        rw [if_pos ⟨rfl, rfl⟩, if_pos hnoend]
      rw [hread]
      exact run_header hstatus hend hfirst cs (P ++ c) hP hc

/-- **With the upgrade, the framed messages pass when the response header ends at the end of a read.** The
header starts with the upgrade status and ends at its first end of header; the reads `csH` make up the header, and
the reads `cs` after them make up the frames of `ms`, cut anywhere. -/
theorem upgrade_pipeline_delivers_frames (H : List UInt8) (hstatus : clprotoUpgradeResponseStatus <+: H)
    (hend : headerEnd <:+ H) (hfirst : ¬ headerEnd <:+: H.dropLast) (csH : List (List UInt8))
    (hcsH : csH.flatten = H) (ms : List (List UInt8)) (hms : ∀ m ∈ ms, m.length < 2 ^ 32 - 4)
    (cs : List (List UInt8)) (hcs : cs.flatten = (ms.map write).flatten) :
    ((init true).run (csH ++ cs)).delivered = ms := by
  have hne : ([] : List UInt8) ≠ H := by
    rintro rfl
    exact absurd (List.prefix_nil.1 hstatus) (by simp [clprotoUpgradeResponseStatus])
  obtain ⟨hdec, hq, hdel⟩ := run_header hstatus hend hfirst csH [] (by simpa using hcsH) hne
  rw [run_append]
  change (((⟨true, .pending, [], [], false⟩ : CLProtoPipeline).run csH).run cs).delivered = ms
  rw [(run_decoding_delivers hdec hq hms hcs).1, hdel, List.nil_append]

theorem upgrade_pipeline_delivers_frames_two :
    (clprotoUpgradeResponseStatus <+: clprotoUpgradeResponseStatus ++ headerEnd ∧
      headerEnd <:+ clprotoUpgradeResponseStatus ++ headerEnd ∧
      ¬ headerEnd <:+: (clprotoUpgradeResponseStatus ++ headerEnd).dropLast ∧
      [(clprotoUpgradeResponseStatus ++ headerEnd).take 20, (clprotoUpgradeResponseStatus ++ headerEnd).drop 20].flatten =
        clprotoUpgradeResponseStatus ++ headerEnd ∧
      (∀ m ∈ [[7, 8], [9]], m.length < 2 ^ 32 - 4) ∧
      [[0, 0], [0, 2, 7, 8, 0], [0, 0, 1, 9]].flatten = ([[7, 8], [9]].map write).flatten) ∧
    ((init true).run ([(clprotoUpgradeResponseStatus ++ headerEnd).take 20,
      (clprotoUpgradeResponseStatus ++ headerEnd).drop 20] ++ [[0, 0], [0, 2, 7, 8, 0], [0, 0, 1, 9]])).delivered =
      [[7, 8], [9]] :=
  ⟨⟨by decide, by decide, by decide, by decide, by decide, by decide⟩,
    upgrade_pipeline_delivers_frames (clprotoUpgradeResponseStatus ++ headerEnd) (by decide) (by decide) (by decide)
      _ (by decide) [[7, 8], [9]] (by decide) _ (by decide)⟩

/-- **The first frame is lost when it comes in the read that ends the response header**: the upgrade handler finds
the end of the header and clears the whole queue, the frame with it. The header is a valid response whose only end
of header is its last four bytes. -/
theorem upgrade_drops_first_frame :
    (clprotoUpgradeResponseStatus <+: clprotoUpgradeResponseStatus ++ headerEnd ∧
      headerEnd <:+ clprotoUpgradeResponseStatus ++ headerEnd ∧
      ¬ headerEnd <:+: (clprotoUpgradeResponseStatus ++ headerEnd).dropLast) ∧
    ((init true).run [clprotoUpgradeResponseStatus ++ headerEnd ++ write [7]]).delivered = [] := by
  decide

end CLProtoPipeline

end OneHelpers.Communication
