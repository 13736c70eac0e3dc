import S2c.Network.Error
import S2c.Proto.Formats
import S2c.Wire.Buffered

namespace S2c

open Wire

structure S2CMessageReaderImpl where
  maxMessageSize : UInt32
  buf : Bytes

def decodeMessage (describe : Bytes → String) (bs : Bytes) : Except String S2cMessage :=
  match S2cMessage.message.decode bs with
  | some message => .ok message
  | none => .error (describe bs)

theorem decodeMessage_encode (describe : Bytes → String) (m : S2cMessage)
    (hlen : (S2cMessage.message.encode m).length < 2 ^ 64) :
    decodeMessage describe (S2cMessage.message.encode m) = .ok m := by
  rw [decodeMessage, S2cMessage.message.decode_encode m hlen]

def unexpectedEof (msg : String) : NetworkError := .io "UnexpectedEof" msg

namespace S2CMessageReaderImpl

def new (maxMessageSize : UInt32) : S2CMessageReaderImpl := ⟨maxMessageSize, List.replicate 1024 0⟩

def resized (r : S2CMessageReaderImpl) (n : ℕ) : Bytes :=
  if r.buf.length < n then r.buf ++ List.replicate (n - r.buf.length) 0 else r.buf

/-- `none` while the stream has neither the message nor its end. -/
def readNextMessage (decode : Bytes → Except String S2cMessage) (r : S2CMessageReaderImpl) (reader : Stream) :
    Option (Except NetworkError S2cMessage × S2CMessageReaderImpl × Stream) :=
  (reader.readExact 4).bind (fun (header, reader) =>
    match header with
    | .error _ => some (.error (unexpectedEof "unexpected end of file"), r, reader)
    | .ok header =>
      let msgSize := UInt32.ofNat (fixed header)
      if msgSize > r.maxMessageSize then
        -- a stream that ends inside the skipped bytes is no error
        (reader.skip msgSize.toNat).map
          (fun reader => (.error (.messageTooLarge r.maxMessageSize msgSize), r, reader))
      else
        let buf := r.resized msgSize.toNat
        (reader.readExact msgSize.toNat).map (fun (payload, reader) =>
          match payload with
          | .error taken =>
            (.error (unexpectedEof "early eof"), { r with buf := taken ++ buf.drop taken.length }, reader)
          | .ok taken =>
            let buf := taken ++ buf.drop taken.length
            (match decode (buf.take msgSize.toNat) with
              | .ok message => .ok message
              | .error err => .error (.invalidProtobuf err),
              { r with buf := buf }, reader)))

def reading (decode : Bytes → Except String S2cMessage) (max : UInt32) (payload : Bytes) :
    Except NetworkError S2cMessage :=
  if UInt32.ofNat payload.length > max then .error (.messageTooLarge max (UInt32.ofNat payload.length))
  else
    match decode payload with
    | .ok message => .ok message
    | .error err => .error (.invalidProtobuf err)

def readMessages (decode : Bytes → Except String S2cMessage) : ℕ → S2CMessageReaderImpl → Stream →
    Option (List (Except NetworkError S2cMessage) × S2CMessageReaderImpl × Stream)
  | 0, r, reader => some ([], r, reader)
  | n + 1, r, reader =>
    (r.readNextMessage decode reader).bind (fun (re, r, reader) =>
      (readMessages decode n r reader).map (fun (res, r, reader) => (re :: res, r, reader)))

end S2CMessageReaderImpl

def frame (payload : Bytes) : Bytes := putFixed 4 (UInt32.ofNat payload.length).toNat ++ payload

def writeBytes (writer : BufWriter) (payload : Bytes) (kept : ℕ) : BufWriter :=
  (writer.writeAll (putFixed 4 (UInt32.ofNat payload.length).toNat) 0).writeAll payload kept

theorem written_writeBytes (writer : BufWriter) (payload : Bytes) (kept : ℕ) :
    (writeBytes writer payload kept).written = writer.written ++ frame payload := by
  simp [writeBytes, frame, BufWriter.written_writeAll]

theorem writeBytes_large {payload : Bytes} (writer : BufWriter) (hlarge : BufWriter.capacity ≤ payload.length) :
    writeBytes writer payload 0 = ⟨writer.written ++ frame payload, []⟩ := by
  rw [writeBytes, BufWriter.writeAll_large hlarge, BufWriter.written_writeAll, List.append_assoc, frame]

def writePayloads (writer : BufWriter) (writes : List (Bytes × ℕ)) : BufWriter :=
  writes.foldl (fun w p => writeBytes w p.1 p.2) writer

theorem written_writePayloads (writer : BufWriter) (writes : List (Bytes × ℕ)) :
    (writePayloads writer writes).written = writer.written ++ (writes.map Prod.fst).flatMap frame := by
  induction writes generalizing writer with
  | nil => simp [writePayloads]
  | cons p writes ih =>
    have hrest := ih (writeBytes writer p.1 p.2)
    rw [written_writeBytes] at hrest
    simpa [writePayloads] using hrest

theorem socket_writePayloads (writes : List (Bytes × ℕ)) :
    (writePayloads BufWriter.new writes).flush.socket = (writes.map Prod.fst).flatMap frame := by
  rw [BufWriter.socket_flush, written_writePayloads]
  rfl

namespace S2CMessageReaderImpl

variable {payload : Bytes}

theorem fixed_header (v : UInt32) : UInt32.ofNat (fixed (putFixed 4 v.toNat)) = v := by
  have hlt : v.toNat < 256 ^ 4 := v.toNat_lt
  rw [fixed_putFixed 4 v.toNat hlt, UInt32.ofNat_toNat]

theorem readExact_frame (payload rest : Bytes) (ended : Bool) :
    Stream.readExact ⟨frame payload ++ rest, ended⟩ 4 =
      some (.ok (putFixed 4 (UInt32.ofNat payload.length).toNat), ⟨payload ++ rest, ended⟩) := by
  have hread := Stream.readExact_append (putFixed 4 (UInt32.ofNat payload.length).toNat) (payload ++ rest) ended
  rwa [length_putFixed, ← List.append_assoc] at hread

theorem readNextMessage_frame (decode : Bytes → Except String S2cMessage) (r : S2CMessageReaderImpl)
    (hlen : payload.length < 2 ^ 32) (rest : Bytes) (ended : Bool) :
    ∃ r', r.readNextMessage decode ⟨frame payload ++ rest, ended⟩ =
      some (reading decode r.maxMessageSize payload, r', ⟨rest, ended⟩) ∧
      r'.maxMessageSize = r.maxMessageSize := by
  have hvalue : (UInt32.ofNat payload.length).toNat = payload.length := UInt32.toNat_ofNat_of_lt' hlen
  simp only [readNextMessage, readExact_frame, Option.bind_some, fixed_header]
  simp only [hvalue, reading]
  by_cases hlarge : UInt32.ofNat payload.length > r.maxMessageSize
  · rw [if_pos hlarge, if_pos hlarge, Stream.skip_append]
    exact ⟨r, rfl, rfl⟩
  · rw [if_neg hlarge, if_neg hlarge, Stream.readExact_append]
    simp only [Option.map_some, List.take_left' rfl]
    exact ⟨{ r with buf := _ }, rfl, rfl⟩

theorem readMessages_frames (decode : Bytes → Except String S2cMessage) (r : S2CMessageReaderImpl)
    {payloads : List Bytes} (hlen : ∀ p ∈ payloads, p.length < 2 ^ 32) :
    ∃ r', r.readMessages decode (payloads.length + 1) ⟨payloads.flatMap frame, true⟩ =
      some (payloads.map (reading decode r.maxMessageSize) ++
        [.error (unexpectedEof "unexpected end of file")], r', ⟨[], true⟩) := by
  induction payloads generalizing r with
  | nil =>
    refine ⟨r, ?_⟩
    simp [readMessages, readNextMessage, Stream.readExact_ended (n := 4)]
  | cons p payloads ih =>
    rw [List.forall_mem_cons] at hlen
    obtain ⟨m, hm, hmax⟩ := readNextMessage_frame decode r hlen.1 (payloads.flatMap frame) true
    obtain ⟨r', hr'⟩ := ih m hlen.2
    refine ⟨r', ?_⟩
    rw [List.flatMap_cons, List.length_cons, readMessages, hm, Option.bind_some]
    simp only [hr', hmax, Option.map_some, List.map_cons, List.cons_append]

theorem readMessages_writes (decode : Bytes → Except String S2cMessage) (r : S2CMessageReaderImpl)
    (writes : List (Bytes × ℕ)) (hlen : ∀ p ∈ writes, p.1.length < 2 ^ 32) :
    (r.readMessages decode (writes.length + 1) ⟨(writePayloads BufWriter.new writes).flush.socket, true⟩).map
      Prod.fst = some (writes.map (fun p => reading decode r.maxMessageSize p.1) ++
        [.error (unexpectedEof "unexpected end of file")]) := by
  have hlen' : ∀ p ∈ writes.map Prod.fst, p.length < 2 ^ 32 := by simpa using hlen
  obtain ⟨r', hr'⟩ := readMessages_frames decode r hlen'
  rw [List.length_map, List.map_map] at hr'
  rw [socket_writePayloads, hr', Option.map_some]
  rfl

theorem readMessages_writes_sample :
    ((new 2).readMessages (decodeMessage (fun _ => "failed to decode Protobuf message: invalid tag value: 0")) 5
      ⟨(writePayloads BufWriter.new [([0], 0), ([98, 0], 0), ([1, 2, 3], 0), ([], 0)]).flush.socket, true⟩).map
        Prod.fst =
      some [.error (.invalidProtobuf "failed to decode Protobuf message: invalid tag value: 0"),
        .ok ⟨"", none, some .slowDownError⟩, .error (.messageTooLarge 2 3), .ok ⟨"", none, none⟩,
        .error (unexpectedEof "unexpected end of file")] :=
  readMessages_writes _ (new 2) [([0], 0), ([98, 0], 0), ([1, 2, 3], 0), ([], 0)] (by decide)

theorem reading_encode (describe : Bytes → String) {max : UInt32} (m : S2cMessage)
    (hlen : (S2cMessage.message.encode m).length ≤ max.toNat) :
    reading (decodeMessage describe) max (S2cMessage.message.encode m) = .ok m := by
  have hlt : (S2cMessage.message.encode m).length < 2 ^ 32 := Nat.lt_of_le_of_lt hlen max.toNat_lt
  have hvalue : (UInt32.ofNat (S2cMessage.message.encode m).length).toNat =
      (S2cMessage.message.encode m).length := UInt32.toNat_ofNat_of_lt' hlt
  have hsmall : ¬UInt32.ofNat (S2cMessage.message.encode m).length > max := by
    rw [gt_iff_lt, UInt32.lt_iff_toNat_lt, hvalue]
    omega
  rw [reading, if_neg hsmall, decodeMessage_encode describe m (by omega)]

theorem readMessages_messages (describe : Bytes → String) (r : S2CMessageReaderImpl) (messages : List S2cMessage)
    (kept : S2cMessage → ℕ)
    (hlen : ∀ m ∈ messages, (S2cMessage.message.encode m).length ≤ r.maxMessageSize.toNat) :
    ∃ r', r.readMessages (decodeMessage describe) (messages.length + 1)
      ⟨(writePayloads BufWriter.new
        (messages.map (fun m => (S2cMessage.message.encode m, kept m)))).flush.socket, true⟩ =
      some (messages.map .ok ++ [.error (unexpectedEof "unexpected end of file")], r', ⟨[], true⟩) := by
  have hshort : ∀ p ∈ messages.map S2cMessage.message.encode, p.length < 2 ^ 32 := by
    simp only [List.forall_mem_map]
    intro m hm
    exact Nat.lt_of_le_of_lt (hlen m hm) r.maxMessageSize.toNat_lt
  obtain ⟨r', hr'⟩ := readMessages_frames (decodeMessage describe) r hshort
  refine ⟨r', ?_⟩
  have hread : messages.map (fun m => reading (decodeMessage describe) r.maxMessageSize
      (S2cMessage.message.encode m)) = messages.map .ok :=
    List.map_congr_left (fun m hm => reading_encode describe m (hlen m hm))
  rw [List.length_map, List.map_map, Function.comp_def, hread] at hr'
  rw [socket_writePayloads, List.map_map]
  exact hr'

end S2CMessageReaderImpl

end S2c
