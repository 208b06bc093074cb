import P2PFileTransfer.Core.Protocol
import P2PFileTransfer.Foundation.FixedWidth
import P2PFileTransfer.Foundation.Fragments

/-!
# Frames of the control stream

A frame is the magic, the length of the payload and the payload.  The reader tells the end
of the stream between two frames from one inside a frame.  A stream that fails instead of
ending is left out.
-/

namespace P2PFileTransfer.Core.Framing

open P2PFileTransfer.Foundation.ByteFile
open P2PFileTransfer.Foundation.FixedWidth
open P2PFileTransfer.Foundation.Fragments
open P2PFileTransfer.Core.Protocol

/-- The MessagePack encoder and decoder. -/
structure MessageCodec where
  encode : Message → Except Error Bytes
  decode : Bytes → Except Error Message

/-- What was encoded is decoded again. -/
def MessageCodec.Inverse (codec : MessageCodec) : Prop :=
  ∀ message payload, codec.encode message = .ok payload → codec.decode payload = .ok message

/-- The bytes of `P2PF`. -/
def protocolMagic : Bytes := [80, 50, 80, 70]

def frameOf (payload : Bytes) : Bytes :=
  protocolMagic ++ toBigEndian 4 (truncate 32 payload.length) ++ payload

/-- The frame that `write_message` writes. -/
def writeFrame (codec : MessageCodec) (message : Message) : Except Error Bytes :=
  match codec.encode message with
  | .error error => .error error
  | .ok payload =>
      if maxMessageSize < payload.length then
        .error (.protocol [.text "Message too large: ", .nat payload.length, .text " bytes"])
      else .ok (frameOf payload)

def readPayload (codec : MessageCodec) (len : Nat) (reader : Reader) :
    Except Error Message × Reader :=
  if maxMessageSize < len then
    (.error (.protocol [.text "Message too large: ", .nat len, .text " bytes"]), reader)
  else
    match reader.readExact len with
    | (none, next) => (.error (.protocol [.text "truncated frame payload: early eof"]), next)
    | (some payload, next) => (codec.decode payload, next)

def readHeader (codec : MessageCodec) (magic : Bytes) (reader : Reader) :
    Except Error Message × Reader :=
  if magic ≠ protocolMagic then
    (.error (.protocol [.text "Invalid magic bytes: ", .bytes magic]), reader)
  else
    match reader.readExact 4 with
    | (none, next) => (.error (.protocol [.text "truncated frame header: early eof"]), next)
    | (some header, next) => readPayload codec (fromBigEndian header) next

def readMessage (codec : MessageCodec) (reader : Reader) : Except Error Message × Reader :=
  let (first, next) := reader.read 1
  if first = [] then (.error .disconnected, next)
  else
    match next.readExact 3 with
    | (none, next) => (.error (.protocol [.text "truncated magic: early eof"]), next)
    | (some rest, next) => readHeader codec (first ++ rest) next

/-- Up to so many calls, until one fails. -/
def readMessages (codec : MessageCodec) : Nat → Reader → List Message × Option Error
  | 0, _ => ([], none)
  | calls + 1, reader =>
      match readMessage codec reader with
      | (.error error, _) => ([], some error)
      | (.ok message, next) =>
          let (messages, error) := readMessages codec calls next
          (message :: messages, error)

/-! ## Writing -/

variable {codec : MessageCodec} {message : Message} {frame payload : Bytes}

/-- What is written is a frame within the cap. -/
theorem writeFrame_eq_ok (hwrite : writeFrame codec message = .ok frame) :
    ∃ payload, codec.encode message = .ok payload ∧ payload.length ≤ maxMessageSize ∧
      frame = frameOf payload := by
  rw [writeFrame] at hwrite
  cases hencode : codec.encode message with
  | error error =>
      rw [hencode] at hwrite
      cases hwrite
  | ok payload =>
      rw [hencode] at hwrite
      dsimp only at hwrite
      split at hwrite
      · cases hwrite
      · rename_i hfits
        cases hwrite
        exact ⟨payload, rfl, Nat.le_of_not_lt hfits, rfl⟩

theorem length_frameOf (payload : Bytes) : (frameOf payload).length = 8 + payload.length := by
  simp only [frameOf, List.length_append, length_toBigEndian]
  rfl

/-- The cap keeps the length within its four bytes. -/
theorem fromBigEndian_length (hfits : payload.length ≤ maxMessageSize) :
    fromBigEndian (toBigEndian 4 (truncate 32 payload.length)) = payload.length := by
  have hsmall : payload.length < 2 ^ 32 := by
    rw [maxMessageSize] at hfits
    omega
  have htruncate : truncate 32 payload.length = payload.length := Nat.mod_eq_of_lt hsmall
  rw [htruncate]
  exact fromBigEndian_toBigEndian (by omega)

/-! ## Reading -/

variable {reader : Reader} {len : Nat} {magic : Bytes}

theorem readMessage_nil (hbytes : reader.bytes = []) :
    (readMessage codec reader).1 = .error .disconnected := by
  rw [readMessage]
  dsimp only
  rw [if_pos (read_of_nil hbytes 1)]

/-- Behind the first byte comes the rest of the magic. -/
theorem readMessage_cons {byte : UInt8} {rest : Bytes} (hbytes : reader.bytes = byte :: rest) :
    ∃ sizes, readMessage codec reader =
      match (Reader.mk rest sizes).readExact 3 with
      | (none, next) => (.error (.protocol [.text "truncated magic: early eof"]), next)
      | (some others, next) => readHeader codec (byte :: others) next := by
  have hsome : reader.bytes ≠ [] := hbytes ▸ List.cons_ne_nil _ _
  obtain ⟨hpos, hone, _⟩ := share_bounds Nat.one_pos hsome
  have hshare : reader.share 1 = 1 := Nat.le_antisymm hone hpos
  have hread : reader.read 1 = ([byte], ⟨rest, fun round => reader.sizes (round + 1)⟩) := by
    rw [Reader.read, hshare, hbytes]
    rfl
  refine ⟨fun round => reader.sizes (round + 1), ?_⟩
  rw [readMessage, hread]
  dsimp only
  rw [if_neg (List.cons_ne_nil _ _)]
  rfl

theorem readMessage_short {byte : UInt8} {rest : Bytes} (hbytes : reader.bytes = byte :: rest)
    (hshort : rest.length < 3) :
    ∃ detail, (readMessage codec reader).1 = .error (.protocol detail) := by
  obtain ⟨sizes, hmessage⟩ := @readMessage_cons codec reader byte rest hbytes
  have hnone := @readExact_eq_none ⟨rest, sizes⟩ 3 hshort
  refine ⟨[.text "truncated magic: early eof"], ?_⟩
  rw [hmessage]
  rcases hresult : (Reader.mk rest sizes).readExact 3 with ⟨others, next⟩
  rw [hresult] at hnone
  dsimp only at hnone
  rw [hnone]

/-- A frame that starts with the magic. -/
theorem readMessage_magic {rest : Bytes} (hbytes : reader.bytes = protocolMagic ++ rest) :
    ∃ sizes, readMessage codec reader = readHeader codec protocolMagic ⟨rest, sizes⟩ := by
  have hcons : reader.bytes = 80 :: ([50, 80, 70] ++ rest) := hbytes
  obtain ⟨sizes, hmessage⟩ := @readMessage_cons codec reader _ _ hcons
  obtain ⟨more, hthree⟩ := @readExact_eq_some ⟨[50, 80, 70] ++ rest, sizes⟩ 3 (Nat.le_add_left 3 _)
  refine ⟨more, ?_⟩
  rw [hmessage, hthree]
  rfl

/-- A payload that is there is decoded. -/
theorem readPayload_ok (hfits : len ≤ maxMessageSize) (hbytes : len ≤ reader.bytes.length) :
    ∃ sizes, readPayload codec len reader =
      (codec.decode (reader.bytes.take len), ⟨reader.bytes.drop len, sizes⟩) := by
  obtain ⟨sizes, hread⟩ := readExact_eq_some hbytes
  refine ⟨sizes, ?_⟩
  rw [readPayload, if_neg (Nat.not_lt.mpr hfits), hread]

theorem readPayload_short (hfits : len ≤ maxMessageSize) (hbytes : reader.bytes.length < len) :
    ∃ detail, (readPayload codec len reader).1 = .error (.protocol detail) := by
  have hread := readExact_eq_none hbytes
  refine ⟨[.text "truncated frame payload: early eof"], ?_⟩
  rw [readPayload, if_neg (Nat.not_lt.mpr hfits)]
  rcases hresult : reader.readExact len with ⟨bytes, next⟩
  rw [hresult] at hread
  dsimp only at hread
  rw [hread]

theorem readHeader_ok (hbytes : 4 ≤ reader.bytes.length) :
    ∃ sizes, readHeader codec protocolMagic reader =
      readPayload codec (fromBigEndian (reader.bytes.take 4)) ⟨reader.bytes.drop 4, sizes⟩ := by
  obtain ⟨sizes, hread⟩ := readExact_eq_some hbytes
  refine ⟨sizes, ?_⟩
  rw [readHeader, if_neg (not_not.mpr rfl), hread]

theorem readHeader_short (hbytes : reader.bytes.length < 4) :
    ∃ detail, (readHeader codec protocolMagic reader).1 = .error (.protocol detail) := by
  have hread := readExact_eq_none hbytes
  refine ⟨[.text "truncated frame header: early eof"], ?_⟩
  rw [readHeader, if_neg (not_not.mpr rfl)]
  rcases hresult : reader.readExact 4 with ⟨bytes, next⟩
  rw [hresult] at hread
  dsimp only at hread
  rw [hread]

end P2PFileTransfer.Core.Framing
