import P2PFileTransfer.Foundation.ByteFile
import P2PFileTransfer.Foundation.UnixPath

/-!
# Control messages, errors and frame sizes

Chunk data never travels in a control message: it has its own streams.  Numeric
wire fields are natural numbers, cut to their width where the code converts
them; the chunk size and the bandwidth limit keep their fixed-width types because
the arithmetic of a transfer depends on their range.  A wire string is its UTF-8
bytes.  Arguments of an error text are kept as values instead of being printed.
-/

namespace P2PFileTransfer.Core.Protocol

open P2PFileTransfer.Foundation.ByteFile
open P2PFileTransfer.Foundation.UnixPath

/-- Exactly `length` bytes. -/
abbrev FixedBytes (length : Nat) := { bytes : Bytes // bytes.length = length }

abbrev Uuid := FixedBytes 16

abbrev Fingerprint := FixedBytes 32

abbrev Digest := FixedBytes 32

def FixedBytes.filled (length : Nat) (byte : UInt8) : FixedBytes length :=
  ⟨List.replicate length byte, List.length_replicate⟩

/-- Identifiers compare byte by byte, most significant byte first. -/
def Uuid.lt (left right : Uuid) : Bool := decide (left.val < right.val)

def protocolVersion : Nat := 3

def minProtocolVersion : Nat := 3

def defaultChunkSize : UInt32 := 1024 * 1024

inductive ErrorCode where
  | protocolError
  | versionMismatch
  | unsupportedCapability
  | fileSystemError
  | transferCancelled
  | other
  deriving DecidableEq, Repr

structure DiscoveryBeacon where
  version : Nat
  deviceId : Uuid
  deviceName : OsStr
  port : Nat
  certFingerprint : Fingerprint
  deriving DecidableEq, Repr

structure HelloMessage where
  protocolVersion : Nat
  minVersion : Nat
  deviceId : Uuid
  certFingerprint : Fingerprint
  deriving DecidableEq, Repr

structure ConfigMessage where
  compressionEnabled : Bool
  compressionLevel : Int
  adaptiveCompression : Bool
  chunkSize : UInt32
  bandwidthLimit : UInt64
  deriving DecidableEq, Repr

def ConfigMessage.default : ConfigMessage where
  compressionEnabled := true
  compressionLevel := 3
  adaptiveCompression := true
  chunkSize := defaultChunkSize
  bandwidthLimit := 0

structure FileMetadata where
  path : OsStr
  size : Nat
  modified : Nat
  checksum : Digest
  deriving DecidableEq, Repr

structure ResumePoint where
  transferId : Uuid
  fileIndex : Nat
  completedChunks : List Nat
  deriving DecidableEq, Repr

structure TransferInfo where
  transferId : Uuid
  items : List FileMetadata
  resumeFrom : Option ResumePoint
  completedFiles : List Nat
  deriving DecidableEq, Repr

structure FileProgress where
  fileIndex : Nat
  totalChunks : Nat
  completedChunks : List Nat
  deriving DecidableEq, Repr

structure ResumeRequest where
  transferId : Uuid
  progress : List FileProgress
  deriving DecidableEq, Repr

structure CompleteMessage where
  transferId : Uuid
  totalBytes : Nat
  durationMs : Nat
  deriving DecidableEq, Repr

structure FileChecksumMessage where
  transferId : Uuid
  fileIndex : Nat
  checksum : Digest
  deriving DecidableEq, Repr

structure ErrorMessage where
  code : ErrorCode
  message : OsStr
  deriving DecidableEq, Repr

inductive Message where
  | discoveryBeacon (beacon : DiscoveryBeacon)
  | hello (hello : HelloMessage)
  | helloAck (hello : HelloMessage)
  | config (config : ConfigMessage)
  | configAck
  | transferInfo (info : TransferInfo)
  | ready
  | resume (request : ResumeRequest)
  | pause
  | cancel
  | complete (complete : CompleteMessage)
  | fileChecksum (checksum : FileChecksumMessage)
  | error (error : ErrorMessage)
  | ping
  | pong
  deriving DecidableEq, Repr

/-! ## Errors -/

/-- One argument or literal part of a formatted error text. -/
inductive Fragment where
  | text (literal : String)
  | nat (value : Nat)
  | path (path : OsStr)
  | bytes (bytes : Bytes)
  | message (message : Message)
  deriving DecidableEq, Repr

abbrev Text := List Fragment

inductive Error where
  | network (detail : Text)
  | protocol (detail : Text)
  | versionMismatch (peer ours : Nat)
  | compression (detail : Text)
  | decompression (detail : Text)
  | verification (detail : Text)
  | fileSystem (detail : Text)
  | config (detail : Text)
  | serialization (detail : Text)
  | deserialization (detail : Text)
  | disconnected
  | timeout
  | cancelled
  | transferNotFound (detail : Text)
  | invalidChunk (detail : Text)
  | unsupportedCapability (detail : Text)
  | quic (detail : Text)
  | tls (detail : Text)
  | rendezvous (detail : Text)
  | holePunchFailed (detail : Text)
  | fingerprintMismatch
  | other (detail : Text)
  deriving DecidableEq, Repr

/-- Transient errors, after which the caller reconnects. -/
def Error.isRecoverable : Error → Bool
  | .network _ | .timeout | .disconnected | .quic _ | .holePunchFailed _ => true
  | _ => false

def Error.isProtocol : Error → Bool
  | .protocol _ => true
  | _ => false

/-! ## Encoded sizes

The length of the MessagePack encoding the framing layer writes: records are
arrays, integers take their shortest form, an enum variant with a payload is a
one-entry map from its name and a variant without one is its name. -/

def maxMessageSize : Nat := 10 * 1024 * 1024

def arrayHeaderLen (count : Nat) : Nat :=
  if count < 16 then 1 else if count < 65536 then 3 else 5

def strLen (length : Nat) : Nat :=
  if length < 32 then 1 + length
  else if length < 256 then 2 + length
  else if length < 65536 then 3 + length
  else 5 + length

def uintLen (value : Nat) : Nat :=
  if value < 128 then 1
  else if value < 256 then 2
  else if value < 65536 then 3
  else if value < 4294967296 then 5
  else 9

def intLen (value : Int) : Nat :=
  if 0 ≤ value then uintLen value.toNat
  else if -32 ≤ value then 1
  else if -128 ≤ value then 2
  else if -32768 ≤ value then 3
  else 5

def uuidLen : Nat := 18

/-- Fingerprints and checksums travel as 64 hex digits. -/
def hexLen : Nat := 66

def uintArrayLen (values : List Nat) : Nat :=
  arrayHeaderLen values.length + (values.map uintLen).sum

def FileMetadata.encodedLen (file : FileMetadata) : Nat :=
  1 + strLen file.path.length + uintLen file.size + uintLen file.modified + hexLen

def ResumePoint.encodedLen (point : ResumePoint) : Nat :=
  1 + uuidLen + uintLen point.fileIndex + uintArrayLen point.completedChunks

def TransferInfo.encodedLen (info : TransferInfo) : Nat :=
  1 + uuidLen + arrayHeaderLen info.items.length + (info.items.map FileMetadata.encodedLen).sum +
    (info.resumeFrom.map ResumePoint.encodedLen).getD 1 + uintArrayLen info.completedFiles

def HelloMessage.encodedLen (hello : HelloMessage) : Nat :=
  1 + uintLen hello.protocolVersion + uintLen hello.minVersion + uuidLen + hexLen

def ConfigMessage.encodedLen (config : ConfigMessage) : Nat :=
  3 + intLen config.compressionLevel + uintLen config.chunkSize.toNat +
    uintLen config.bandwidthLimit.toNat

def FileProgress.encodedLen (progress : FileProgress) : Nat :=
  1 + uintLen progress.fileIndex + uintLen progress.totalChunks +
    uintArrayLen progress.completedChunks

/-- A variant with a payload; `name` is the length of its name. -/
def variantLen (name payload : Nat) : Nat := 1 + strLen name + payload

def ErrorCode.encodedLen : ErrorCode → Nat
  | .protocolError => strLen 13
  | .versionMismatch => strLen 15
  | .unsupportedCapability => strLen 21
  | .fileSystemError => strLen 15
  | .transferCancelled => strLen 17
  | .other => strLen 5

def Message.encodedLen : Message → Nat
  | .discoveryBeacon beacon =>
      variantLen 15 (1 + uintLen beacon.version + uuidLen + strLen beacon.deviceName.length +
        uintLen beacon.port + hexLen)
  | .hello body => variantLen 5 body.encodedLen
  | .helloAck body => variantLen 8 body.encodedLen
  | .config body => variantLen 6 body.encodedLen
  | .configAck => strLen 9
  | .transferInfo info => variantLen 12 info.encodedLen
  | .ready => strLen 5
  | .resume request =>
      variantLen 6 (1 + uuidLen + arrayHeaderLen request.progress.length +
        (request.progress.map FileProgress.encodedLen).sum)
  | .pause => strLen 5
  | .cancel => strLen 6
  | .complete body =>
      variantLen 8 (1 + uuidLen + uintLen body.totalBytes + uintLen body.durationMs)
  | .fileChecksum body => variantLen 12 (1 + uuidLen + uintLen body.fileIndex + hexLen)
  | .error body => variantLen 5 (1 + body.code.encodedLen + strLen body.message.length)
  | .ping => strLen 4
  | .pong => strLen 4

/-- The size check `write_message` makes before a frame reaches the stream. -/
def writeMessage (message : Message) : Except Error Unit :=
  if maxMessageSize < message.encodedLen then
    .error (.protocol [.text "Message too large: ", .nat message.encodedLen, .text " bytes"])
  else .ok ()

theorem length_items_le_encodedLen (info : TransferInfo) :
    info.items.length ≤ info.encodedLen := by
  have hitems : info.items.length ≤ (info.items.map FileMetadata.encodedLen).sum := by
    induction info.items with
    | nil => exact Nat.le_refl _
    | cons file rest ih =>
        have hfile : 1 ≤ file.encodedLen := by
          unfold FileMetadata.encodedLen
          omega
        simp only [List.map_cons, List.sum_cons, List.length_cons]
        omega
  unfold TransferInfo.encodedLen
  omega

/-- A manifest that fits a frame has fewer items than any 32-bit index can number. -/
theorem length_items_lt_of_writeMessage {info : TransferInfo}
    (hwrite : writeMessage (.transferInfo info) = .ok ()) :
    info.items.length < 2 ^ 32 := by
  have hitems := length_items_le_encodedLen info
  have hfits : ¬ maxMessageSize < (Message.transferInfo info).encodedLen := by
    intro hlarge
    rw [writeMessage, if_pos hlarge] at hwrite
    cases hwrite
  simp only [Message.encodedLen, variantLen, maxMessageSize] at hfits
  omega

end P2PFileTransfer.Core.Protocol
