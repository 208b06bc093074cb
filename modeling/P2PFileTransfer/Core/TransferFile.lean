import P2PFileTransfer.Core.Protocol
import P2PFileTransfer.Foundation.FixedWidth

/-!
# Chunk arithmetic and the chunk stream format

A file travels as one stream per chunk: eight bytes of chunk index, one byte of
flags, and the payload.  The hash function, the compressor and the floating-point
comparison of the adaptive compressor are library code and enter as parameters.
-/

namespace P2PFileTransfer.Core.TransferFile

open P2PFileTransfer.Foundation.ByteFile
open P2PFileTransfer.Foundation.FixedWidth
open P2PFileTransfer.Core.Protocol

/-- The library functions a transfer calls. -/
structure Codec where
  sha256 : Bytes → Digest
  encodeAll : Bytes → Int → Except Text Bytes
  decodeAll : Bytes → Except Text Bytes
  /-- Whether `original / compressed` is below the threshold 1.05. -/
  belowThreshold : Nat → Nat → Bool

/-- A codec for runs on fixed inputs: chunks travel as they are. -/
def Codec.stored (sha256 : Bytes → Digest) : Codec where
  sha256 := sha256
  encodeAll := fun data _ => .ok data
  decodeAll := fun data => .ok data
  belowThreshold := fun _ _ => false

def maxChunkStreamBytes : Nat := 16 * 1024 * 1024

def maxTransferFileSize : Nat := 1024 * 1024 * 1024 * 1024

def chunkHeaderBytes : Nat := 9

def flagCompressed : UInt8 := 1

def validateFileSize (size : Nat) : Except Error Unit :=
  if maxTransferFileSize < size then
    .error (.protocol [.text "peer-supplied file size ", .nat size, .text " exceeds maximum ",
      .nat maxTransferFileSize])
  else .ok ()

/-- Ceiling division in 64-bit arithmetic. -/
def chunkCount (fileSize : Nat) (chunkSize : UInt32) : Checked Nat := do
  let raised ← add 64 fileSize chunkSize.toNat
  let numerator ← sub raised 1
  div numerator chunkSize.toNat

/-- The number of chunks that cover a file, over the integers. -/
def chunksOf (fileSize chunkSize : Nat) : Nat := (fileSize + chunkSize - 1) / chunkSize

theorem chunkSize_pos {chunkSize : UInt32} (hpos : chunkSize ≠ 0) : 0 < chunkSize.toNat :=
  Nat.pos_of_ne_zero fun hzero => hpos (UInt32.toNat_inj.mp hzero)

theorem chunkCount_eq_ok {fileSize : Nat} {chunkSize : UInt32} (hpos : chunkSize ≠ 0)
    (hfits : fileSize + chunkSize.toNat < 2 ^ 64) :
    chunkCount fileSize chunkSize = .ok (chunksOf fileSize chunkSize.toNat) := by
  have hnat : 0 < chunkSize.toNat :=
    Nat.pos_of_ne_zero fun hzero => hpos (UInt32.toNat_inj.mp hzero)
  have hone : 1 ≤ fileSize + chunkSize.toNat := Nat.le_add_left_of_le hnat
  rw [chunkCount, add_eq_ok hfits]
  change (sub (fileSize + chunkSize.toNat) 1 >>= fun numerator => div numerator chunkSize.toNat) = _
  rw [sub_eq_ok hone]
  exact div_eq_ok hnat

/-- A zero chunk size never yields a count. -/
theorem chunkCount_zero (fileSize : Nat) : ∃ fault, chunkCount fileSize 0 = .error fault := by
  rw [chunkCount]
  cases hadd : add 64 fileSize (0 : UInt32).toNat with
  | error fault => exact ⟨fault, rfl⟩
  | ok raised =>
      cases hsub : sub raised 1 with
      | error fault => exact ⟨fault, by simp [bind, Except.bind, hsub]⟩
      | ok numerator => exact ⟨.divisionByZero, by simp [bind, Except.bind, hsub]⟩

theorem chunkSize_ne_zero_of_chunkCount {fileSize count : Nat} {chunkSize : UInt32}
    (hcount : chunkCount fileSize chunkSize = .ok count) : chunkSize ≠ 0 := by
  rintro rfl
  obtain ⟨fault, hfault⟩ := chunkCount_zero fileSize
  rw [hfault] at hcount
  cases hcount

/-- Chunks before the last one are full, so the last offset lies inside the file. -/
theorem mul_lt_of_lt_chunksOf {fileSize chunkSize index : Nat} (hpos : 0 < chunkSize)
    (hindex : index < chunksOf fileSize chunkSize) : index * chunkSize < fileSize := by
  rw [chunksOf, Nat.lt_div_iff_mul_lt hpos] at hindex
  have hcomm := Nat.mul_comm index chunkSize
  omega

theorem le_chunksOf_mul (fileSize : Nat) {chunkSize : Nat} (hpos : 0 < chunkSize) :
    fileSize ≤ chunksOf fileSize chunkSize * chunkSize := by
  have hdiv := Nat.div_add_mod (fileSize + chunkSize - 1) chunkSize
  have hmod := Nat.mod_lt (fileSize + chunkSize - 1) hpos
  rw [chunksOf, Nat.mul_comm]
  omega

theorem chunksOf_mul_lt (fileSize : Nat) {chunkSize : Nat} (hpos : 0 < chunkSize) :
    chunksOf fileSize chunkSize * chunkSize < fileSize + chunkSize := by
  have hdiv := Nat.div_mul_le_self (fileSize + chunkSize - 1) chunkSize
  rw [chunksOf]
  omega

/-! ## Compression -/

structure AdaptiveCompressor where
  level : Int
  sampleSize : Nat
  chunksSampled : Nat
  totalOriginalSize : Nat
  totalCompressedSize : Nat
  compressionEnabled : Bool
  compressionDecided : Bool
  deriving DecidableEq, Repr

def AdaptiveCompressor.new (level : Int) (sampleSize : Nat) : AdaptiveCompressor where
  level := level
  sampleSize := sampleSize
  chunksSampled := 0
  totalOriginalSize := 0
  totalCompressedSize := 0
  compressionEnabled := true
  compressionDecided := decide (sampleSize = 0)

def compress (codec : Codec) (data : Bytes) (level : Int) : Except Error Bytes :=
  match codec.encodeAll data level with
  | .ok encoded => .ok encoded
  | .error detail => .error (.compression detail)

def decompress (codec : Codec) (data : Bytes) : Except Error Bytes :=
  match codec.decodeAll data with
  | .ok decoded => .ok decoded
  | .error detail => .error (.decompression detail)

/-- The compressor after a chunk, the bytes to send and whether they are compressed. -/
def AdaptiveCompressor.compress (codec : Codec) (compressor : AdaptiveCompressor) (data : Bytes) :
    Except Error (AdaptiveCompressor × Bytes × Bool) :=
  if compressor.compressionDecided ∧ ¬ compressor.compressionEnabled then
    .ok (compressor, data, false)
  else
    match TransferFile.compress codec data compressor.level with
    | .error error => .error error
    | .ok compressed =>
        if compressor.compressionDecided then .ok (compressor, compressed, true)
        else
          let sampled := { compressor with
            chunksSampled := compressor.chunksSampled + 1
            totalOriginalSize := compressor.totalOriginalSize + data.length
            totalCompressedSize := compressor.totalCompressedSize + compressed.length }
          if sampled.sampleSize ≤ sampled.chunksSampled then
            .ok ({ sampled with
              compressionDecided := true
              compressionEnabled :=
                if codec.belowThreshold sampled.totalOriginalSize sampled.totalCompressedSize then false
                else sampled.compressionEnabled }, compressed, true)
          else .ok (sampled, compressed, true)

/-- A file starts with a fresh compressor when the configuration asks for one. -/
def startCompressor (config : ConfigMessage) : Option AdaptiveCompressor :=
  if config.compressionEnabled then
    some (.new config.compressionLevel (if config.adaptiveCompression then 3 else 0))
  else none

/-- The bytes of one chunk as they travel. -/
def prepareChunk (codec : Codec) (compressor : Option AdaptiveCompressor) (data : Bytes) :
    Except Error (Option AdaptiveCompressor × Bytes × Bool) :=
  match compressor with
  | none => .ok (none, data, false)
  | some compressor =>
      match compressor.compress codec data with
      | .error error => .error error
      | .ok (next, bytes, compressed) => .ok (some next, bytes, compressed)

/-! ## Chunk streams -/

def chunkStream (index : Nat) (compressed : Bool) (data : Bytes) : Bytes :=
  toLittleEndian 8 index ++ [if compressed then flagCompressed else 0] ++ data

def streamIndex (raw : Bytes) : Nat := fromLittleEndian (raw.take 8)

def streamCompressed (raw : Bytes) : Bool := decide (raw.getD 8 0 &&& flagCompressed ≠ 0)

def streamPayload (raw : Bytes) : Bytes := raw.drop chunkHeaderBytes

/-- What the receive loop makes of one stream: nothing for a repeated index,
else the index and the bytes to write. -/
def acceptChunk (codec : Codec) (config : ConfigMessage) (totalChunks : Nat) (seen : List Nat)
    (raw : Bytes) : Except Error (Option (Nat × Bytes)) :=
  if maxChunkStreamBytes < raw.length then
    .error (.quic [.text "chunk stream read: stream too long"])
  else if raw.length < chunkHeaderBytes then
    .error (.protocol [.text "chunk stream too short: ", .nat raw.length, .text " bytes"])
  else if totalChunks ≤ streamIndex raw then
    .error (.protocol [.text "chunk_index ", .nat (streamIndex raw), .text " >= total_chunks ",
      .nat totalChunks])
  else if streamIndex raw ∈ seen then .ok none
  else if streamCompressed raw then
    if config.compressionEnabled then
      match decompress codec (streamPayload raw) with
      | .error error => .error error
      | .ok data => .ok (some (streamIndex raw, data))
    else .error (.protocol [.text "compressed chunk but compression disabled in config"])
  else .ok (some (streamIndex raw, streamPayload raw))

theorem decompress_eq_ok_iff {codec : Codec} {encoded data : Bytes} :
    decompress codec encoded = .ok data ↔ codec.decodeAll encoded = .ok data := by
  rw [decompress]
  cases codec.decodeAll encoded with
  | error detail => simp
  | ok decoded => simp

/-- A stream is written when it is neither too long nor too short, its index is in
range and fresh, and its payload decodes; the payload is written as decoded. -/
theorem acceptChunk_eq_some_iff {codec : Codec} {config : ConfigMessage} {totalChunks index : Nat}
    {seen : List Nat} {raw data : Bytes} :
    acceptChunk codec config totalChunks seen raw = .ok (some (index, data)) ↔
      raw.length ≤ maxChunkStreamBytes ∧ chunkHeaderBytes ≤ raw.length ∧
        index = streamIndex raw ∧ index < totalChunks ∧ index ∉ seen ∧
        (streamCompressed raw = true ∧ config.compressionEnabled = true ∧
            codec.decodeAll (streamPayload raw) = .ok data ∨
          streamCompressed raw = false ∧ data = streamPayload raw) := by
  rw [← decompress_eq_ok_iff]
  constructor
  · intro haccept
    rw [acceptChunk] at haccept
    split at haccept
    · cases haccept
    · rename_i hlong
      split at haccept
      · cases haccept
      · rename_i hshort
        split at haccept
        · cases haccept
        · rename_i hrange
          split at haccept
          · cases haccept
          · rename_i hfresh
            have hbounds := And.intro (Nat.le_of_not_lt hlong) (Nat.le_of_not_lt hshort)
            split at haccept
            · rename_i hflag
              split at haccept
              · rename_i henabled
                cases hdecode : decompress codec (streamPayload raw) with
                | error error =>
                    rw [hdecode] at haccept
                    cases haccept
                | ok decoded =>
                    rw [hdecode] at haccept
                    cases haccept
                    exact ⟨hbounds.1, hbounds.2, rfl, Nat.lt_of_not_le hrange, hfresh,
                      Or.inl ⟨hflag, henabled, rfl⟩⟩
              · cases haccept
            · rename_i hflag
              cases haccept
              exact ⟨hbounds.1, hbounds.2, rfl, Nat.lt_of_not_le hrange, hfresh,
                Or.inr ⟨Bool.eq_false_iff.mpr hflag, rfl⟩⟩
  · rintro ⟨hlong, hshort, rfl, hrange, hfresh, hpayload⟩
    rw [acceptChunk, if_neg (Nat.not_lt.mpr hlong), if_neg (Nat.not_lt.mpr hshort),
      if_neg (Nat.not_le.mpr hrange), if_neg hfresh]
    rcases hpayload with ⟨hflag, henabled, hdecode⟩ | ⟨hflag, rfl⟩
    · rw [if_pos hflag, if_pos henabled, hdecode]
    · rw [hflag, if_neg Bool.false_ne_true]

/-- A written chunk has an index in range that was not seen before. -/
theorem index_of_acceptChunk {codec : Codec} {config : ConfigMessage} {totalChunks index : Nat}
    {seen : List Nat} {raw data : Bytes}
    (haccept : acceptChunk codec config totalChunks seen raw = .ok (some (index, data))) :
    index < totalChunks ∧ index ∉ seen := by
  obtain ⟨_, _, _, hrange, hfresh, _⟩ := acceptChunk_eq_some_iff.mp haccept
  exact ⟨hrange, hfresh⟩

/-- What is dropped repeats an index. -/
theorem mem_of_acceptChunk {codec : Codec} {config : ConfigMessage} {totalChunks : Nat}
    {seen : List Nat} {raw : Bytes}
    (haccept : acceptChunk codec config totalChunks seen raw = .ok none) :
    streamIndex raw ∈ seen := by
  by_contra hfresh
  rw [acceptChunk, if_neg hfresh] at haccept
  split at haccept
  · cases haccept
  · split at haccept
    · cases haccept
    · split at haccept
      · cases haccept
      · split at haccept
        · split at haccept
          · split at haccept <;> cases haccept
          · cases haccept
        · cases haccept

theorem length_chunkStream (index : Nat) (compressed : Bool) (data : Bytes) :
    (chunkStream index compressed data).length = chunkHeaderBytes + data.length := by
  simp [chunkStream, chunkHeaderBytes]
  omega

theorem streamIndex_chunkStream {index : Nat} (hwidth : index < 2 ^ 64) (compressed : Bool)
    (data : Bytes) : streamIndex (chunkStream index compressed data) = index := by
  rw [streamIndex, chunkStream, List.append_assoc,
    List.take_left' (length_toLittleEndian 8 index)]
  exact fromLittleEndian_toLittleEndian hwidth

theorem streamCompressed_chunkStream (index : Nat) (compressed : Bool) (data : Bytes) :
    streamCompressed (chunkStream index compressed data) = compressed := by
  have hflags : (chunkStream index compressed data).getD 8 0 =
      if compressed then flagCompressed else 0 := by
    simp [chunkStream, List.getD_eq_getElem?_getD]
  rw [streamCompressed, hflags]
  cases compressed with
  | true => decide
  | false => decide

theorem streamPayload_chunkStream (index : Nat) (compressed : Bool) (data : Bytes) :
    streamPayload (chunkStream index compressed data) = data :=
  List.drop_left' (by simp [chunkHeaderBytes])

/-- A well-formed stream for a fresh index is read back as it was packed. -/
theorem acceptChunk_chunkStream {codec : Codec} {config : ConfigMessage} {totalChunks index : Nat}
    {seen : List Nat} {compressed : Bool} {data decoded : Bytes} (hwidth : index < 2 ^ 64)
    (hlength : chunkHeaderBytes + data.length ≤ maxChunkStreamBytes)
    (hrange : index < totalChunks) (hfresh : index ∉ seen)
    (hpayload : compressed = true ∧ config.compressionEnabled = true ∧
        codec.decodeAll data = .ok decoded ∨ compressed = false ∧ decoded = data) :
    acceptChunk codec config totalChunks seen (chunkStream index compressed data) =
      .ok (some (index, decoded)) := by
  have hindex := streamIndex_chunkStream hwidth compressed data
  have hheader := length_chunkStream index compressed data
  refine acceptChunk_eq_some_iff.mpr ⟨?_, ?_, hindex.symm, hrange, hfresh, ?_⟩
  · rw [hheader]
    exact hlength
  · rw [hheader]
    exact Nat.le_add_right _ _
  · rw [streamCompressed_chunkStream, streamPayload_chunkStream]
    exact hpayload

/-- A well-formed stream for an index that was seen before is dropped. -/
theorem acceptChunk_repeated {codec : Codec} {config : ConfigMessage} {totalChunks index : Nat}
    {seen : List Nat} {compressed : Bool} {data : Bytes} (hwidth : index < 2 ^ 64)
    (hlength : chunkHeaderBytes + data.length ≤ maxChunkStreamBytes)
    (hrange : index < totalChunks) (hseen : index ∈ seen) :
    acceptChunk codec config totalChunks seen (chunkStream index compressed data) = .ok none := by
  have hindex := streamIndex_chunkStream hwidth compressed data
  have hheader := length_chunkStream index compressed data
  rw [acceptChunk, hindex, hheader, if_neg (Nat.not_lt.mpr hlength),
    if_neg (Nat.not_lt.mpr (Nat.le_add_right _ _)), if_neg (Nat.not_le.mpr hrange), if_pos hseen]

/-- The compressor takes every chunk, and the decompressor gives it back. -/
def Codec.Lossless (codec : Codec) : Prop :=
  ∀ data level, ∃ encoded, codec.encodeAll data level = .ok encoded ∧
    codec.decodeAll encoded = .ok data

theorem Codec.Lossless.decode {codec : Codec} (hlossless : codec.Lossless) (data : Bytes)
    (level : Int) (encoded : Bytes) (hencode : codec.encodeAll data level = .ok encoded) :
    codec.decodeAll encoded = .ok data := by
  obtain ⟨other, hother, hdecode⟩ := hlossless data level
  rw [hother] at hencode
  cases hencode
  exact hdecode

theorem Codec.lossless_stored (sha256 : Bytes → Digest) : (Codec.stored sha256).Lossless :=
  fun data _ => ⟨data, rfl, rfl⟩

/-- A compressor that takes every chunk never stops a call. -/
theorem Codec.Lossless.compress {codec : Codec} (hlossless : codec.Lossless)
    (compressor : AdaptiveCompressor) (data : Bytes) :
    ∃ result, compressor.compress codec data = .ok result := by
  obtain ⟨encoded, hencode, _⟩ := hlossless data compressor.level
  rw [AdaptiveCompressor.compress]
  split
  · exact ⟨_, rfl⟩
  · simp only [TransferFile.compress, hencode]
    split
    · exact ⟨_, rfl⟩
    · split <;> exact ⟨_, rfl⟩

theorem Codec.Lossless.prepareChunk {codec : Codec} (hlossless : codec.Lossless)
    (compressor : Option AdaptiveCompressor) (data : Bytes) :
    ∃ prepared, prepareChunk codec compressor data = .ok prepared := by
  cases compressor with
  | none => exact ⟨_, rfl⟩
  | some compressor =>
      obtain ⟨result, hcompress⟩ := hlossless.compress compressor data
      rw [TransferFile.prepareChunk, hcompress]
      exact ⟨_, rfl⟩

/-- What a chunk becomes on the wire still determines the chunk. -/
theorem prepareChunk_spec {codec : Codec}
    (hdecode : ∀ data level encoded, codec.encodeAll data level = .ok encoded →
      codec.decodeAll encoded = .ok data)
    {compressor next : Option AdaptiveCompressor} {data bytes : Bytes} {compressed : Bool}
    (hprepare : prepareChunk codec compressor data = .ok (next, bytes, compressed)) :
    next.isSome = compressor.isSome ∧
      (compressed = false ∧ bytes = data ∨
        compressed = true ∧ compressor.isSome ∧ codec.decodeAll bytes = .ok data) := by
  cases compressor with
  | none =>
      cases hprepare
      exact ⟨rfl, Or.inl ⟨rfl, rfl⟩⟩
  | some compressor =>
      rw [prepareChunk] at hprepare
      cases hcompress : compressor.compress codec data with
      | error error =>
          rw [hcompress] at hprepare
          cases hprepare
      | ok result =>
          rw [hcompress] at hprepare
          cases hprepare
          refine ⟨rfl, ?_⟩
          rw [AdaptiveCompressor.compress] at hcompress
          split at hcompress
          · cases hcompress
            exact Or.inl ⟨rfl, rfl⟩
          · refine Or.inr ?_
            cases hencode : codec.encodeAll data compressor.level with
            | error detail =>
                simp only [TransferFile.compress, hencode] at hcompress
                cases hcompress
            | ok encoded =>
                have hback := hdecode data compressor.level encoded hencode
                simp only [TransferFile.compress, hencode] at hcompress
                split at hcompress
                · cases hcompress
                  exact ⟨rfl, rfl, hback⟩
                · split at hcompress <;> cases hcompress <;> exact ⟨rfl, rfl, hback⟩

/-- Preparing a chunk only fails in the compressor. -/
theorem compression_of_prepareChunk {codec : Codec} {compressor : Option AdaptiveCompressor}
    {data : Bytes} {error : Error} (hprepare : prepareChunk codec compressor data = .error error) :
    ∃ detail, error = .compression detail := by
  cases compressor with
  | none => cases hprepare
  | some compressor =>
      rw [prepareChunk] at hprepare
      cases hcompress : compressor.compress codec data with
      | ok result =>
          rw [hcompress] at hprepare
          cases hprepare
      | error other =>
          rw [hcompress] at hprepare
          cases hprepare
          rw [AdaptiveCompressor.compress] at hcompress
          split at hcompress
          · cases hcompress
          · cases hencode : codec.encodeAll data compressor.level with
            | error detail =>
                simp only [TransferFile.compress, hencode] at hcompress
                cases hcompress
                exact ⟨_, rfl⟩
            | ok encoded =>
                simp only [TransferFile.compress, hencode] at hcompress
                split at hcompress
                · cases hcompress
                · split at hcompress <;> cases hcompress

theorem isProtocol_of_prepareChunk {codec : Codec} {compressor : Option AdaptiveCompressor}
    {data : Bytes} {error : Error} (hprepare : prepareChunk codec compressor data = .error error) :
    error.isProtocol = false := by
  obtain ⟨detail, rfl⟩ := compression_of_prepareChunk hprepare
  rfl

end P2PFileTransfer.Core.TransferFile
