import P2PFileTransfer.Core.TransferFile

/-!
# The transfer state with chunk bitmaps

The state `state.rs` keeps of a transfer: a bitmap and a status for each file, and the bytes
of the chunks it was told of.  The peer's address, the time stamp and the local paths are
not used by any of its functions.
-/

namespace P2PFileTransfer.Core.ChunkBitmap

open P2PFileTransfer.Foundation.FixedWidth
open P2PFileTransfer.Core.Protocol
open P2PFileTransfer.Core.TransferFile

inductive FileStatus where
  | pending
  | inProgress
  | complete
  | verified
  | failed
  deriving DecidableEq, Repr

structure FileState where
  fileIndex : Nat
  metadata : FileMetadata
  totalChunks : Nat
  completedChunks : List Bool
  status : FileStatus
  deriving DecidableEq, Repr

structure TransferState where
  transferId : Uuid
  files : List FileState
  totalBytes : Nat
  transferredBytes : Nat

/-- The state of file `index` at the beginning; only the low bits of the index are kept. -/
def FileState.new (chunkSize : UInt32) (index : Nat) (metadata : FileMetadata) :
    Checked FileState := do
  let totalChunks ← chunkCount metadata.size chunkSize
  return {
    fileIndex := truncate 32 index
    metadata := metadata
    totalChunks := totalChunks
    completedChunks := List.replicate totalChunks false
    status := .pending }

/-- The files from `index` on. -/
def newFiles (chunkSize : UInt32) (index : Nat) : List FileMetadata → Checked (List FileState)
  | [] => .ok []
  | metadata :: rest => do
      let file ← FileState.new chunkSize index metadata
      let files ← newFiles chunkSize (index + 1) rest
      return file :: files

def TransferState.new (transferId : Uuid) (files : List FileMetadata) (chunkSize : UInt32) :
    Checked TransferState := do
  let totalBytes ← sum 64 0 (files.map FileMetadata.size)
  let fileStates ← newFiles chunkSize 0 files
  return {
    transferId := transferId
    files := fileStates
    totalBytes := totalBytes
    transferredBytes := 0 }

/-- The status is judged by the bitmap and by what it was before. -/
def nextStatus (completedChunks : List Bool) (status : FileStatus) : FileStatus :=
  if completedChunks.all id ∧ status = .inProgress then .complete
  else if status = .pending then .inProgress
  else status

def FileState.mark (file : FileState) (chunkIndex : Nat) : FileState :=
  let completedChunks := file.completedChunks.set chunkIndex true
  { file with
    completedChunks := completedChunks
    status := nextStatus completedChunks file.status }

/-- A file or a chunk that does not exist is ignored. -/
def TransferState.markChunkComplete (state : TransferState) (fileIndex : UInt32)
    (chunkIndex : UInt64) (chunkSize : Nat) : Checked TransferState :=
  match state.files[fileIndex.toNat]? with
  | none => .ok state
  | some file =>
      if chunkIndex.toNat < file.totalChunks then do
        let transferredBytes ← add 64 state.transferredBytes chunkSize
        return { state with
          files := state.files.set fileIndex.toNat (file.mark chunkIndex.toNat)
          transferredBytes := transferredBytes }
      else .ok state

/-- The first chunk of a file whose bit is not set. -/
def FileState.nextChunk (file : FileState) : Option (Nat × Nat) :=
  if file.status = .pending ∨ file.status = .inProgress then
    (file.completedChunks.findIdx? fun bit => !bit).map fun chunk => (file.fileIndex, chunk)
  else none

def TransferState.nextChunk (state : TransferState) : Option (Nat × Nat) :=
  state.files.findSome? FileState.nextChunk

end P2PFileTransfer.Core.ChunkBitmap
