import P2PFileTransfer.Core.FolderReceiver
import P2PFileTransfer.Core.SendPath

/-!
# Progress

`ProgressState` without the bar it draws, and what the calls of both sides report to it.
Byte counts are natural numbers: none exceeds the sum of the sizes, which is checked.
-/

namespace P2PFileTransfer.Core.Progress

open P2PFileTransfer.Foundation.ByteFile
open P2PFileTransfer.Foundation.Process
open P2PFileTransfer.Core
open P2PFileTransfer.Core.Protocol
open P2PFileTransfer.Core.TransferFile
open P2PFileTransfer.Core.TransferFolder

structure ProgressState where
  totalBytes : Nat
  transferredBytes : Nat
  deriving DecidableEq, Repr

namespace ProgressState

def new (totalBytes : Nat) : ProgressState := ⟨totalBytes, 0⟩

def addBytes (progress : ProgressState) (bytes : Nat) : ProgressState :=
  { progress with transferredBytes := progress.transferredBytes + bytes }

def setTotalBytes (progress : ProgressState) (totalBytes : Nat) : ProgressState :=
  if progress.totalBytes = totalBytes then progress
  else { progress with totalBytes := totalBytes }

@[simp]
theorem addBytes_totalBytes (progress : ProgressState) (bytes : Nat) :
    (progress.addBytes bytes).totalBytes = progress.totalBytes := rfl

@[simp]
theorem addBytes_transferredBytes (progress : ProgressState) (bytes : Nat) :
    (progress.addBytes bytes).transferredBytes = progress.transferredBytes + bytes := rfl

@[simp]
theorem setTotalBytes_totalBytes (progress : ProgressState) (totalBytes : Nat) :
    (progress.setTotalBytes totalBytes).totalBytes = totalBytes := by
  unfold setTotalBytes
  split
  · assumption
  · rfl

@[simp]
theorem setTotalBytes_transferredBytes (progress : ProgressState) (totalBytes : Nat) :
    (progress.setTotalBytes totalBytes).transferredBytes = progress.transferredBytes := by
  unfold setTotalBytes
  split <;> rfl

end ProgressState

/-- Where a call of `send_path` starts.  `handle_resume` counts what the state file counts;
a first send starts from nothing, and so does the count of a state without files. -/
def startProgress (memory : FolderTransferState) : ProgressState :=
  (ProgressState.new memory.totalBytes).addBytes memory.transferredBytes

/-- The bytes of a chunk: the last one of a file may be short. -/
def chunkLength (chunkSize fileSize chunk : Nat) : Nat :=
  min (fileSize - chunk * chunkSize) chunkSize

theorem length_chunkAt_eq (bytes : Bytes) (chunkSize chunk : Nat) :
    (chunkAt bytes chunkSize chunk).length = chunkLength chunkSize bytes.length chunk := by
  rw [length_chunkAt, chunkLength, Nat.min_comm]

theorem sum_chunkLength_range (chunkSize fileSize count : Nat) :
    ((List.range count).map (chunkLength chunkSize fileSize)).sum =
      min (count * chunkSize) fileSize := by
  induction count with
  | zero => simp
  | succ count ih =>
      rw [List.range_succ, List.map_append, List.sum_append, ih, Nat.succ_mul, List.map_singleton,
        List.sum_singleton, chunkLength]
      omega

/-- The chunks of a file make up the file. -/
theorem sum_chunkLength_chunksOf {chunkSize : Nat} (hpos : 0 < chunkSize) (fileSize : Nat) :
    ((List.range (chunksOf fileSize chunkSize)).map (chunkLength chunkSize fileSize)).sum =
      fileSize := by
  rw [sum_chunkLength_range]
  exact Nat.min_eq_right (le_chunksOf_mul fileSize hpos)

/-- What a sender reports: the sum of the sizes before it announces them, and every chunk
once it is acknowledged. -/
def reportSent (session : FolderSender.Session) (point : FolderSender.Point)
    (input : FolderSender.SenderInput) (progress : ProgressState) : ProgressState :=
  match point.stage, input with
  | .begin, .proceed =>
      if point.memory.files = [] then progress
      else progress.setTotalBytes point.memory.totalBytes
  | .scan, .answer scan =>
      match FolderSender.readScan scan with
      | .error _ => progress
      | .ok found =>
          progress.setTotalBytes
            (FolderTransferState.new session.transferId found.1 found.2 session.config).totalBytes
  | .awaitStopped task, .proceed =>
      progress.addBytes (chunkLength session.config.chunkSize.toNat task.fileSize task.next)
  | _, _ => progress

/-- The bytes of the chunk a receiver has just written. -/
def writtenBytes (point : FolderReceiver.Point) (input : FolderReceiver.ReceiverInput) : Nat :=
  match point, input with
  | .file _ _ _ (.writeChunk _ _ _ data), .proceed => data.length
  | _, _ => 0

/-- What a receiver reports: what its plan counts as there, and every chunk it has written. -/
def reportReceived (session : FolderReceiver.Session) (point : FolderReceiver.Point)
    (input : FolderReceiver.ReceiverInput) (progress : ProgressState) : ProgressState :=
  match point, input with
  | .decide info, .answer true =>
      match FolderReceiver.makePlan session.config.chunkSize info with
      | .error _ => progress
      | .ok plan => (progress.setTotalBytes plan.totalBytes).addBytes plan.alreadyTransferred
  | _, _ => progress.addBytes (writtenBytes point input)

end P2PFileTransfer.Core.Progress
