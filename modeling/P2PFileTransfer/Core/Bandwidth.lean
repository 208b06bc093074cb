import Mathlib.Data.Rat.Defs
import Mathlib.Algebra.Order.Ring.Rat
import P2PFileTransfer.Foundation.Buckets
import P2PFileTransfer.Foundation.Run
import P2PFileTransfer.Core.FolderSender

/-!
# The bandwidth limit of a folder

`send_single_file` makes a `FileTransferSession` for every file, and that makes its own
limiter.  Below, a call of `send` is only what its limiters see of it: the payloads of
the chunks, file by file, and the clock.  Everything else that a call waits for is time
that passes.  Tokens are rational numbers of bytes, and times are rational numbers of
seconds since the start of the call.
-/

namespace P2PFileTransfer.Core.Bandwidth

open P2PFileTransfer.Foundation.Buckets
open P2PFileTransfer.Foundation.ByteFile
open P2PFileTransfer.Foundation.FileSystem
open P2PFileTransfer.Foundation.FixedWidth
open P2PFileTransfer.Foundation.UnixPath
open P2PFileTransfer.Core.Protocol
open P2PFileTransfer.Core.TransferFile
open P2PFileTransfer.Core.TransferFolder
open P2PFileTransfer.Core.FolderSender (Session sourcePath)

/-! ## The limiter -/

structure BandwidthLimiter where
  maxBytesPerSec : Nat
  bucket : TokenBucket ℚ
  deriving DecidableEq

/-- A burst of two seconds is allowed. -/
def BandwidthLimiter.new (maxBytesPerSec : Nat) (now : ℚ) : Checked BandwidthLimiter := do
  let capacity ← if 0 < maxBytesPerSec then mul 64 maxBytesPerSec 2 else .ok 0
  return ⟨maxBytesPerSec, .full capacity maxBytesPerSec now⟩

/-- The limiter of a build whose multiplication wraps. -/
def BandwidthLimiter.wrapping (maxBytesPerSec : Nat) (now : ℚ) : BandwidthLimiter :=
  ⟨maxBytesPerSec, .full (truncate 64 (maxBytesPerSec * 2) : ℕ) maxBytesPerSec now⟩

def BandwidthLimiter.isEnabled (limiter : BandwidthLimiter) : Bool :=
  decide (0 < limiter.maxBytesPerSec)

/-- One pass of the loop of `wait_for_tokens`: the tokens are taken, or the time to sleep. -/
def BandwidthLimiter.pass (limiter : BandwidthLimiter) (bytes : Nat) (now : ℚ) :
    BandwidthLimiter × Option ℚ :=
  if limiter.isEnabled then
    let filled := limiter.bucket.refill now
    match filled.take bytes with
    | some bucket => ({ limiter with bucket := bucket }, none)
    | none => ({ limiter with bucket := filled }, some ((bytes - filled.tokens) / filled.refillRate))
  else (limiter, none)

/-- `FileTransferSession::new`. -/
def fileLimiter (config : ConfigMessage) (now : ℚ) : Checked (Option BandwidthLimiter) :=
  if 0 < config.bandwidthLimit.toNat then
    some <$> BandwidthLimiter.new config.bandwidthLimit.toNat now
  else .ok none

/-! ## The payloads -/

/-- The payload sizes of the chunks of a file, and whether all of them can be prepared. -/
def payloadSizes (codec : Codec) : Option AdaptiveCompressor → List Bytes → List Nat × Bool
  | _, [] => ([], true)
  | compressor, data :: rest =>
      match prepareChunk codec compressor data with
      | .error _ => ([], false)
      | .ok (next, bytes, _) =>
          let (sizes, complete) := payloadSizes codec next rest
          (bytes.length :: sizes, complete)

/-- One call of `send_file`; what is recorded already is skipped. -/
def fileSizes (session : Session) (bytes : Bytes) (completed : List Nat) : List Nat × Bool :=
  match chunkCount bytes.length session.config.chunkSize with
  | .error _ => ([], false)
  | .ok total =>
      payloadSizes session.codec (startCompressor session.config)
        (((List.range total).filter fun index => decide (index ∉ completed)).map
          (chunkAt bytes session.config.chunkSize.toNat))

/-- The files that the loop of `send` comes to; it ends at the first that fails. -/
def filesFrom (session : Session) (source : Store) (memory : FolderTransferState) :
    List Nat → List (List Nat)
  | [] => []
  | index :: rest =>
      if index ∈ memory.completedFiles then filesFrom session source memory rest
      else
        match (memory.files[index]?).bind fun file =>
            source (components (sourcePath session.basePath file)) with
        | none => []
        | some bytes =>
            let (sizes, complete) := fileSizes session bytes (memory.getCompletedChunks index)
            sizes :: if complete then filesFrom session source memory rest else []

def folderPayloads (session : Session) (source : Store) (memory : FolderTransferState) :
    List (List Nat) :=
  filesFrom session source memory (List.range memory.files.length)

/-! ## A call on the clock -/

/-- `granted`: the limiter has let the next payload through. -/
structure FileSession where
  limiter : Option BandwidthLimiter
  wakeAt : ℚ
  granted : Bool
  chunks : List Nat

structure State where
  clock : ℚ
  current : Option FileSession
  files : List (List Nat)
  handed : Nat

def start (files : List (List Nat)) : State where
  clock := 0
  current := none
  files := files
  handed := 0

inductive Event where
  | elapse (duration : ℚ)
  | openFile
  | pass
  | hand
  | closeFile

def FileSession.pass (file : FileSession) (bytes : Nat) (now : ℚ) : FileSession :=
  match file.limiter with
  | none => { file with granted := true }
  | some limiter =>
      match limiter.pass bytes now with
      | (next, none) => { file with limiter := some next, granted := true }
      | (next, some duration) => { file with limiter := some next, wakeAt := now + duration }

/-- A call may stop at any point; a limiter that cannot be made ends it. -/
def State.advance (config : ConfigMessage) (state : State) : Option FileSession → Event → Option State
  | _, .elapse duration =>
      if 0 ≤ duration then some { state with clock := state.clock + duration } else none
  | none, .openFile =>
      match state.files with
      | [] => none
      | file :: rest =>
          match fileLimiter config state.clock with
          | .error _ => some { state with files := [] }
          | .ok limiter =>
              some { state with current := some ⟨limiter, state.clock, false, file⟩, files := rest }
  | some file, .pass =>
      match file.granted, file.chunks with
      | false, bytes :: _ =>
          if file.wakeAt ≤ state.clock then
            some { state with current := some (file.pass bytes state.clock) }
          else none
      | _, _ => none
  | some file, .hand =>
      match file.granted, file.chunks with
      | true, bytes :: rest =>
          some { state with
            current := some { file with granted := false, chunks := rest }
            handed := state.handed + bytes }
      | _, _ => none
  | some file, .closeFile =>
      match file.chunks with
      | [] => some { state with current := none }
      | _ :: _ => none
  | _, _ => none

def step (config : ConfigMessage) (state : State) (event : Event) : Option State :=
  state.advance config state.current event

abbrev run (config : ConfigMessage) : State → List Event → Option State :=
  Foundation.Run.run (step config)

end P2PFileTransfer.Core.Bandwidth
