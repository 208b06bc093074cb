import P2PFileTransfer.Core.FolderSender

/-!
# Sending with retries and a state file

`P2PSession::send_path` around the calls that send the folder: what is loaded at the
beginning, which errors lead to another attempt, and what is saved.  The wait between
two attempts only takes time.
-/

namespace P2PFileTransfer.Core.SendPath

open P2PFileTransfer.Foundation.FileSystem
open P2PFileTransfer.Foundation.Process
open P2PFileTransfer.Foundation.UnixPath
open P2PFileTransfer.Core.Protocol
open P2PFileTransfer.Core.TransferFile
open P2PFileTransfer.Core.TransferFolder

/-- The state file.  Writing replaces the file first, so a write that breaks off leaves
one that cannot be read. -/
inductive SavedState where
  | absent
  | unreadable
  | stored (memory : FolderTransferState)

inductive SaveOutcome where
  | saved
  | unchanged
  | brokenOff
  deriving DecidableEq, Repr

def save (outcome : SaveOutcome) (memory : FolderTransferState) (before : SavedState) : SavedState :=
  match outcome with
  | .saved => .stored memory
  | .unchanged => before
  | .brokenOff => .unreadable

def freshState (transferId : Uuid) (config : ConfigMessage) : FolderTransferState :=
  .new transferId [] [] config

/-- A state file that is missing or cannot be read counts for nothing. -/
def loadState (saved : SavedState) (transferId : Uuid) (config : ConfigMessage) :
    FolderTransferState :=
  match saved with
  | .stored memory => memory
  | .absent | .unreadable => freshState transferId config

def chooseTransferId (memory : FolderTransferState) (newId : Uuid) : Uuid :=
  if memory.files = [] then newId else memory.transferId

/-- What all attempts of one call share. -/
structure Call where
  transferId : Uuid
  durationMs : Nat

/-- The beginning of a call on a session with the given configuration. -/
def openCall (pathExists : Bool) (path : OsStr) (saved : SavedState) (freshId newId : Uuid)
    (durationMs : Nat) (config : ConfigMessage) : Except Error (Call × FolderTransferState) :=
  if pathExists then
    let memory := loadState saved freshId config
    .ok ({ transferId := chooseTransferId memory newId, durationMs := durationMs }, memory)
  else .error (.protocol [.text "Path does not exist: ", .path path])

/-- Zero attempts means no bound. -/
def shouldRetry (maxAttempts attempt : Nat) : Bool :=
  decide (maxAttempts = 0 ∨ attempt + 1 < maxAttempts)

inductive Phase where
  | idle
  | sending (call : Call) (attempt : Nat) (status : FolderSender.PointStatus)
  | retrying (call : Call) (attempt : Nat) (memory : FolderTransferState)
  | returned (memory : FolderTransferState)
  | failed (memory : FolderTransferState) (error : Error)

/-- The start of an attempt. -/
def startAttempt (call : Call) (attempt : Nat) (memory : FolderTransferState) : Phase :=
  .sending call attempt (.running ⟨memory, .begin⟩)

/-- What follows an attempt that failed; the state is saved in every case. -/
def afterFailure (maxAttempts : Nat) (call : Call) (attempt : Nat) (point : FolderSender.Point)
    (error : Error) : Phase :=
  let returned := FolderSender.returnedError point error
  if returned.isRecoverable then
    if shouldRetry maxAttempts attempt then .retrying call attempt point.memory
    else
      .failed point.memory
        (.protocol [.text "Transfer failed after ", .nat (attempt + 1), .text " attempts"])
  else .failed point.memory returned

/-- What stays the same in one call of `send_path`. -/
structure Settings where
  codec : Codec
  config : ConfigMessage
  basePath : OsStr
  maxAttempts : Nat

def Settings.session (settings : Settings) (call : Call) : FolderSender.Session where
  codec := settings.codec
  config := settings.config
  basePath := settings.basePath
  transferId := call.transferId
  durationMs := call.durationMs

/-- What a call meets: an input to the attempt at hand, the way out of it, the next one. -/
inductive PathInput where
  | attempt (input : FolderSender.SenderInput)
  | leave
  | again

/-- One step of a call by itself, over the files of the sender. -/
def pathStep (settings : Settings) (state : Phase × Store) (input : PathInput) :
    Option (Phase × Store) :=
  match state.1, input with
  | .sending call attempt status, .attempt input =>
      ((FolderSender.machine (settings.session call)).step ⟨status, state.2⟩ input).map
        fun next => (.sending call attempt next.status, next.store)
  | .sending call attempt (.failed point error), .leave =>
      some (afterFailure settings.maxAttempts call attempt point error, state.2)
  | .sending _ _ (.returned memory), .leave => some (.returned memory, state.2)
  | .retrying call attempt memory, .again => some (startAttempt call (attempt + 1) memory, state.2)
  | _, _ => none

/-- The transfer state a phase works with. -/
def Phase.memory? : Phase → Option FolderTransferState
  | .idle => none
  | .sending _ _ (.running point) | .sending _ _ (.failed point _)
  | .sending _ _ (.panicked point _) => some point.memory
  | .sending _ _ (.returned memory) | .retrying _ _ memory | .returned memory
  | .failed memory _ => some memory

theorem memory?_afterFailure (maxAttempts : Nat) (call : Call) (attempt : Nat)
    (point : FolderSender.Point) (error : Error) :
    (afterFailure maxAttempts call attempt point error).memory? = some point.memory := by
  unfold afterFailure
  dsimp only
  split
  · split <;> rfl
  · rfl

/-- What one step of a call finds, and what it leaves. -/
inductive PathStepped (settings : Settings) : Phase × Store → PathInput → Phase × Store → Prop where
  | attempt {call : Call} {attempt : Nat} {status : FolderSender.PointStatus} {store : Store}
      {input : FolderSender.SenderInput} {next : FolderSender.SenderState}
      (hnext : (FolderSender.machine (settings.session call)).step ⟨status, store⟩ input =
        some next) :
      PathStepped settings (.sending call attempt status, store) (.attempt input)
        (.sending call attempt next.status, next.store)
  | failed {call : Call} {attempt : Nat} {point : FolderSender.Point} {error : Error}
      {store : Store} :
      PathStepped settings (.sending call attempt (.failed point error), store) .leave
        (afterFailure settings.maxAttempts call attempt point error, store)
  | returned {call : Call} {attempt : Nat} {memory : FolderTransferState} {store : Store} :
      PathStepped settings (.sending call attempt (.returned memory), store) .leave
        (.returned memory, store)
  | again {call : Call} {attempt : Nat} {memory : FolderTransferState} {store : Store} :
      PathStepped settings (.retrying call attempt memory, store) .again
        (startAttempt call (attempt + 1) memory, store)

theorem pathStepped_of_step {settings : Settings} {state next : Phase × Store} {input : PathInput}
    (hstep : pathStep settings state input = some next) : PathStepped settings state input next := by
  obtain ⟨phase, store⟩ := state
  cases phase with
  | idle | returned _ | failed _ _ => cases input <;> cases hstep
  | retrying call attempt memory =>
      cases input with
      | attempt _ | leave => cases hstep
      | again =>
          cases hstep
          exact .again
  | sending call attempt status =>
      cases input with
      | again => cases status <;> cases hstep
      | attempt input =>
          have hmachine : ((FolderSender.machine (settings.session call)).step ⟨status, store⟩
              input).map (fun after => (Phase.sending call attempt after.status, after.store)) =
                some next := by
            cases status <;> exact hstep
          obtain ⟨after, hafter, rfl⟩ := Option.map_eq_some_iff.mp hmachine
          exact .attempt hafter
      | leave =>
          cases status with
          | running _ | panicked _ _ => cases hstep
          | returned memory =>
              cases hstep
              exact .returned
          | failed point error =>
              cases hstep
              exact .failed

end P2PFileTransfer.Core.SendPath
