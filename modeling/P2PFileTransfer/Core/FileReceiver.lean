import P2PFileTransfer.Core.TransferFolder
import P2PFileTransfer.Foundation.Process

/-!
# Receiving one file

`receive_single_file` together with `receive_file` and the chunk writer it owns.
The process waits at every file operation, at the arrival of every chunk stream
and at the two checksum messages; syncing is part of the operation before it.
-/

namespace P2PFileTransfer.Core.FileReceiver

open P2PFileTransfer.Foundation.ByteFile
open P2PFileTransfer.Foundation.FileSystem
open P2PFileTransfer.Foundation.FixedWidth
open P2PFileTransfer.Foundation.Process
open P2PFileTransfer.Foundation.UnixPath
open P2PFileTransfer.Core.Protocol
open P2PFileTransfer.Core.TransferFile

/-- What every call of one folder transfer shares. -/
structure Session where
  codec : Codec
  config : ConfigMessage
  transferId : Uuid

/-- The arguments of one call. -/
structure Task where
  path : OsStr
  fileIndex : Nat
  totalChunks : Nat
  streamsToReceive : Nat
  deriving DecidableEq, Repr

inductive Stage where
  | begin
  | createParent (expectedFileSize : Nat)
  | openPartial (expectedFileSize : Nat)
  | setLen (expectedFileSize : Nat)
  | acceptUni (seen : List Nat)
  | writeChunk (seen : List Nat) (index offset : Nat) (data : Bytes)
  | rename
  | reread
  | sendChecksum (checksum : Digest)
  | recvChecksum (checksum : Digest)
  deriving DecidableEq, Repr

/-- The bytes of `.partial`. -/
def partialSuffix : OsStr := [46, 112, 97, 114, 116, 105, 97, 108]

def partialPath (path : OsStr) : OsStr := path ++ partialSuffix

def Task.finalLocation (task : Task) : Location := components task.path

def Task.partialLocation (task : Task) : Location := components (partialPath task.path)

/-- The head of the stream loop. -/
def continueLoop (task : Task) (seen : List Nat) : Status Stage Unit Error :=
  if seen.length < task.streamsToReceive then .running (.acceptUni seen) else .running .rename

def action (session : Session) (task : Task) : Stage → Action Message
  | .begin => .compute
  | .createParent _ => .perform (.createDirAll ((parent task.path).getD []))
  | .openPartial _ => .perform (.openCreate task.partialLocation)
  | .setLen expectedFileSize => .perform (.shrink task.partialLocation expectedFileSize)
  | .acceptUni _ => .acceptStream
  | .writeChunk _ _ offset data => .perform (.write task.partialLocation offset data)
  | .rename => .perform (.rename task.partialLocation task.finalLocation)
  | .reread => .perform (.readAll task.finalLocation)
  | .sendChecksum checksum =>
      .send (.fileChecksum
        { transferId := session.transferId, fileIndex := task.fileIndex, checksum := checksum })
  | .recvChecksum _ => .receive

def openWriter (session : Session) (task : Task) : Status Stage Unit Error :=
  if task.totalChunks < task.streamsToReceive then
    .failed .begin (.protocol [.text "streams_to_receive ", .nat task.streamsToReceive,
      .text " > total_chunks ", .nat task.totalChunks])
  else
    .ofChecked .begin (mul 64 task.totalChunks session.config.chunkSize.toNat)
      fun expectedFileSize =>
        match parent task.path with
        | some _ => .running (.createParent expectedFileSize)
        | none => .running (.openPartial expectedFileSize)

def handleStream (session : Session) (task : Task) (seen : List Nat) (raw : Bytes) :
    Status Stage Unit Error :=
  .ofExcept (.acceptUni seen)
    (acceptChunk session.codec session.config task.totalChunks seen raw) fun chunk =>
      match chunk with
      | none => .running (.acceptUni seen)
      | some (index, data) =>
          .ofChecked (.acceptUni seen) (mul 64 index session.config.chunkSize.toNat) fun offset =>
            .running (.writeChunk (index :: seen) index offset data)

def compareChecksum (task : Task) (checksum : Digest) (message : Message) :
    Status Stage Unit Error :=
  match message with
  | .fileChecksum peer =>
      if peer.fileIndex ≠ task.fileIndex then
        .failed (.recvChecksum checksum) (.protocol [.text "File index mismatch: expected ",
          .nat task.fileIndex, .text ", got ", .nat peer.fileIndex])
      else if peer.checksum ≠ checksum then
        .failed (.recvChecksum checksum) (.verification [.text "File ", .nat task.fileIndex,
          .text " checksum mismatch: sender=", .bytes (peer.checksum.val.take 8),
          .text ", receiver=", .bytes (checksum.val.take 8)])
      else .returned ()
  | other =>
      .failed (.recvChecksum checksum)
        (.protocol [.text "Expected FileChecksum, got ", .message other])

/-- The last branch is never taken: a wait is answered in kind. -/
def resume (session : Session) (task : Task) :
    Stage → Reply Message Bool → Status Stage Unit Error
  | .begin, .done => openWriter session task
  | .createParent expectedFileSize, .value _ => .running (.openPartial expectedFileSize)
  | .openPartial expectedFileSize, .value _ => .running (.setLen expectedFileSize)
  | .setLen _, .value _ => continueLoop task []
  | .acceptUni seen, .stream raw => handleStream session task seen raw
  | .writeChunk seen _ _ _, .value _ => continueLoop task seen
  | .rename, .value _ => .running .reread
  | .reread, .value (.bytes contents) => .running (.sendChecksum (session.codec.sha256 contents))
  | .sendChecksum checksum, .done => .running (.recvChecksum checksum)
  | .recvChecksum checksum, .message message => compareChecksum task checksum message
  | stage, _ => .running stage

def machine (session : Session) (task : Task) : Machine Stage Unit Message Bool Error where
  action := action session task
  resume := resume session task

variable {session : Session} {task : Task}

/-- A property of stages and what follows them is checked stage by stage. -/
theorem resume_elim {motive : Stage → Status Stage Unit Error → Prop}
    (hbegin : motive .begin (openWriter session task))
    (hparent : ∀ expected, motive (.createParent expected) (.running (.openPartial expected)))
    (hopen : ∀ expected, motive (.openPartial expected) (.running (.setLen expected)))
    (hsetLen : ∀ expected, motive (.setLen expected) (continueLoop task []))
    (haccept : ∀ seen raw, motive (.acceptUni seen) (handleStream session task seen raw))
    (hwrite : ∀ seen index offset data,
      motive (.writeChunk seen index offset data) (continueLoop task seen))
    (hrename : motive .rename (.running .reread))
    (hreread : ∀ contents,
      motive .reread (.running (.sendChecksum (session.codec.sha256 contents))))
    (hnoBytes : motive .reread (.running .reread))
    (hsend : ∀ checksum, motive (.sendChecksum checksum) (.running (.recvChecksum checksum)))
    (hrecv : ∀ checksum message,
      motive (.recvChecksum checksum) (compareChecksum task checksum message))
    (stage : Stage) (reply : Reply Message Bool) (hfits : (action session task stage).Fits reply) :
    motive stage (resume session task stage reply) := by
  cases stage <;> cases reply <;> try exact hfits.elim
  case begin.done => exact hbegin
  case createParent.value expected value => exact hparent expected
  case openPartial.value expected value => exact hopen expected
  case setLen.value expected value => exact hsetLen expected
  case acceptUni.stream seen raw => exact haccept seen raw
  case writeChunk.value seen index offset data value => exact hwrite seen index offset data
  case rename.value value => exact hrename
  case reread.value value =>
      cases value with
      | bytes contents => exact hreread contents
      | unit | size _ => exact hnoBytes
  case sendChecksum.done checksum => exact hsend checksum
  case recvChecksum.message checksum message => exact hrecv checksum message

/-! ## What a stage knows -/

/-- The distinct indices accepted so far are in range and not too many, and every
offset is that of its index. -/
def Stage.Sound (session : Session) (task : Task) : Stage → Prop
  | .createParent expectedFileSize | .openPartial expectedFileSize
  | .setLen expectedFileSize =>
      task.streamsToReceive ≤ task.totalChunks ∧
        expectedFileSize = task.totalChunks * session.config.chunkSize.toNat
  | .acceptUni seen =>
      seen.Nodup ∧ (∀ index ∈ seen, index < task.totalChunks) ∧
        seen.length < task.streamsToReceive
  | .writeChunk seen index offset _ =>
      seen.Nodup ∧ (∀ other ∈ seen, other < task.totalChunks) ∧
        seen.length ≤ task.streamsToReceive ∧ index ∈ seen ∧
        offset = index * session.config.chunkSize.toNat
  | .begin | .rename | .reread | .sendChecksum _ | .recvChecksum _ => True

def SoundStatus (session : Session) (task : Task) (status : Status Stage Unit Error) : Prop :=
  ∀ stage, status.point? = some stage → stage.Sound session task

theorem soundStatus_continueLoop {seen : List Nat} (hnodup : seen.Nodup)
    (hrange : ∀ index ∈ seen, index < task.totalChunks) :
    SoundStatus session task (continueLoop task seen) := by
  intro stage hstage
  rw [continueLoop] at hstage
  split at hstage
  · rename_i hshort
    cases hstage
    exact ⟨hnodup, hrange, hshort⟩
  · cases hstage
    trivial

theorem soundStatus_openWriter : SoundStatus session task (openWriter session task) := by
  intro stage hstage
  rw [openWriter] at hstage
  split at hstage
  · cases hstage
    trivial
  · rename_i hstreams
    cases hmul : mul 64 task.totalChunks session.config.chunkSize.toNat with
    | error fault =>
        rw [hmul] at hstage
        cases hstage
        trivial
    | ok expected =>
        have hexpected := (mul_eq_ok_iff.mp hmul).2
        rw [hmul] at hstage
        cases hparent : parent task.path with
        | none =>
            simp only [Status.ofChecked, hparent] at hstage
            cases hstage
            exact ⟨Nat.le_of_not_lt hstreams, hexpected⟩
        | some directory =>
            simp only [Status.ofChecked, hparent] at hstage
            cases hstage
            exact ⟨Nat.le_of_not_lt hstreams, hexpected⟩

/-- What a stream leads to: an error, a repetition, or the write of a fresh chunk
at its own offset. -/
theorem handleStream_cases (session : Session) (task : Task) (seen : List Nat) (raw : Bytes) :
    (∃ error, acceptChunk session.codec session.config task.totalChunks seen raw = .error error ∧
      handleStream session task seen raw = .failed (.acceptUni seen) error) ∨
    (acceptChunk session.codec session.config task.totalChunks seen raw = .ok none ∧
      handleStream session task seen raw = .running (.acceptUni seen)) ∨
    (∃ index data,
      acceptChunk session.codec session.config task.totalChunks seen raw = .ok (some (index, data)) ∧
      ((∃ fault, handleStream session task seen raw = .panicked (.acceptUni seen) fault ∧
          mul 64 index session.config.chunkSize.toNat = .error fault) ∨
        handleStream session task seen raw = .running (.writeChunk (index :: seen) index
          (index * session.config.chunkSize.toNat) data))) := by
  rw [handleStream]
  cases haccept : acceptChunk session.codec session.config task.totalChunks seen raw with
  | error error => exact Or.inl ⟨error, rfl, rfl⟩
  | ok chunk =>
      cases chunk with
      | none => exact Or.inr (Or.inl ⟨rfl, rfl⟩)
      | some chunk =>
          obtain ⟨index, data⟩ := chunk
          refine Or.inr (Or.inr ⟨index, data, rfl, ?_⟩)
          cases hmul : mul 64 index session.config.chunkSize.toNat with
          | error fault => exact Or.inl ⟨fault, by simp only [Status.ofExcept, Status.ofChecked, hmul], rfl⟩
          | ok offset =>
              have hoffset := (mul_eq_ok_iff.mp hmul).2
              refine Or.inr ?_
              simp only [Status.ofExcept, Status.ofChecked, hmul, hoffset]

theorem soundStatus_handleStream {seen : List Nat}
    (hseen : Stage.Sound session task (.acceptUni seen)) (raw : Bytes) :
    SoundStatus session task (handleStream session task seen raw) := by
  obtain ⟨hnodup, hrange, hshort⟩ := hseen
  intro stage hstage
  rcases handleStream_cases session task seen raw with
    ⟨error, _, hresult⟩ | ⟨_, hresult⟩ | ⟨index, data, haccept, hresult⟩
  · rw [hresult] at hstage
    cases hstage
    exact ⟨hnodup, hrange, hshort⟩
  · rw [hresult] at hstage
    cases hstage
    exact ⟨hnodup, hrange, hshort⟩
  · obtain ⟨hindex, hfresh⟩ := index_of_acceptChunk haccept
    rcases hresult with ⟨fault, hresult, _⟩ | hresult
    · rw [hresult] at hstage
      cases hstage
      exact ⟨hnodup, hrange, hshort⟩
    · rw [hresult] at hstage
      cases hstage
      refine ⟨List.nodup_cons.mpr ⟨hfresh, hnodup⟩, ?_, hshort, List.mem_cons_self, rfl⟩
      intro other hother
      rcases List.mem_cons.mp hother with rfl | hold
      · exact hindex
      · exact hrange other hold

theorem compareChecksum_point {checksum : Digest} {message : Message} {stage : Stage}
    (hstage : (compareChecksum task checksum message).point? = some stage) :
    stage = .recvChecksum checksum := by
  unfold compareChecksum at hstage
  split at hstage
  · split at hstage
    · exact (Option.some.inj hstage).symm
    · split at hstage
      · exact (Option.some.inj hstage).symm
      · cases hstage
  · exact (Option.some.inj hstage).symm

/-- Every stage a call reaches is sound, whatever the peer sends. -/
theorem soundStatus_inductive : Inductive (machine session task) (SoundStatus session task) := by
  constructor
  · intro stage reply hfits hsound
    have hstage : stage.Sound session task := hsound stage rfl
    refine resume_elim (motive := fun stage status =>
      stage.Sound session task → SoundStatus session task status)
      ?begin ?parent ?opened ?setLen ?accept ?write ?rename ?reread ?noBytes ?send ?recv
      stage reply hfits hstage
    case begin => exact fun _ => soundStatus_openWriter
    case parent =>
        intro expected hexpected next hnext
        cases hnext
        exact hexpected
    case opened =>
        intro expected hexpected next hnext
        cases hnext
        exact hexpected
    case setLen =>
        intro expected _
        exact soundStatus_continueLoop List.nodup_nil (by simp)
    case accept => exact fun seen raw hseen => soundStatus_handleStream hseen raw
    case write =>
        intro seen index offset data hseen
        exact soundStatus_continueLoop hseen.1 hseen.2.1
    case rename | noBytes =>
        intro _ next hnext
        cases hnext
        trivial
    case reread | send =>
        intro _ _ next hnext
        cases hnext
        trivial
    case recv =>
        intro checksum message _ next hnext
        rw [compareChecksum_point hnext]
        trivial
  · intro stage error hsound other hother
    cases hother
    exact hsound stage rfl

/-! ## The end of a call -/

theorem continueLoop_cases (task : Task) (seen : List Nat) :
    (seen.length < task.streamsToReceive ∧ continueLoop task seen = .running (.acceptUni seen)) ∨
      (task.streamsToReceive ≤ seen.length ∧ continueLoop task seen = .running .rename) := by
  rw [continueLoop]
  split
  · rename_i hshort
    exact Or.inl ⟨hshort, rfl⟩
  · rename_i hdone
    exact Or.inr ⟨Nat.le_of_not_lt hdone, rfl⟩

/-- Opening the writer either stops at once or goes on to the partial file. -/
theorem openWriter_cases (session : Session) (task : Task) :
    (∃ error, openWriter session task = .failed .begin error ∧
        task.totalChunks < task.streamsToReceive) ∨
      (∃ fault, openWriter session task = .panicked .begin fault) ∨
      (∃ expected, openWriter session task = .running (.createParent expected)) ∨
      ∃ expected, openWriter session task = .running (.openPartial expected) := by
  rw [openWriter]
  split
  · rename_i hmany
    exact Or.inl ⟨_, rfl, hmany⟩
  · cases hmul : mul 64 task.totalChunks session.config.chunkSize.toNat with
    | error fault => exact Or.inr (Or.inl ⟨fault, rfl⟩)
    | ok expected =>
        cases hparent : parent task.path with
        | none => exact Or.inr (Or.inr (Or.inr ⟨expected, rfl⟩))
        | some directory => exact Or.inr (Or.inr (Or.inl ⟨expected, rfl⟩))

/-- The comparison ends the call. -/
theorem compareChecksum_cases (task : Task) (checksum : Digest) (message : Message) :
    (∃ error, compareChecksum task checksum message = .failed (.recvChecksum checksum) error) ∨
      (compareChecksum task checksum message = .returned () ∧ ∃ peer,
        message = .fileChecksum peer ∧ peer.fileIndex = task.fileIndex ∧
          peer.checksum = checksum) := by
  unfold compareChecksum
  split
  · rename_i peer
    split
    · exact Or.inl ⟨_, rfl⟩
    · rename_i hindex
      split
      · exact Or.inl ⟨_, rfl⟩
      · rename_i hchecksum
        exact Or.inr ⟨rfl, peer, rfl, not_not.mp hindex, not_not.mp hchecksum⟩
  · exact Or.inl ⟨_, rfl⟩

/-- How the stages from the sent checksum on are reached. -/
theorem resume_ends {stage : Stage} {reply : Reply Message Bool}
    (hfits : (action session task stage).Fits reply) :
    (∀ result, resume session task stage reply = .returned result →
        ∃ checksum, stage = .recvChecksum checksum) ∧
      (∀ checksum, resume session task stage reply = .running (.recvChecksum checksum) →
        stage = .sendChecksum checksum) := by
  refine resume_elim (motive := fun stage status =>
      (∀ result, status = .returned result → ∃ checksum, stage = .recvChecksum checksum) ∧
      (∀ checksum, status = .running (.recvChecksum checksum) → stage = .sendChecksum checksum))
    ?begin ?parent ?opened ?setLen ?accept ?write ?rename ?reread ?noBytes ?send ?recv
    stage reply hfits
  case begin =>
      rcases openWriter_cases session task with
        ⟨error, hresult, _⟩ | ⟨fault, hresult⟩ | ⟨expected, hresult⟩ | ⟨expected, hresult⟩ <;>
        rw [hresult] <;> exact ⟨nofun, nofun⟩
  case setLen =>
      intro expected
      rcases continueLoop_cases task [] with ⟨_, hresult⟩ | ⟨_, hresult⟩ <;>
        rw [hresult] <;> exact ⟨nofun, nofun⟩
  case write =>
      intro seen index offset data
      rcases continueLoop_cases task seen with ⟨_, hresult⟩ | ⟨_, hresult⟩ <;>
        rw [hresult] <;> exact ⟨nofun, nofun⟩
  case accept =>
      intro seen raw
      rcases handleStream_cases session task seen raw with
        ⟨_, _, hresult⟩ | ⟨_, hresult⟩ | ⟨_, _, _, ⟨_, hresult, _⟩ | hresult⟩ <;>
        rw [hresult] <;> exact ⟨nofun, nofun⟩
  case recv =>
      intro checksum message
      refine ⟨fun _ _ => ⟨checksum, rfl⟩, ?_⟩
      intro other hend
      rcases compareChecksum_cases task checksum message with ⟨_, hresult⟩ | ⟨hresult, _⟩ <;>
        rw [hresult] at hend <;> cases hend
  case send =>
      intro checksum
      refine ⟨nofun, ?_⟩
      intro other hend
      cases hend
      rfl
  case rename | noBytes => exact ⟨nofun, nofun⟩
  case parent | opened | reread =>
      exact fun _ => ⟨nofun, nofun⟩

/-- A checksum to send is the one of the bytes just read. -/
theorem resume_sendChecksum {stage : Stage} {reply : Reply Message Bool} {checksum : Digest}
    (hfits : (action session task stage).Fits reply)
    (hresume : resume session task stage reply = .running (.sendChecksum checksum)) :
    ∃ contents, stage = .reread ∧ reply = .value (.bytes contents) ∧
      checksum = session.codec.sha256 contents := by
  cases stage <;> cases reply <;> try exact hfits.elim
  case begin.done =>
      rcases openWriter_cases session task with
        ⟨error, hresult, _⟩ | ⟨fault, hresult⟩ | ⟨expected, hresult⟩ | ⟨expected, hresult⟩ <;>
        rw [resume, hresult] at hresume <;> cases hresume
  case setLen.value expected value =>
      rcases continueLoop_cases task [] with ⟨_, hresult⟩ | ⟨_, hresult⟩ <;>
        rw [resume, hresult] at hresume <;> cases hresume
  case writeChunk.value seen index offset data value =>
      rcases continueLoop_cases task seen with ⟨_, hresult⟩ | ⟨_, hresult⟩ <;>
        rw [resume, hresult] at hresume <;> cases hresume
  case acceptUni.stream seen raw =>
      rcases handleStream_cases session task seen raw with
        ⟨_, _, hresult⟩ | ⟨_, hresult⟩ | ⟨_, _, _, ⟨_, hresult, _⟩ | hresult⟩ <;>
        rw [resume, hresult] at hresume <;> cases hresume
  case recvChecksum.message known message =>
      rcases compareChecksum_cases task known message with ⟨_, hresult⟩ | ⟨hresult, _⟩ <;>
        rw [resume, hresult] at hresume <;> cases hresume
  case reread.value value =>
      cases value with
      | bytes contents =>
          cases hresume
          exact ⟨contents, rfl, rfl, rfl⟩
      | unit | size _ => cases hresume
  case createParent.value | openPartial.value | rename.value | sendChecksum.done => cases hresume

/-! ## What a stage can change -/

/-- A call only changes the partial file and the final one. -/
theorem written_action {stage : Stage} {location : Location}
    (hlocation : location ∈ (action session task stage).written) :
    location = task.partialLocation ∨ location = task.finalLocation := by
  cases stage with
  | begin | createParent _ | acceptUni _ | reread | sendChecksum _ | recvChecksum _ =>
      cases hlocation
  | openPartial _ | setLen _ | writeChunk _ _ _ _ => exact Or.inl (List.mem_singleton.mp hlocation)
  | rename =>
      rcases List.mem_cons.mp hlocation with hsource | htarget
      · exact Or.inl hsource
      · exact Or.inr (List.mem_singleton.mp htarget)

end P2PFileTransfer.Core.FileReceiver
