import P2PFileTransfer.Transfer.Network

/-!
# What holds of both sides in every run

Every transfer state of the sender, in memory or in the state file, lists files as a
scan found them, with its finished files a beginning of the list and its chunks recorded
for the next one only.  Whatever is assumed of the lists a scan finds carries over.
-/

namespace P2PFileTransfer.Transfer.Honesty

open P2PFileTransfer.Foundation.ByteFile
open P2PFileTransfer.Foundation.FileSystem
open P2PFileTransfer.Foundation.Process
open P2PFileTransfer.Foundation.UnixPath
open P2PFileTransfer.Core
open P2PFileTransfer.Core.Protocol
open P2PFileTransfer.Core.TransferFile
open P2PFileTransfer.Core.TransferFolder
open P2PFileTransfer.Core.SendPath
open P2PFileTransfer.Core.FolderSender (HonestFiles HonestScan MemorySound Orderly readScan
  SoundStatus)
open P2PFileTransfer.Transfer.Network

/-- Decoding undoes encoding. -/
def Invertible (codec : Codec) : Prop :=
  ∀ data level encoded, codec.encodeAll data level = .ok encoded → codec.decodeAll encoded = .ok data

/-- A scan finds files as they are, and a list with the given property. -/
def HonestEvent (setup : Setup) (good : List FileMetadata → Prop) : Event → Prop
  | .sender (.answer scan) =>
      HonestScan setup.basePath setup.source scan ∧
        ∀ found, readScan scan = .ok found → good found.2
  | _ => True

structure SoundMemory (setup : Setup) (good : List FileMetadata → Prop)
    (memory : FolderTransferState) : Prop where
  orderly : Orderly setup.chunkSize.toNat memory
  honest : HonestFiles setup.basePath setup.source memory.files
  good : good memory.files

structure Sound (setup : Setup) (good : List FileMetadata → Prop) (world : Network.State) :
    Prop where
  chunkSize : world.link.config.chunkSize = setup.chunkSize
  sender : ∀ call attempt status, world.sender = .sending call attempt status →
    SoundStatus (senderSession setup world.link call) setup.source status
  memory : ∀ memory, world.sender.memory? = some memory → SoundMemory setup good memory
  saved : ∀ memory, world.saved = .stored memory → SoundMemory setup good memory
  resumed : SoundMemory setup good world.link.resumed
  receiver : FolderReceiver.SoundStatus (receiverSession setup world.link) world.receiver.status

variable {setup : Setup} {good : List FileMetadata → Prop} {world next : Network.State}

theorem senderFed_config {link after : Link} {point : FolderSender.Point}
    {action : Action Message} {move : Move FolderSender.Scan} {input : FolderSender.SenderInput}
    (hfed : SenderFed link point action move input after) : after.config = link.config := by
  cases hfed <;> rfl

theorem senderFed_resumed {link after : Link} {point : FolderSender.Point}
    {action : Action Message} {move : Move FolderSender.Scan} {input : FolderSender.SenderInput}
    (hfed : SenderFed link point action move input after) : after.resumed = link.resumed := by
  cases hfed <;> rfl

theorem receiverFed_config {link after : Link} {action : Action Message} {move : Move Bool}
    {input : FolderReceiver.ReceiverInput} (hfed : ReceiverFed link action move input after) :
    after.config = link.config := by
  cases hfed <;> rfl

theorem receiverFed_resumed {link after : Link} {action : Action Message} {move : Move Bool}
    {input : FolderReceiver.ReceiverInput} (hfed : ReceiverFed link action move input after) :
    after.resumed = link.resumed := by
  cases hfed <;> rfl

theorem answer_of_senderFed {link after : Link} {point : FolderSender.Point}
    {action : Action Message} {move : Move FolderSender.Scan} {scan : FolderSender.Scan}
    (hfed : SenderFed link point action move (.answer scan) after) : move = .answer scan := by
  cases hfed
  rfl

theorem fail_of_senderFed {link after : Link} {point : FolderSender.Point}
    {action : Action Message} {move : Move FolderSender.Scan} {error : Error} {written : Nat}
    (hfed : SenderFed link point action move (.fail error written) after) :
    move = .fail error written ∧ after = link := by
  cases hfed
  exact ⟨rfl, rfl⟩

theorem senderSession_congr {link after : Link} (hconfig : after.config = link.config)
    (call : Call) : senderSession setup after call = senderSession setup link call := by
  rw [senderSession, senderSession, hconfig]

theorem receiverSession_congr {link after : Link} (hconfig : after.config = link.config) :
    receiverSession setup after = receiverSession setup link := by
  rw [receiverSession, receiverSession, hconfig]

/-- The transfer state of a call's status. -/
def statusMemory : FolderSender.PointStatus → FolderTransferState
  | .running point | .failed point _ | .panicked point _ => point.memory
  | .returned memory => memory

theorem memory?_sending (call : Call) (attempt : Nat) (status : FolderSender.PointStatus) :
    (Phase.sending call attempt status).memory? = some (statusMemory status) := by
  cases status <;> rfl

theorem memorySound_of_status {session : FolderSender.Session} {source : Store}
    {status : FolderSender.PointStatus} (hsound : SoundStatus session source status) :
    MemorySound session source (statusMemory status) := by
  cases status with
  | running point => exact hsound.1
  | returned memory => exact hsound.1
  | failed point error | panicked point fault => exact hsound

/-- What a reply makes of the transfer state. -/
inductive Remembers (session : FolderSender.Session) (point : FolderSender.Point)
    (reply : Reply Message FolderSender.Scan) : FolderTransferState → Prop where
  | keeps : Remembers session point reply point.memory
  | finds {scan : FolderSender.Scan} {found : OsStr × List FileMetadata}
      (hstage : point.stage = .scan) (hreply : reply = .answer scan)
      (hfound : readScan scan = .ok found) :
      Remembers session point reply (.new session.transferId found.1 found.2 session.config)
  | records {task : FolderSender.FileTask} (hstage : point.stage = .awaitStopped task) :
      Remembers session point reply (point.memory.markChunkComplete task.index task.next)
  | finishes {index : Nat} {checksum : Digest} (hstage : point.stage = .recvChecksum index checksum) :
      Remembers session point reply (FolderSender.finishFile point.memory index)

theorem remembers_resume (session : FolderSender.Session) (point : FolderSender.Point)
    (reply : Reply Message FolderSender.Scan) :
    Remembers session point reply (statusMemory (FolderSender.resume session point reply)) := by
  obtain ⟨memory, stage⟩ := point
  cases stage <;> cases reply <;> try exact .keeps
  case begin.done =>
      change Remembers _ _ _ (statusMemory (FolderSender.openTransfer session memory))
      rw [FolderSender.openTransfer, FolderSender.announce]
      split
      · exact .keeps
      · cases writeMessage (FolderSender.manifest session memory
          (memory.resumePoint session.transferId)) <;> exact .keeps
  case scan.answer scan =>
      change Remembers _ _ _ (statusMemory (FolderSender.startTransfer session memory scan))
      rw [FolderSender.startTransfer]
      cases hfound : readScan scan with
      | error error => exact .keeps
      | ok found =>
          simp only [Status.ofExcept, FolderSender.announce]
          cases writeMessage (FolderSender.manifest session (.new session.transferId found.1 found.2
            session.config) none) <;> exact .finds rfl rfl hfound
  case recvReady.message message => cases message <;> exact .keeps
  case fileHead.done index =>
      change Remembers _ _ _ (statusMemory (FolderSender.visitFile memory index))
      rw [FolderSender.visitFile]
      split
      · split <;> exact .keeps
      · exact .keeps
  case openSource.value index value =>
      cases value with
      | size fileSize =>
          change Remembers _ _ _ (statusMemory (FolderSender.openReader session memory index fileSize))
          rw [FolderSender.openReader]
          cases chunkCount fileSize session.config.chunkSize <;> exact .keeps
      | unit | bytes _ => exact .keeps
  case chunkHead.done task =>
      change Remembers _ _ _ (statusMemory (FolderSender.visitChunk session memory task))
      rw [FolderSender.visitChunk]
      split
      · cases Foundation.FixedWidth.mul 64 task.next session.config.chunkSize.toNat with
        | error fault => exact .keeps
        | ok offset =>
            change Remembers _ _ _
              (statusMemory (.ofChecked _ (Foundation.FixedWidth.sub task.fileSize offset) _))
            cases Foundation.FixedWidth.sub task.fileSize offset <;> exact .keeps
      · exact .keeps
  case readChunk.value task offset length value =>
      cases value with
      | bytes data =>
          change Remembers _ _ _
            (statusMemory (FolderSender.handleChunk session memory task offset length data))
          rw [FolderSender.handleChunk]
          split
          · exact .keeps
          · cases prepareChunk session.codec task.compressor data <;> exact .keeps
      | unit | size _ => exact .keeps
  case awaitStopped.done task => exact .records rfl
  case recvChecksum.message index checksum message =>
      change Remembers _ _ _ (statusMemory (FolderSender.compareChecksum memory index checksum message))
      unfold FolderSender.compareChecksum
      split
      · split
        · exact .keeps
        · exact .finishes rfl
      · exact .keeps

/-- A step keeps the list of files or takes the one the scan found. -/
theorem files_resume (session : FolderSender.Session) (point : FolderSender.Point)
    (reply : Reply Message FolderSender.Scan) :
    (statusMemory (FolderSender.resume session point reply)).files = point.memory.files ∨
      ∃ scan found, reply = .answer scan ∧ readScan scan = .ok found ∧
        (statusMemory (FolderSender.resume session point reply)).files = found.2 := by
  have hafter := remembers_resume session point reply
  generalize statusMemory (FolderSender.resume session point reply) = after at hafter ⊢
  cases hafter with
  | keeps | records _ => exact Or.inl rfl
  | finds _ hreply hfound => exact Or.inr ⟨_, _, hreply, hfound, rfl⟩
  | finishes _ => exact Or.inl (FolderSender.finishFile_files _ _)

theorem good_step {session : FolderSender.Session} {point : FolderSender.Point} {source : Store}
    {input : FolderSender.SenderInput} {after : FolderSender.SenderState}
    (hgood : good point.memory.files)
    (hscan : ∀ scan, input = .answer scan → ∀ found, readScan scan = .ok found → good found.2)
    (hstep : (FolderSender.machine session).step ⟨.running point, source⟩ input = some after) :
    good (statusMemory after.status).files := by
  cases stepped_of_step hstep with
  | fail hstatus hstore hnext =>
      cases hstatus
      rw [hnext]
      exact hgood
  | resume hstatus hreply hnext =>
      rename_i reply store
      cases hstatus
      rw [hnext]
      rcases files_resume session point reply with hfiles | ⟨scan, found, hanswer, hfound, hfiles⟩
      · exact hfiles ▸ hgood
      · change good (statusMemory (FolderSender.resume session point reply)).files
        rw [hfiles]
        refine hscan scan ?_ found hfound
        subst hanswer
        cases hname : (FolderSender.machine session).action point with
        | ask =>
            rw [hname] at hreply
            cases input <;> cases hreply
            rfl
        | perform operation =>
            rw [hname] at hreply
            obtain ⟨_, value, hvalue, _⟩ := Action.performed hreply
            cases hvalue
        | compute | send _ | receive | openStream _ | awaitStopped | acceptStream =>
            rw [hname] at hreply
            cases input <;> cases hreply

/-! ## Steps of the network -/

theorem soundMemory_of_memorySound {link : Link} {call : Call} {memory : FolderTransferState}
    (hchunkSize : link.config.chunkSize = setup.chunkSize)
    (hmemory : MemorySound (senderSession setup link call) setup.source memory)
    (hgood : good memory.files) : SoundMemory setup good memory := by
  refine ⟨?_, hmemory.honest, hgood⟩
  rw [← hchunkSize]
  exact hmemory.orderly

theorem memorySound_of_soundMemory {link : Link} {memory : FolderTransferState}
    (hchunkSize : link.config.chunkSize = setup.chunkSize) (hmemory : SoundMemory setup good memory)
    (call : Call) : MemorySound (senderSession setup link call) setup.source memory := by
  refine ⟨?_, hmemory.honest⟩
  change Orderly link.config.chunkSize.toNat memory
  rw [hchunkSize]
  exact hmemory.orderly

theorem soundMemory_fresh (hnone : good []) (freshId : Uuid) (config : ConfigMessage) :
    SoundMemory setup good (freshState freshId config) :=
  ⟨FolderSender.orderly_new _ _ _ _ _, nofun, hnone⟩

theorem soundMemory_loadState (hnone : good []) {saved : SavedState}
    (hsaved : ∀ memory, saved = .stored memory → SoundMemory setup good memory) (freshId : Uuid)
    (config : ConfigMessage) : SoundMemory setup good (loadState saved freshId config) := by
  cases saved with
  | stored memory => exact hsaved memory rfl
  | absent | unreadable => exact soundMemory_fresh hnone freshId config

theorem sound_connect (hsound : Sound setup good world) {config : ConfigMessage}
    (hchunkSize : config.chunkSize = setup.chunkSize) (call : Call) (attempt : Nat)
    {memory : FolderTransferState} (hmemory : SoundMemory setup good memory) :
    Sound setup good (connect world config call attempt memory) := by
  refine ⟨hchunkSize, ?_, ?_, hsound.saved, hmemory, ?_⟩
  · intro _ _ status hstatus
    cases hstatus
    have hlink : (Link.new config memory).config.chunkSize = setup.chunkSize := hchunkSize
    exact ⟨memorySound_of_soundMemory hlink hmemory _, trivial⟩
  · intro other hother
    cases hother
    exact hmemory
  · intro point hpoint
    cases hpoint
    trivial

theorem sound_senderStepped (hdecode : Invertible setup.codec) (hsound : Sound setup good world)
    {move : Move FolderSender.Scan} (hhonest : HonestEvent setup good (.sender move))
    (hstepped : SenderStepped setup world move next) : Sound setup good next := by
  cases hstepped with
  | intro hsender hfed hstep =>
      rename_i call attempt point input link after
      have hstatus := hsound.sender call attempt _ hsender
      have hmemory := hsound.memory point.memory (by rw [hsender]; rfl)
      have hscan : ∀ scan, input = .answer scan → move = .answer scan := by
        rintro scan rfl
        exact answer_of_senderFed hfed
      have hafter := @FolderSender.soundStatus_step (senderSession setup world.link call)
        setup.source hdecode _ _ _ rfl
        (fun scan hanswer => by
          rw [hscan scan hanswer] at hhonest
          exact hhonest.1)
        hstatus hstep
      have hgood := good_step hmemory.good
        (fun scan hanswer => by
          rw [hscan scan hanswer] at hhonest
          exact hhonest.2) hstep
      have hconfig := senderFed_config hfed
      have hlink : link.config.chunkSize = setup.chunkSize := hconfig ▸ hsound.chunkSize
      refine ⟨hlink, ?_, ?_, hsound.saved, ?_, ?_⟩
      · intro _ _ status hnext
        cases hnext
        rw [senderSession_congr hconfig]
        exact hafter.2
      · intro other hother
        rw [memory?_sending] at hother
        cases hother
        exact soundMemory_of_memorySound hsound.chunkSize (memorySound_of_status hafter.2) hgood
      · change SoundMemory setup good link.resumed
        rw [senderFed_resumed hfed]
        exact hsound.resumed
      · change FolderReceiver.SoundStatus (receiverSession setup link) _
        rw [receiverSession_congr hconfig]
        exact hsound.receiver

theorem sound_receiverStepped (hsound : Sound setup good world) {move : Move Bool}
    (hstepped : ReceiverStepped setup world move next) : Sound setup good next := by
  cases hstepped with
  | intro hreceiver hfed hstep =>
      rename_i point input link after
      have hconfig := receiverFed_config hfed
      refine ⟨hconfig ▸ hsound.chunkSize, ?_, hsound.memory, hsound.saved, ?_, ?_⟩
      · intro call attempt status hstatus
        change SoundStatus (senderSession setup link call) _ _
        rw [senderSession_congr hconfig]
        exact hsound.sender call attempt status hstatus
      · change SoundMemory setup good link.resumed
        rw [receiverFed_resumed hfed]
        exact hsound.resumed
      · change FolderReceiver.SoundStatus (receiverSession setup link) after.status
        rw [receiverSession_congr hconfig]
        exact FolderReceiver.soundStatus_inductive.step hstep hsound.receiver

theorem sound_save (hsound : Sound setup good world) {call : Call} {attempt : Nat}
    {point : FolderSender.Point} {error : Error}
    (hsender : world.sender = .sending call attempt (.failed point error))
    (outcome : SaveOutcome) :
    Sound setup good { world with
      sender := afterFailure setup.maxAttempts call attempt point error
      saved := save outcome point.memory world.saved } := by
  have hmemory := hsound.memory point.memory (by rw [hsender]; rfl)
  refine ⟨hsound.chunkSize, ?_, ?_, ?_, hsound.resumed, hsound.receiver⟩
  · intro other again status hstatus
    unfold afterFailure at hstatus
    dsimp only at hstatus
    split at hstatus
    · split at hstatus <;> cases hstatus
    · cases hstatus
  · intro memory hnext
    change (afterFailure setup.maxAttempts call attempt point error).memory? = _ at hnext
    rw [memory?_afterFailure] at hnext
    cases hnext
    exact hmemory
  · intro memory hnext
    cases outcome with
    | saved =>
        cases hnext
        exact hmemory
    | unchanged => exact hsound.saved memory hnext
    | brokenOff => cases hnext

theorem sound_step (hdecode : Invertible setup.codec) (hnone : good []) {event : Event}
    (hhonest : HonestEvent setup good event) (hsound : Sound setup good world)
    (hstep : step setup world event = some next) : Sound setup good next := by
  cases networkStepped_of_step hstep with
  | start call _ hchunkSize =>
      exact sound_connect hsound hchunkSize _ _ (soundMemory_loadState hnone hsound.saved _ _)
  | sender hsender => exact sound_senderStepped hdecode hsound hhonest hsender
  | receiver hreceiver => exact sound_receiverStepped hsound hreceiver
  | loseForward | loseBackward =>
      exact ⟨hsound.chunkSize, hsound.sender, hsound.memory, hsound.saved, hsound.resumed,
        hsound.receiver⟩
  | save outcome hsender => exact sound_save hsound hsender outcome
  | reconnect hsender _ =>
      exact sound_connect hsound hsound.chunkSize _ _
        (hsound.memory _ (memory?_of_sender hsender rfl))
  | unreachable hsender =>
      have hmemory := hsound.memory _ (memory?_of_sender hsender rfl)
      refine ⟨hsound.chunkSize, ?_, ?_, hsound.saved, hsound.resumed, hsound.receiver⟩
      · intro _ _ status hstatus
        cases hstatus
        exact ⟨memorySound_of_soundMemory hsound.chunkSize hmemory _, trivial⟩
      · intro other hother
        cases hother
        exact hmemory
  | finish removed hsender =>
      refine ⟨hsound.chunkSize, ?_, ?_, ?_, hsound.resumed, hsound.receiver⟩
      · intro _ _ status hstatus
        cases hstatus
      · intro other hother
        cases hother
        exact hsound.memory _ (memory?_of_sender hsender rfl)
      · intro other hother
        cases removed with
        | true => cases hother
        | false => exact hsound.saved other hother

theorem sound_initial (hnone : good []) (store : Store) :
    Sound setup good (initial setup store) := by
  refine ⟨rfl, ?_, ?_, ?_, soundMemory_fresh hnone _ _, ?_⟩
  · intro _ _ status hstatus
    cases hstatus
  · intro memory hmemory
    cases hmemory
  · intro memory hmemory
    cases hmemory
  · intro point hpoint
    cases hpoint

end P2PFileTransfer.Transfer.Honesty
