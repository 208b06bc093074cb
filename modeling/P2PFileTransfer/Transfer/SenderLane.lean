import P2PFileTransfer.Transfer.Honesty
import P2PFileTransfer.Transfer.Schedule

/-!
# The sender along the schedule

From Ready on the sender stands at a place of the schedule of its manifest.  A step keeps
the place, or opens the stream that stands there, or exchanges the checksum of the item
at hand; otherwise the attempt ends.
-/

namespace P2PFileTransfer.Transfer.SenderLane

open P2PFileTransfer.Foundation.ByteFile
open P2PFileTransfer.Foundation.FileSystem
open P2PFileTransfer.Foundation.FixedWidth
open P2PFileTransfer.Foundation.Process
open P2PFileTransfer.Core
open P2PFileTransfer.Core.Protocol
open P2PFileTransfer.Core.TransferFile
open P2PFileTransfer.Core.TransferFolder
open P2PFileTransfer.Core.SendPath
open P2PFileTransfer.Core.FolderSender
open P2PFileTransfer.Transfer.Honesty
open P2PFileTransfer.Transfer.Network
open P2PFileTransfer.Transfer.Schedule

/-- The stages behind Ready. -/
def Live : Stage → Prop
  | .begin | .scan | .sendInfo _ | .recvReady => False
  | .fileHead _ | .openSource _ | .chunkHead _ | .readChunk _ _ _ | .openStream _ _
  | .awaitStopped _ | .sendChecksum _ _ | .recvChecksum _ _ | .sendComplete => True

/-- The first item that is not finished. -/
def nextItem (memory : FolderTransferState) : Nat := memory.completedFiles.length

/-- What the item at hand skips is what the manifest counts as delivered. -/
def Aligned (info : TransferInfo) (memory : FolderTransferState) : Stage → Prop
  | .fileHead index =>
      (index < nextItem memory → nextItem memory = firstItem info) ∧
        memory.fileChunks (nextItem memory) = startChunks info (nextItem memory)
  | .openSource _ => memory.fileChunks (nextItem memory) = startChunks info (nextItem memory)
  | .chunkHead task | .readChunk task _ _ | .openStream task _ | .awaitStopped task =>
      task.completed = startChunks info (nextItem memory)
  | .begin | .scan | .sendInfo _ | .recvReady | .sendChecksum _ _ | .recvChecksum _ _
  | .sendComplete => True

structure Talking (info : TransferInfo) (point : Point) : Prop where
  live : Live point.stage
  files : point.memory.files = info.items
  first_le : firstItem info ≤ nextItem point.memory
  aligned : Aligned info point.memory point.stage

/-- How many streams of the schedule the sender has opened. -/
def sent (chunkSize : Nat) (info : TransferInfo) (point : Point) : Nat :=
  match point.stage with
  | .chunkHead task | .readChunk task _ _ | .openStream task _ =>
      offset chunkSize info (nextItem point.memory) + (remaining task.completed task.next).length
  | .awaitStopped task =>
      offset chunkSize info (nextItem point.memory) +
        (remaining task.completed task.next).length + 1
  | .sendChecksum _ _ | .recvChecksum _ _ => offset chunkSize info (nextItem point.memory + 1)
  | .fileHead _ | .openSource _ | .sendComplete | .begin | .scan | .sendInfo _ | .recvReady =>
      offset chunkSize info (nextItem point.memory)

/-- A stream that carries a chunk of an item. -/
def Carries (setup : Setup) (config : ConfigMessage) (info : TransferInfo) (index : Nat)
    (raw : Bytes) (chunk : Nat) : Prop :=
  ∃ file bytes, info.items[index]? = some file ∧
    IsSource setup.basePath setup.source file bytes ∧
    CarriesChunk setup.codec config raw chunk (chunkAt bytes setup.chunkSize.toNat chunk)

/-- What a move of the sender does behind Ready. -/
inductive SenderMoved (setup : Setup) (info : TransferInfo) (call : Call) (link : Link)
    (point : Point) (move : Move Scan) : PointStatus → Link → Prop where
  | fails {error : Error} {after : Link}
      (hlink : after = link ∨ ∃ message rest, link.toSender = message :: rest ∧
        after = { link with toSender := rest })
      (hreason : error.isProtocol = true → (∃ written, move = .fail error written) ∨
        ∃ message rest, link.toSender = message :: rest ∧ ∀ peer, message ≠ .fileChecksum peer) :
      SenderMoved setup info call link point move (.failed point error) after
  | panics {fault : Fault} :
      SenderMoved setup info call link point move (.panicked point fault) link
  | goes {next : Point} (htalking : Talking info next)
      (hsent : sent setup.chunkSize.toNat info next = sent setup.chunkSize.toNat info point)
      (hnext : nextItem next.memory = nextItem point.memory) :
      SenderMoved setup info call link point move (.running next) link
  | opens {task : FileTask} {raw : Bytes} (hstage : point.stage = .openStream task raw)
      (hplace : (schedule setup.chunkSize.toNat info)[sent setup.chunkSize.toNat info point]? =
        some (nextItem point.memory, task.next))
      (hcarries : Carries setup link.config info (nextItem point.memory) raw task.next)
      (htalking : Talking info ⟨point.memory, .awaitStopped task⟩)
      (hsent : sent setup.chunkSize.toNat info ⟨point.memory, .awaitStopped task⟩ =
        sent setup.chunkSize.toNat info point + 1) :
      SenderMoved setup info call link point move (.running ⟨point.memory, .awaitStopped task⟩)
        (link.openStream (nextItem point.memory) raw)
  | sends {checksum : Digest}
      (hstage : point.stage = .sendChecksum (nextItem point.memory) checksum)
      (htalking : Talking info ⟨point.memory, .recvChecksum (nextItem point.memory) checksum⟩) :
      SenderMoved setup info call link point move
        (.running ⟨point.memory, .recvChecksum (nextItem point.memory) checksum⟩)
        (link.sendForward (fileChecksum (senderSession setup link call) (nextItem point.memory)
          checksum))
  | confirms {peer : FileChecksumMessage} {rest : List Message}
      (hstage : point.stage = .recvChecksum (nextItem point.memory) peer.checksum)
      (hhead : link.toSender = .fileChecksum peer :: rest)
      (hsource : ∀ file bytes, info.items[nextItem point.memory]? = some file →
        IsSource setup.basePath setup.source file bytes → peer.checksum = setup.codec.sha256 bytes)
      (htalking : Talking info
        ⟨finishFile point.memory (nextItem point.memory), .fileHead (nextItem point.memory + 1)⟩)
      (hnext : nextItem (finishFile point.memory (nextItem point.memory)) =
        nextItem point.memory + 1) :
      SenderMoved setup info call link point move
        (.running ⟨finishFile point.memory (nextItem point.memory),
          .fileHead (nextItem point.memory + 1)⟩)
        { link with toSender := rest }
  | completes {complete : CompleteMessage} (hstage : point.stage = .sendComplete)
      (hall : nextItem point.memory = info.items.length) :
      SenderMoved setup info call link point move (.returned point.memory)
        (link.sendForward (.complete complete))

/-- The results that leave the connection alone. -/
inductive Goes (chunkSize : Nat) (info : TransferInfo) (point : Point) : PointStatus → Prop where
  | on {next : Point} (htalking : Talking info next)
      (hsent : sent chunkSize info next = sent chunkSize info point)
      (hnext : nextItem next.memory = nextItem point.memory) : Goes chunkSize info point (.running next)
  | fails {error : Error} (hplain : error.isProtocol = false) :
      Goes chunkSize info point (.failed point error)
  | panics {fault : Fault} : Goes chunkSize info point (.panicked point fault)

variable {setup : Setup} {info : TransferInfo} {call : Call} {link : Link} {point : Point}
  {move : Move Scan} {session : Session} {source : Store} {memory : FolderTransferState}
  {chunkSize : Nat}

theorem moved_of_goes {status : PointStatus}
    (hgoes : Goes setup.chunkSize.toNat info point status) :
    SenderMoved setup info call link point move status link := by
  cases hgoes with
  | on htalking hsent hnext => exact .goes htalking hsent hnext
  | fails hplain =>
      refine .fails (Or.inl rfl) fun hprotocol => ?_
      rw [hplain] at hprotocol
      cases hprotocol
  | panics => exact .panics

/-! ## What the sender waits for -/

/-- The stages that wait for the receiver. -/
def Waits : Stage → Prop
  | .recvReady | .awaitStopped _ | .recvChecksum _ _ => True
  | .begin | .scan | .sendInfo _ | .fileHead _ | .openSource _ | .chunkHead _ | .readChunk _ _ _
  | .openStream _ _ | .sendChecksum _ _ | .sendComplete => False

/-- A stage that waits stands behind the one that hands over what is waited on. -/
inductive Asks : Stage → Stage → Prop where
  | ready {resumeFrom : Option ResumePoint} : Asks (.sendInfo resumeFrom) .recvReady
  | stopped {task : FileTask} {raw : Bytes} : Asks (.openStream task raw) (.awaitStopped task)
  | checksum {index : Nat} {checksum : Digest} :
      Asks (.sendChecksum index checksum) (.recvChecksum index checksum)

theorem not_waits_announce {stage : Stage} {resumeFrom : Option ResumePoint} {next : Point}
    (hnext : announce session stage memory resumeFrom = .running next) : ¬ Waits next.stage := by
  rw [announce] at hnext
  cases hwrite : writeMessage (manifest session memory resumeFrom) with
  | error error =>
      rw [hwrite] at hnext
      cases hnext
  | ok done =>
      rw [hwrite] at hnext
      cases hnext
      exact id

/-- The sender waits only for what it has just asked for. -/
theorem asks_resume {next : Point} {reply : Reply Message Scan}
    (hfits : (action session point).Fits reply) (hnext : resume session point reply = .running next)
    (hwaits : Waits next.stage) : Asks point.stage next.stage := by
  obtain ⟨memory, stage⟩ := point
  cases stage <;> cases reply <;> try exact hfits.elim
  case begin.done =>
      change openTransfer session memory = .running next at hnext
      rw [openTransfer] at hnext
      split at hnext
      · cases hnext
        exact hwaits.elim
      · exact absurd hwaits (not_waits_announce hnext)
  case scan.answer scan =>
      change startTransfer session memory scan = .running next at hnext
      rw [startTransfer] at hnext
      cases hfound : readScan scan with
      | error error =>
          rw [hfound] at hnext
          cases hnext
      | ok found =>
          rw [hfound] at hnext
          exact absurd hwaits (not_waits_announce hnext)
  case sendInfo.done resumeFrom =>
      cases hnext
      exact .ready
  case recvReady.message message =>
      change readReady memory message = .running next at hnext
      unfold readReady at hnext
      split at hnext <;> cases hnext
      exact hwaits.elim
  case fileHead.done index =>
      change visitFile memory index = .running next at hnext
      rw [visitFile] at hnext
      split at hnext
      · split at hnext <;> cases hnext <;> exact hwaits.elim
      · cases hnext
        exact hwaits.elim
  case openSource.value index value =>
      cases value with
      | size fileSize =>
          change openReader session memory index fileSize = .running next at hnext
          rw [openReader] at hnext
          cases hcount : chunkCount fileSize session.config.chunkSize <;> rw [hcount] at hnext <;>
            cases hnext
          exact hwaits.elim
      | unit | bytes _ =>
          cases hnext
          exact hwaits.elim
  case chunkHead.done task =>
      change visitChunk session memory task = .running next at hnext
      rw [visitChunk] at hnext
      split at hnext
      · cases hmul : mul 64 task.next session.config.chunkSize.toNat with
        | error fault =>
            rw [hmul] at hnext
            cases hnext
        | ok position =>
            rw [hmul] at hnext
            change Status.ofChecked _ (sub task.fileSize position) _ = _ at hnext
            cases hsub : sub task.fileSize position <;> rw [hsub] at hnext <;> cases hnext
            exact hwaits.elim
      · cases hnext
        exact hwaits.elim
  case readChunk.value task position length value =>
      cases value with
      | bytes data =>
          change handleChunk session memory task position length data = .running next at hnext
          rw [handleChunk] at hnext
          split at hnext
          · cases hnext
            exact hwaits.elim
          · cases hprepare : prepareChunk session.codec task.compressor data <;>
              rw [hprepare] at hnext <;> cases hnext
            exact hwaits.elim
      | unit | size _ =>
          cases hnext
          exact hwaits.elim
  case openStream.done task raw =>
      cases hnext
      exact .stopped
  case awaitStopped.done task =>
      cases hnext
      exact hwaits.elim
  case sendChecksum.done index checksum =>
      cases hnext
      exact .checksum
  case recvChecksum.message index checksum message =>
      change compareChecksum memory index checksum message = .running next at hnext
      unfold compareChecksum at hnext
      split at hnext
      · split at hnext <;> cases hnext
        exact hwaits.elim
      · cases hnext
  case sendComplete.done => cases hnext

theorem asks_of_step {input : SenderInput} {after : SenderState}
    (hstep : (machine session).step ⟨.running point, source⟩ input = some after) {next : Point}
    (hnext : after.status = .running next) (hwaits : Waits next.stage) :
    Asks point.stage next.stage := by
  cases stepped_of_step hstep with
  | fail _ _ hafter =>
      rw [hafter] at hnext
      cases hnext
  | resume hstatus hreply hafter =>
      cases hstatus
      rw [hafter] at hnext
      exact asks_resume (Action.fits_of_reply hreply) hnext hwaits

/-! ## Stage by stage -/

theorem mem_completedFiles_iff (horderly : Orderly chunkSize memory) {index : Nat} :
    index ∈ memory.completedFiles ↔ index < nextItem memory := by
  rw [horderly.finished, List.mem_range]
  rfl

theorem goes_visitFile {index : Nat} (htalking : Talking info ⟨memory, .fileHead index⟩) :
    Goes chunkSize info ⟨memory, .fileHead index⟩ (visitFile memory index) := by
  obtain ⟨_, hfiles, hfirst, hhead, hstart⟩ := htalking
  rw [visitFile]
  split
  · split
    · refine .on ⟨trivial, hfiles, hfirst, fun hless => ?_, hstart⟩ rfl rfl
      exact hhead (Nat.lt_of_succ_lt hless)
    · exact .on ⟨trivial, hfiles, hfirst, hstart⟩ rfl rfl
  · exact .on ⟨trivial, hfiles, hfirst, trivial⟩ rfl rfl

theorem goes_openReader {index fileSize : Nat} (htalking : Talking info ⟨memory, .openSource index⟩) (hindex : index = nextItem memory) :
    Goes chunkSize info ⟨memory, .openSource index⟩ (openReader session memory index fileSize) := by
  obtain ⟨_, hfiles, hfirst, hstart⟩ := htalking
  rw [openReader]
  cases chunkCount fileSize session.config.chunkSize with
  | error fault => exact .panics
  | ok total =>
      refine .on ⟨trivial, hfiles, hfirst, ?_⟩ ?_ rfl
      · change memory.fileChunks index = _
        rw [hindex]
        exact hstart
      · exact Nat.add_zero _

/-- At the end of its chunks an item has had all its streams. -/
theorem remaining_eq_expected {task : FileTask} {file : FileMetadata}
    (htask : IsTask session memory task file) (hfiles : memory.files = info.items)
    (haligned : task.completed = startChunks info (nextItem memory))
    (hnext : task.next = task.totalChunks) :
    remaining task.completed task.next =
      expected session.config.chunkSize.toNat info (nextItem memory) := by
  have hitem : info.items[nextItem memory]? = some file := hfiles ▸ htask.item
  rw [expected, hitem, hnext, htask.totalChunks, haligned]

theorem goes_visitChunk {task : FileTask} {file : FileMetadata}
    (htask : IsTask session memory task file) (hle : task.next ≤ task.totalChunks)
    (htalking : Talking info ⟨memory, .chunkHead task⟩) :
    Goes session.config.chunkSize.toNat info ⟨memory, .chunkHead task⟩
      (visitChunk session memory task) := by
  obtain ⟨_, hfiles, hfirst, haligned⟩ := htalking
  rw [visitChunk]
  split
  · cases mul 64 task.next session.config.chunkSize.toNat with
    | error fault => exact .panics
    | ok position =>
        change Goes _ _ _ (.ofChecked _ (sub task.fileSize position) _)
        cases sub task.fileSize position with
        | error fault => exact .panics
        | ok rest => exact .on ⟨trivial, hfiles, hfirst, haligned⟩ rfl rfl
  · rename_i hdone
    refine .on ⟨trivial, hfiles, hfirst, trivial⟩ ?_ rfl
    have hall := remaining_eq_expected htask hfiles haligned
      (Nat.le_antisymm hle (Nat.le_of_not_lt hdone))
    change offset _ info (nextItem memory + 1) =
      offset _ info (nextItem memory) + (remaining task.completed task.next).length
    rw [hall, offset_succ _ info hfirst]

theorem goes_handleChunk {task : FileTask} {position length : Nat} {data : Bytes}
    (htalking : Talking info ⟨memory, .readChunk task position length⟩) :
    Goes chunkSize info ⟨memory, .readChunk task position length⟩
      (handleChunk session memory task position length data) := by
  obtain ⟨_, hfiles, hfirst, haligned⟩ := htalking
  rw [handleChunk]
  split
  · rename_i hskip
    refine .on ⟨trivial, hfiles, hfirst, haligned⟩ ?_ rfl
    change _ + (remaining task.completed (task.next + 1)).length = _
    rw [remaining_succ_of_mem hskip]
    rfl
  · cases hprepare : prepareChunk session.codec task.compressor data with
    | error error => exact .fails (isProtocol_of_prepareChunk hprepare)
    | ok prepared => exact .on ⟨trivial, hfiles, hfirst, haligned⟩ rfl rfl

theorem goes_recordChunk {task : FileTask} (htalking : Talking info ⟨memory, .awaitStopped task⟩)
    (hfresh : task.next ∉ task.completed) :
    Goes chunkSize info ⟨memory, .awaitStopped task⟩ (.running (recordChunk memory task)) := by
  obtain ⟨_, hfiles, hfirst, haligned⟩ := htalking
  refine .on ⟨trivial, hfiles, hfirst, haligned⟩ ?_ rfl
  change _ + (remaining task.completed (task.next + 1)).length =
    _ + (remaining task.completed task.next).length + 1
  rw [remaining_succ_of_not_mem hfresh, List.length_append]
  rfl

/-- A chunk that has not been sent stands at the sender's place of the schedule. -/
theorem getElem?_schedule_sent {task : FileTask} {file : FileMetadata}
    (htask : IsTask session memory task file) (hless : task.next < task.totalChunks)
    (hfresh : task.next ∉ task.completed) (hfiles : memory.files = info.items)
    (hfirst : firstItem info ≤ nextItem memory)
    (haligned : task.completed = startChunks info (nextItem memory)) :
    (schedule session.config.chunkSize.toNat info)[
        offset session.config.chunkSize.toNat info (nextItem memory) +
          (remaining task.completed task.next).length]? = some (nextItem memory, task.next) := by
  have hitem : info.items[nextItem memory]? = some file := hfiles ▸ htask.item
  have hexpected : expected session.config.chunkSize.toNat info (nextItem memory) =
      remaining task.completed task.totalChunks := by
    rw [expected, hitem, htask.totalChunks, haligned]
  obtain ⟨rest, hrest⟩ := remaining_initial task.completed (Nat.succ_le_of_lt hless)
  rw [remaining_succ_of_not_mem hfresh, List.append_assoc, List.singleton_append] at hrest
  have hentry : (expected session.config.chunkSize.toNat info (nextItem memory))[
      (remaining task.completed task.next).length]? = some task.next := by
    rw [hexpected, ← hrest, List.getElem?_append_right (Nat.le_refl _), Nat.sub_self]
    rfl
  obtain ⟨hplace, hvalue⟩ := List.getElem?_eq_some_iff.mp hentry
  rw [getElem?_schedule _ info hfirst (List.getElem?_eq_some_iff.mp hitem).1 hplace, hvalue]

theorem carries_of_sound (hchunkSize : link.config.chunkSize = setup.chunkSize)
    (hmemory : MemorySound (senderSession setup link call) setup.source memory) {task : FileTask}
    {file : FileMetadata} (htask : IsTask (senderSession setup link call) memory task file)
    (hfiles : memory.files = info.items) {raw : Bytes}
    (hraw : ∀ bytes, IsSource setup.basePath setup.source file bytes →
      CarriesChunk setup.codec link.config raw task.next
        (chunkAt bytes link.config.chunkSize.toNat task.next)) :
    Carries setup link.config info (nextItem memory) raw task.next := by
  have hitem : memory.files[nextItem memory]? = some file := htask.item
  obtain ⟨bytes, hbytes⟩ := hmemory.honest file (List.mem_of_getElem? hitem)
  refine ⟨file, bytes, hfiles ▸ hitem, hbytes, ?_⟩
  rw [← hchunkSize]
  exact hraw bytes hbytes

/-- The answer to the checksum sent. -/
theorem moved_compareChecksum (hinfo : WellFormed chunkSize info)
    (hmemory : MemorySound (senderSession setup link call) setup.source memory) {index : Nat}
    {checksum : Digest}
    (hstage : StageSound (senderSession setup link call) setup.source memory
      (.recvChecksum index checksum))
    (htalking : Talking info ⟨memory, .recvChecksum index checksum⟩) {message : Message}
    {rest : List Message} (hhead : link.toSender = message :: rest) :
    SenderMoved setup info call link ⟨memory, .recvChecksum index checksum⟩ move
      (compareChecksum memory index checksum message) { link with toSender := rest } := by
  obtain ⟨_, hfiles, hfirst, _⟩ := htalking
  obtain ⟨file, hfile, rfl, hchecksum⟩ := hstage
  have hconsumed : ({ link with toSender := rest } : Link) = link ∨ ∃ message rest',
      link.toSender = message :: rest' ∧ ({ link with toSender := rest } : Link) =
        { link with toSender := rest' } := Or.inr ⟨message, rest, hhead, rfl⟩
  unfold compareChecksum
  split
  · rename_i peer
    split
    · exact .fails hconsumed nofun
    · rename_i hequal
      have hsame : peer.checksum = checksum := not_not.mp hequal
      subst hsame
      have hcount : nextItem (finishFile memory (nextItem memory)) = nextItem memory + 1 :=
        hmemory.orderly.finishFile_completedFiles
      have hchunks := finishFile_fileChunks memory (nextItem memory)
      have hstart : (finishFile memory (nextItem memory)).fileChunks (nextItem memory + 1) =
          startChunks info (nextItem memory + 1) := by
        rw [hchunks, startChunks_of_ne hinfo (Nat.ne_of_gt (Nat.lt_succ_of_le hfirst))]
        exact hmemory.orderly.later _ (Nat.lt_succ_self _)
      refine .confirms rfl hhead ?_ ⟨trivial, ?_, ?_, ?_, ?_⟩ hcount
      · intro other bytes hother hbytes
        have hsame : file = other := by
          rw [← hfiles] at hother
          exact Option.some.inj (hfile.symm.trans hother)
        exact hchecksum bytes (hsame ▸ hbytes)
      · exact (finishFile_files memory _).trans hfiles
      · rw [hcount]
        exact Nat.le_succ_of_le hfirst
      · rw [hcount]
        exact fun hless => absurd hless (Nat.lt_irrefl _)
      · rw [hcount]
        exact hstart
  · rename_i hother
    refine .fails hconsumed fun _ => Or.inr ⟨message, rest, hhead, hother⟩

theorem senderMoved_of_step (hinfo : WellFormed chunkSize info)
    (hchunkSize : link.config.chunkSize = setup.chunkSize)
    (hsound : SoundStatus (senderSession setup link call) setup.source (.running point))
    (htalking : Talking info point) {input : SenderInput} {after : Link} {next : SenderState}
    (hfed : SenderFed link point (action (senderSession setup link call) point) move input after)
    (hstep : (machine (senderSession setup link call)).step ⟨.running point, setup.source⟩ input =
      some next) :
    SenderMoved setup info call link point move next.status after := by
  have hsize : setup.chunkSize.toNat = (senderSession setup link call).config.chunkSize.toNat :=
    congrArg UInt32.toNat hchunkSize.symm
  cases stepped_of_step hstep with
  | fail hstatus hstore hnext =>
      cases hstatus
      rw [hnext]
      obtain ⟨hmove, rfl⟩ := fail_of_senderFed hfed
      exact .fails (Or.inl rfl) fun _ => Or.inl ⟨_, hmove⟩
  | resume hstatus hreply hnext =>
      rename_i other reply store
      cases hstatus
      rw [hnext]
      obtain ⟨memory, stage⟩ := point
      obtain ⟨hmemory, hstage⟩ := hsound
      dsimp only at hmemory hstage
      change SenderMoved _ _ _ _ _ _ (resume _ ⟨memory, stage⟩ reply) _
      cases stage with
      | begin | scan | sendInfo _ | recvReady => exact htalking.live.elim
      | fileHead index =>
          change SenderFed link _ .compute _ _ _ at hfed
          cases hfed with
          | fail => cases hreply
          | compute =>
              cases hreply
              exact moved_of_goes (goes_visitFile htalking)
      | openSource index =>
          change SenderFed link _ (.perform _) _ _ _ at hfed
          cases hfed with
          | fail => cases hreply
          | perform =>
              obtain ⟨result, hrun, hresult⟩ := Option.map_eq_some_iff.mp hreply
              obtain ⟨bytes, _, hvalue⟩ := Option.map_eq_some_iff.mp hrun
              cases hresult
              cases hvalue
              exact moved_of_goes (goes_openReader htalking hstage.1)
      | chunkHead task =>
          change SenderFed link _ .compute _ _ _ at hfed
          obtain ⟨file, htask, hle, _⟩ := hstage
          cases hfed with
          | fail => cases hreply
          | compute =>
              cases hreply
              refine moved_of_goes ?_
              rw [hsize]
              exact goes_visitChunk htask hle htalking
      | readChunk task position length =>
          change SenderFed link _ (.perform _) _ _ _ at hfed
          cases hfed with
          | fail => cases hreply
          | perform =>
              obtain ⟨result, hrun, hresult⟩ := Option.map_eq_some_iff.mp hreply
              cases hresult
              cases hvalue : result.2 with
              | bytes data => exact moved_of_goes (goes_handleChunk htalking)
              | unit | size _ => exact .goes htalking rfl rfl
      | openStream task raw =>
          change SenderFed link _ (.openStream raw) _ _ _ at hfed
          obtain ⟨file, htask, hless, hfresh, _, hraw⟩ := hstage
          obtain ⟨_, hfiles, hfirst, haligned⟩ := htalking
          cases hfed with
          | fail => cases hreply
          | openStream =>
              cases hreply
              have hplace := getElem?_schedule_sent htask hless hfresh hfiles hfirst haligned
              rw [← hsize] at hplace
              change SenderMoved _ _ _ _ _ _ _ (link.openStream task.index raw)
              rw [htask.index]
              exact .opens rfl hplace (carries_of_sound hchunkSize hmemory htask hfiles hraw)
                ⟨trivial, hfiles, hfirst, haligned⟩ rfl
      | awaitStopped task =>
          change SenderFed link _ .awaitStopped _ _ _ at hfed
          obtain ⟨file, _, _, hfresh, _⟩ := hstage
          cases hfed with
          | fail => cases hreply
          | awaitStopped =>
              cases hreply
              exact moved_of_goes (goes_recordChunk htalking hfresh)
      | sendChecksum index checksum =>
          change SenderFed link _ (.send _) _ _ _ at hfed
          obtain ⟨file, _, rfl, _⟩ := hstage
          cases hfed with
          | fail => cases hreply
          | send =>
              cases hreply
              exact .sends rfl ⟨trivial, htalking.files, htalking.first_le, trivial⟩
      | recvChecksum index checksum =>
          change SenderFed link _ .receive _ _ _ at hfed
          cases hfed with
          | fail => cases hreply
          | receive hhead =>
              cases hreply
              exact moved_compareChecksum hinfo hmemory hstage htalking hhead
      | sendComplete =>
          change SenderFed link _ (.send _) _ _ _ at hfed
          obtain ⟨_, hall⟩ := hstage
          cases hfed with
          | fail => cases hreply
          | send =>
              cases hreply
              refine .completes rfl ?_
              rw [← htalking.files]
              exact hall

end P2PFileTransfer.Transfer.SenderLane
