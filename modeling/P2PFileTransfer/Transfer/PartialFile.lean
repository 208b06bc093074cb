import P2PFileTransfer.Transfer.Tally

/-!
# What a partial file holds

The first chunks of an item are in its partial file: those the manifest counts as
delivered, if they were there when the connection was made, and those written since.
Renaming the file at the end of its chunks gives all of them up.
-/

namespace P2PFileTransfer.Transfer.PartialFile

open P2PFileTransfer.Foundation.ByteFile
open P2PFileTransfer.Foundation.FileSystem
open P2PFileTransfer.Foundation.Process
open P2PFileTransfer.Foundation.UnixPath
open P2PFileTransfer.Core
open P2PFileTransfer.Core.Protocol
open P2PFileTransfer.Core.TransferFile
open P2PFileTransfer.Core.TransferFolder
open P2PFileTransfer.Core.FolderReceiver (alreadySent)
open P2PFileTransfer.Core.FolderSender (IsSource remaining)
open P2PFileTransfer.Transfer.Network
open P2PFileTransfer.Transfer.ReceiverLane
open P2PFileTransfer.Transfer.Schedule
open P2PFileTransfer.Transfer.Streams
open P2PFileTransfer.Transfer.Tally

/-- The partial file of an item holds its first chunks. -/
def Stocked (setup : Setup) (store : Store) (items : List FileMetadata) (index count : Nat) :
    Prop :=
  ∀ file clean bytes, items[index]? = some file → sanitizeRelativePath file.path = .ok clean →
    IsSource setup.basePath setup.source file bytes →
    HoldsSlots store (components (FileReceiver.partialPath (join setup.outputDir clean))) bytes
      setup.chunkSize.toNat count

/-- What the manifest counts as delivered is there, from an item on. -/
def Resumable (setup : Setup) (info : TransferInfo) (store : Store) (index : Nat) : Prop :=
  ∀ later, index ≤ later → 0 < alreadySent info later →
    Stocked setup store info.items later (alreadySent info later)

/-- What the partial file of the item at hand holds. -/
def FileStocked (setup : Setup) (info : TransferInfo) (store : Store) (index : Nat)
    (task : FileReceiver.Task) : FileReceiver.Stage → Prop
  | .begin | .createParent _ | .openPartial _ =>
      0 < alreadySent info index → Stocked setup store info.items index (alreadySent info index)
  | .setLen _ => Stocked setup store info.items index (alreadySent info index)
  | .acceptUni seen => Stocked setup store info.items index (alreadySent info index + seen.length)
  | .writeChunk seen _ _ _ =>
      Stocked setup store info.items index (alreadySent info index + (seen.length - 1))
  | .rename => Stocked setup store info.items index (alreadySent info index + task.streamsToReceive)
  | .reread | .sendChecksum _ | .recvChecksum _ => True

def FileStockedStatus (setup : Setup) (info : TransferInfo) (store : Store) (index : Nat)
    (task : FileReceiver.Task) : Status FileReceiver.Stage Unit Error → Prop
  | .running stage | .failed stage _ | .panicked stage _ => FileStocked setup info store index task stage
  | .returned _ => True

def PointStocked (setup : Setup) (info : TransferInfo) (store : Store) :
    FolderReceiver.Point → Prop
  | .prepare | .recvInfo | .decide _ | .sendCancel | .createOutputDir _ | .sendReady _ =>
      Resumable setup info store 0
  | .fileHead _ index | .createParent _ index _ => Resumable setup info store index
  | .file _ index task stage => FileStocked setup info store index task stage
  | .recvComplete _ => True

/-- A call that ended has left what it held; one that was declined has touched nothing. -/
def StatusStocked (setup : Setup) (info : TransferInfo) (store : Store) :
    FolderReceiver.PointStatus → Prop
  | .running point | .failed point _ | .panicked point _ => PointStocked setup info store point
  | .returned summary => summary = .default → Resumable setup info store 0

variable {setup : Setup} {info : TransferInfo} {items : List FileMetadata} {store after : Store}
  {index count accepted : Nat}

theorem Stocked.mono (hstocked : Stocked setup store items index count) {fewer : Nat}
    (hfewer : fewer ≤ count) : Stocked setup store items index fewer :=
  fun file clean bytes hfile hclean hbytes =>
    (hstocked file clean bytes hfile hclean hbytes).mono hfewer

/-- The item of a task has its partial file where the task says. -/
theorem stocked_iff {session : FolderReceiver.Session} {task : FileReceiver.Task}
    (houtput : session.outputDir = setup.outputDir)
    (hreceives : FolderReceiver.Receives session info index task.path) :
    Stocked setup store info.items index count ↔
      ∀ file bytes, info.items[index]? = some file →
        IsSource setup.basePath setup.source file bytes →
        HoldsSlots store task.partialLocation bytes setup.chunkSize.toNat count := by
  obtain ⟨file, clean, hfile, hclean, hpath⟩ := hreceives.path
  rw [FileReceiver.Task.partialLocation, hpath, houtput]
  constructor
  · intro hstocked other bytes hother hbytes
    cases hfile.symm.trans hother
    exact hstocked file clean bytes hfile hclean hbytes
  · intro hholds other path bytes hother hpath hbytes
    cases hfile.symm.trans hother
    cases hclean.symm.trans hpath
    exact hholds file bytes hfile hbytes

section Manifest

variable (hinfo : WellFormed setup.chunkSize.toNat info)
  (hstarted : ∃ count, startChunks info (firstItem info) = List.range count)

include hinfo

/-- Only the first item can have been begun before. -/
theorem alreadySent_of_ne (hne : index ≠ firstItem info) : alreadySent info index = 0 := by
  rw [← length_startChunks, startChunks_of_ne hinfo hne]
  rfl

theorem resumable_behind (hfirst : firstItem info ≤ index) :
    Resumable setup info store (index + 1) := by
  intro later hlater hpos
  rw [alreadySent_of_ne hinfo (by omega)] at hpos
  exact absurd hpos (Nat.lt_irrefl 0)

include hstarted

theorem startChunks_eq (index : Nat) : startChunks info index = List.range (alreadySent info index) := by
  rw [← length_startChunks]
  by_cases hfirst : index = firstItem info
  · obtain ⟨count, hcount⟩ := hstarted
    rw [hfirst, hcount, List.length_range]
  · rw [startChunks_of_ne hinfo hfirst]
    rfl

theorem alreadySent_le {file : FileMetadata} (hfile : info.items[index]? = some file) :
    alreadySent info index ≤ chunksOf file.size setup.chunkSize.toNat := by
  refine le_of_range_lt ?_
  rw [← startChunks_eq hinfo hstarted index]
  exact startChunks_lt hinfo hfile

/-- The streams of an item carry the chunks behind those delivered, one after the other. -/
theorem chunk_of_expected {file : FileMetadata} (hfile : info.items[index]? = some file)
    {place chunk : Nat} (hplace : (expected setup.chunkSize.toNat info index)[place]? = some chunk) :
    chunk = alreadySent info index + place := by
  have hall := range_append_remaining (alreadySent_le hinfo hstarted hfile)
  rw [expected, hfile, startChunks_eq hinfo hstarted index] at hplace
  have hentry : (List.range (chunksOf file.size setup.chunkSize.toNat))[
      alreadySent info index + place]? = some chunk := by
    rw [← hall, List.getElem?_append_right (by simp), List.length_range, Nat.add_sub_cancel_left]
    exact hplace
  obtain ⟨_, hvalue⟩ := List.getElem?_eq_some_iff.mp hentry
  rw [List.getElem_range] at hvalue
  exact hvalue.symm

/-- The chunk to be written is the first that is missing. -/
theorem chunk_of_seen {file : FileMetadata} (hfile : info.items[index]? = some file)
    {seen : List Nat} {chunk : Nat}
    (hseen : seen.reverse = (expected setup.chunkSize.toNat info index).take seen.length)
    (hhead : seen.head? = some chunk) : chunk = alreadySent info index + (seen.length - 1) := by
  obtain ⟨rest, rfl⟩ := List.head?_eq_some_iff.mp hhead
  refine chunk_of_expected hinfo hstarted hfile ?_
  have hplace : ((expected setup.chunkSize.toNat info index).take (rest.length + 1))[rest.length]? =
      some chunk := by
    rw [← List.length_cons, ← hseen, List.reverse_cons, List.getElem?_append_right (by simp)]
    simp
  rw [List.getElem?_take, if_pos (Nat.lt_succ_self _)] at hplace
  exact hplace

end Manifest

/-! ## The call that receives an item -/

theorem stocked_continueLoop {task : FileReceiver.Task} {seen : List Nat}
    (hstocked : Stocked setup store info.items index (alreadySent info index + seen.length)) :
    FileStockedStatus setup info store index task (FileReceiver.continueLoop task seen) := by
  rcases FileReceiver.continueLoop_cases task seen with ⟨_, hresult⟩ | ⟨hdone, hresult⟩
  · rw [hresult]
    exact hstocked
  · rw [hresult]
    exact hstocked.mono (Nat.add_le_add_left hdone _)

/-- The stages that leave the files alone. -/
theorem stocked_quiet {session : FileReceiver.Session} {task : FileReceiver.Task}
    {stage : FileReceiver.Stage} {reply : Reply Message Bool}
    (hfits : (FileReceiver.action session task stage).Fits reply)
    (hquiet : (FileReceiver.action session task stage).written = [])
    (hstocked : FileStocked setup info store index task stage) :
    FileStockedStatus setup info store index task (FileReceiver.resume session task stage reply) := by
  refine FileReceiver.resume_elim (motive := fun stage status =>
      (FileReceiver.action session task stage).written = [] →
      FileStocked setup info store index task stage →
      FileStockedStatus setup info store index task status)
    ?begin ?parent ?opened ?setLen ?accept ?write ?rename ?reread ?noBytes ?send ?recv
    stage reply hfits hquiet hstocked
  case begin =>
      intro _ hresumable
      rcases FileReceiver.openWriter_cases session task with
        ⟨_, hresult, _⟩ | ⟨_, hresult⟩ | ⟨_, hresult⟩ | ⟨_, hresult⟩ <;> rw [hresult] <;>
        exact hresumable
  case parent => exact fun _ _ hresumable => hresumable
  case opened | setLen => exact fun _ hwritten => absurd hwritten (List.cons_ne_nil _ _)
  case accept =>
      intro seen raw _ hheld
      rcases FileReceiver.handleStream_cases session task seen raw with
        ⟨_, _, hresult⟩ | ⟨_, hresult⟩ | ⟨_, _, _, ⟨_, hresult, _⟩ | hresult⟩ <;> rw [hresult] <;>
        exact hheld
  case write => exact fun _ _ _ _ hwritten => absurd hwritten (List.cons_ne_nil _ _)
  case rename => exact fun hwritten => absurd hwritten (List.cons_ne_nil _ _)
  case reread | send => exact fun _ _ _ => trivial
  case noBytes => exact fun _ _ => trivial
  case recv =>
      intro checksum message _ _
      rcases FileReceiver.compareChecksum_cases task checksum message with
        ⟨_, hresult⟩ | ⟨hresult, _⟩ <;> rw [hresult] <;> trivial

section Files

variable {session : FolderReceiver.Session} {plan : FolderReceiver.Plan} {task : FileReceiver.Task}
  (hinfo : WellFormed setup.chunkSize.toNat info)
  (hstarted : ∃ count, startChunks info (firstItem info) = List.range count)
  (houtput : session.outputDir = setup.outputDir)
  (hchunkSize : session.config.chunkSize = setup.chunkSize)
  (htask : FolderReceiver.IsTask session info index task)

include houtput htask

theorem stocked_openCreate {value : Value} (hresumable : 0 < count →
      Stocked setup store info.items index count)
    (hrun : (Operation.openCreate task.partialLocation).run store = some (after, value)) :
    Stocked setup after info.items index count := by
  refine (stocked_iff houtput htask.receives).mpr fun file bytes hfile hbytes => ?_
  exact .openCreate (fun hpos =>
    (stocked_iff houtput htask.receives).mp (hresumable hpos) file bytes hfile hbytes) hrun

include hinfo hstarted hchunkSize

/-- Cutting the file to the size of its chunks keeps those delivered. -/
theorem stocked_shrink {value : Value}
    (hstocked : Stocked setup store info.items index (alreadySent info index))
    (hrun : (Operation.shrink task.partialLocation
      (task.totalChunks * session.config.chunkSize.toNat)).run store = some (after, value)) :
    Stocked setup after info.items index (alreadySent info index) := by
  refine (stocked_iff houtput htask.receives).mpr fun file bytes hfile hbytes => ?_
  have hcount := htask.totalChunks file hfile
  rw [hchunkSize] at hcount hrun
  have hle := alreadySent_le hinfo hstarted hfile
  rw [← FolderSender.eq_chunksOf_of_chunkCount hcount] at hle
  exact ((stocked_iff houtput htask.receives).mp hstocked file bytes hfile hbytes).shrink
    (Nat.mul_le_mul_right _ hle) hrun

/-- A chunk that is written is the first that was missing. -/
theorem stocked_write {seen : List Nat} {chunk offset : Nat} {data : Bytes} {value : Value}
    (hsound : FileReceiver.Stage.Sound (FolderReceiver.fileSession session info) task
      (.writeChunk seen chunk offset data))
    (htook : FileTook setup info index accepted (.writeChunk seen chunk offset data))
    (hstocked : FileStocked setup info store index task (.writeChunk seen chunk offset data))
    (hrun : (Operation.write task.partialLocation offset data).run store = some (after, value)) :
    Stocked setup after info.items index (alreadySent info index + seen.length) := by
  obtain ⟨_, _, _, hmem, hoffset⟩ := hsound
  obtain ⟨_, hseen, hhead, other, source, hother, hsource, hdata⟩ := htook
  have hpos := List.length_pos_of_mem hmem
  refine (stocked_iff houtput htask.receives).mpr fun file bytes hfile hbytes => ?_
  obtain rfl : file = other := Option.some.inj (hfile.symm.trans hother)
  have hsame : source = bytes := Option.some.inj (hsource.contents.symm.trans hbytes.contents)
  have hchunk := chunk_of_seen hinfo hstarted hfile hseen hhead
  have hholds := (stocked_iff houtput htask.receives).mp hstocked file bytes hfile hbytes
  have hnext := hholds.writeAt_next
  have hcount : alreadySent info index + (seen.length - 1) + 1 =
      alreadySent info index + seen.length := by omega
  change offset = chunk * session.config.chunkSize.toNat at hoffset
  rw [hcount, ← hchunk, ← hsame, ← hdata, ← hchunkSize, ← hoffset] at hnext
  rw [← hsame, ← hchunkSize]
  cases hrun
  exact hnext

/-- What an interrupted write leaves. -/
theorem stocked_interrupted {stage : FileReceiver.Stage} {written : Nat}
    (hsound : stage.Sound (FolderReceiver.fileSession session info) task)
    (htook : FileTook setup info index accepted stage)
    (hstocked : FileStocked setup info store index task stage)
    (hfail : (FileReceiver.action (FolderReceiver.fileSession session info) task
      stage).interrupted written store = some after) :
    FileStocked setup info after index task stage := by
  cases stage with
  | begin => cases hfail
  | createParent _ | openPartial _ | setLen _ | acceptUni _ | rename | reread | sendChecksum _
  | recvChecksum _ =>
      cases hfail
      exact hstocked
  | writeChunk seen chunk offset data =>
      cases hfail
      obtain ⟨_, _, _, _, hoffset⟩ := hsound
      obtain ⟨_, hseen, hhead, other, source, hother, _, hdata⟩ := htook
      refine (stocked_iff houtput htask.receives).mpr fun file bytes hfile hbytes => ?_
      have hchunk := chunk_of_seen hinfo hstarted hfile hseen hhead
      have hfits : (data.take written).length ≤ setup.chunkSize.toNat := by
        refine Nat.le_trans (List.length_take_le' _ _) ?_
        rw [hdata]
        exact length_chunkAt_le _ _ _
      have hholds := (stocked_iff houtput htask.receives).mp hstocked file bytes hfile hbytes
      have hlater := hholds.writeAt_later (Nat.le_of_eq hchunk.symm) hfits
      change offset = chunk * session.config.chunkSize.toNat at hoffset
      rw [hoffset, hchunkSize]
      exact hlater

/-- Every step of the call keeps what the partial file holds. -/
theorem stocked_file {stage : FileReceiver.Stage} {input : FolderReceiver.ReceiverInput}
    {reply : Reply Message Bool}
    (hsound : stage.Sound (FolderReceiver.fileSession session info) task)
    (htook : FileTook setup info index accepted stage)
    (hstocked : FileStocked setup info store index task stage)
    (hreply : (FileReceiver.action (FolderReceiver.fileSession session info) task stage).reply input
      store = some (reply, after)) :
    FileStockedStatus setup info after index task
      (FileReceiver.resume (FolderReceiver.fileSession session info) task stage reply) := by
  have hquiet : (FileReceiver.action (FolderReceiver.fileSession session info) task
      stage).written = [] → FileStockedStatus setup info after index task
        (FileReceiver.resume (FolderReceiver.fileSession session info) task stage reply) := by
    intro hnone
    have hsame : after = store := by
      funext location
      exact Action.reply_frame hreply (hnone ▸ List.not_mem_nil)
    rw [hsame]
    exact stocked_quiet (Action.fits_of_reply hreply) hnone hstocked
  cases stage with
  | begin | createParent _ | acceptUni _ | reread | sendChecksum _ | recvChecksum _ => exact hquiet rfl
  | openPartial expectedFileSize =>
      obtain ⟨_, value, rfl, hrun⟩ := Action.performed hreply
      exact stocked_openCreate houtput htask hstocked hrun
  | setLen expectedFileSize =>
      obtain ⟨_, value, rfl, hrun⟩ := Action.performed hreply
      rw [hsound.2] at hrun
      exact stocked_continueLoop
        (stocked_shrink hinfo hstarted houtput hchunkSize htask hstocked hrun)
  | writeChunk seen chunk offset data =>
      obtain ⟨_, value, rfl, hrun⟩ := Action.performed hreply
      exact stocked_continueLoop
        (stocked_write hinfo hstarted houtput hchunkSize htask hsound htook hstocked hrun)
  | rename =>
      obtain ⟨_, value, rfl, _⟩ := Action.performed hreply
      trivial

end Files

/-! ## The whole call -/

theorem Resumable.mono (hresumable : Resumable setup info store index) {later : Nat}
    (hlater : index ≤ later) : Resumable setup info store later :=
  fun other hother => hresumable other (Nat.le_trans hlater hother)

section Folder

variable {session : FolderReceiver.Session} {plan : FolderReceiver.Plan}
  {point : FolderReceiver.Point}

theorem stocked_started {size : Nat} {fullPath : OsStr} {status : FolderReceiver.PointStatus}
    (hresumable : Resumable setup info store index) (hpoint : PointStocked setup info store point)
    (hstarted : FolderReceiver.Started session plan point index size fullPath status) :
    StatusStocked setup info store status := by
  cases hstarted with
  | overflows _ => exact hpoint
  | begins _ => exact hresumable index le_rfl

theorem stocked_visited {status : FolderReceiver.PointStatus}
    (hresumable : Resumable setup info store index)
    (hvisited : FolderReceiver.Visited session plan index status) :
    StatusStocked setup info store status := by
  cases hvisited with
  | ends _ => trivial
  | skips _ _ => exact hresumable.mono (Nat.le_succ index)
  | refuses _ _ | creates _ _ _ => exact hresumable
  | starts _ _ _ hstarted => exact @stocked_started _ _ _ _ _ _ (.fileHead plan index) _ _ _ hresumable hresumable hstarted

theorem summary_ne_default (hadmitted : FolderReceiver.Admitted plan.info) :
    FolderReceiver.summary plan ≠ .default := by
  intro hdefault
  have hfiles := congrArg FolderReceiver.TransferSummary.files hdefault
  exact hadmitted.nonempty (List.map_eq_nil_iff.mp hfiles)

/-- Between two items nothing is given up. -/
theorem stocked_between {reply : Reply Message Bool} (hsound : point.Sound session)
    (hfits : (FolderReceiver.action session point).Fits reply)
    (hbetween : ∀ plan index task stage, point ≠ .file plan index task stage)
    (hstocked : PointStocked setup info store point) :
    StatusStocked setup info store (FolderReceiver.resume session point reply) := by
  refine FolderReceiver.resume_elim (motive := fun point status => point.Sound session →
      (∀ plan index task stage, point ≠ .file plan index task stage) →
      PointStocked setup info store point → StatusStocked setup info store status)
    ?prepare ?info ?accept ?reject ?cancel ?output ?ready ?head ?parent ?file ?complete
    point reply hfits hsound hbetween hstocked
  case prepare => exact fun _ _ hresumable => hresumable
  case info =>
      intro message status hread _ _ hresumable
      cases hread <;> exact hresumable
  case accept =>
      intro other status hplanned _ _ hresumable
      cases hplanned <;> exact hresumable
  case reject | output | ready => exact fun _ _ _ hresumable => hresumable
  case cancel => exact fun _ _ hresumable _ => hresumable
  case head => exact fun plan index status hvisited _ _ hresumable => stocked_visited hresumable hvisited
  case parent =>
      intro plan index fullPath status hstarted _ _ hresumable
      exact @stocked_started _ _ _ _ _ _ (.createParent plan index fullPath) _ _ _ hresumable
        hresumable hstarted
  case file => exact fun plan index task stage _ _ _ hno _ => absurd rfl (hno plan index task stage)
  case complete => exact fun plan hadmitted _ _ hdefault => absurd hdefault (summary_ne_default hadmitted)

theorem written_between (hbetween : ∀ plan index task stage, point ≠ .file plan index task stage) :
    (FolderReceiver.action session point).written = [] := by
  cases point with
  | file plan index task stage => exact absurd rfl (hbetween plan index task stage)
  | prepare | recvInfo | decide _ | sendCancel | createOutputDir _ | sendReady _ => rfl
  | fileHead _ _ | createParent _ _ _ | recvComplete _ => rfl

/-- Every step of a call keeps what it has. -/
theorem stocked_step (hinfo : WellFormed setup.chunkSize.toNat info)
    (hstarted : ∃ count, startChunks info (firstItem info) = List.range count)
    (houtput : session.outputDir = setup.outputDir)
    (hchunkSize : session.config.chunkSize = setup.chunkSize) (hsound : point.Sound session)
    (hknows : Knows info point) (htook : Took setup info accepted point)
    {state next : FolderReceiver.ReceiverState} (hpoint : state.status = .running point)
    (hstocked : PointStocked setup info state.store point) {input : FolderReceiver.ReceiverInput}
    (hstep : (FolderReceiver.machine session).step state input = some next) :
    StatusStocked setup info next.store next.status := by
  obtain ⟨status, store⟩ := state
  cases hpoint
  by_cases hfile : ∃ plan index task stage, point = .file plan index task stage
  · obtain ⟨plan, index, task, stage, rfl⟩ := hfile
    have hplan : plan.info = info := hknows.resolve_left id
    subst hplan
    have hfirst := firstItem_le_of_item hinfo hsound rfl rfl
    obtain ⟨_, htask, hstage⟩ := hsound
    cases stepped_of_step hstep with
    | fail hstatus hstore hnext =>
        cases hstatus
        rw [hnext]
        exact stocked_interrupted hinfo hstarted houtput hchunkSize htask hstage htook hstocked hstore
    | resume hstatus hreply hnext =>
        cases hstatus
        rw [hnext]
        have hinner := stocked_file hinfo hstarted houtput hchunkSize htask hstage htook hstocked
          hreply
        rename_i reply after
        change StatusStocked setup plan.info after ((FileReceiver.resume
          (FolderReceiver.fileSession session plan.info) task stage reply).embed
            (.file plan index task) _)
        cases hresult : FileReceiver.resume (FolderReceiver.fileSession session plan.info) task stage
            reply with
        | running _ | failed _ _ | panicked _ _ =>
            rw [hresult] at hinner
            exact hinner
        | returned done => exact resumable_behind hinfo hfirst
  · have hbetween : ∀ plan index task stage, point ≠ .file plan index task stage :=
      fun plan index task stage heq => hfile ⟨plan, index, task, stage, heq⟩
    have hnone := @written_between session point hbetween
    have hsame : next.store = store := by
      funext location
      refine step_frame hstep fun other hother => ?_
      cases hother
      change location ∉ (FolderReceiver.action session point).written
      rw [hnone]
      exact List.not_mem_nil
    rw [hsame]
    cases stepped_of_step hstep with
    | fail hstatus hstore hnext =>
        cases hstatus
        rw [hnext]
        exact hstocked
    | resume hstatus hreply hnext =>
        cases hstatus
        rw [hnext]
        exact stocked_between hsound (Action.fits_of_reply hreply) hbetween hstocked

end Folder

/-! ## What the place of a receiver shows -/

/-- How many streams of its item a call has written to the partial file, as long as it has
one. -/
def stageWritten (task : FileReceiver.Task) : FileReceiver.Stage → Option Nat
  | .begin | .createParent _ | .openPartial _ | .setLen _ => some 0
  | .acceptUni seen => some seen.length
  | .writeChunk seen _ _ _ => some (seen.length - 1)
  | .rename => some task.streamsToReceive
  | .reread | .sendChecksum _ | .recvChecksum _ => none

def pointWritten (index : Nat) : FolderReceiver.Point → Option Nat
  | .prepare | .recvInfo | .decide _ | .sendCancel | .createOutputDir _ | .sendReady _ => some 0
  | .fileHead _ current | .createParent _ current _ => if current ≤ index then some 0 else none
  | .file _ current task stage => if current = index then stageWritten task stage else none
  | .recvComplete _ => none

/-- How many streams of item `index` the last call of the receiver has written to its
partial file; none when the partial file is gone. -/
def written (index : Nat) : FolderReceiver.PointStatus → Option Nat
  | .running point | .failed point _ | .panicked point _ => pointWritten index point
  | .returned summary => if summary = .default then some 0 else none

theorem stocked_of_stageWritten {task : FileReceiver.Task} {stage : FileReceiver.Stage}
    (hstocked : FileStocked setup info store index task stage)
    (hwritten : stageWritten task stage = some count) (hpos : 0 < alreadySent info index + count) :
    Stocked setup store info.items index (alreadySent info index + count) := by
  cases stage <;> cases hwritten
  case begin | createParent | openPartial => exact hstocked hpos
  case setLen | acceptUni | writeChunk | rename => exact hstocked

theorem stocked_of_pointWritten {point : FolderReceiver.Point}
    (hstocked : PointStocked setup info store point) (hwritten : pointWritten index point = some count)
    (hpos : 0 < alreadySent info index + count) :
    Stocked setup store info.items index (alreadySent info index + count) := by
  cases point with
  | prepare | recvInfo | decide _ | sendCancel | createOutputDir _ | sendReady _ =>
      cases hwritten
      exact hstocked index (Nat.zero_le _) hpos
  | fileHead _ current | createParent _ current _ =>
      rw [pointWritten] at hwritten
      split at hwritten
      · rename_i hcurrent
        cases hwritten
        exact hstocked index hcurrent hpos
      · cases hwritten
  | file plan current task stage =>
      rw [pointWritten] at hwritten
      split at hwritten
      · rename_i hcurrent
        subst hcurrent
        exact stocked_of_stageWritten hstocked hwritten hpos
      · cases hwritten
  | recvComplete _ => cases hwritten

/-- What has been written is there, behind what the manifest counts as delivered. -/
theorem stocked_of_written {status : FolderReceiver.PointStatus}
    (hstocked : StatusStocked setup info store status) (hwritten : written index status = some count)
    (hpos : 0 < alreadySent info index + count) :
    Stocked setup store info.items index (alreadySent info index + count) := by
  cases status with
  | running point | failed point _ | panicked point _ =>
      exact stocked_of_pointWritten hstocked hwritten hpos
  | returned summary =>
      rw [written] at hwritten
      split at hwritten
      · rename_i hdefault
        cases hwritten
        exact hstocked hdefault index (Nat.zero_le _) hpos
      · cases hwritten

end P2PFileTransfer.Transfer.PartialFile
