import P2PFileTransfer.Core.FileReceiver

/-!
# Receiving a folder

`receive_to` and the `receive_folder` call it makes, down to the calls that
receive one file each.  The accept policy is a question to the environment.  All
byte counts are checked 64-bit expressions, evaluated in the order of the code.
A state file is only read for a log line and is left out.
-/

namespace P2PFileTransfer.Core.FolderReceiver

open P2PFileTransfer.Foundation.ByteFile
open P2PFileTransfer.Foundation.FileSystem
open P2PFileTransfer.Foundation.FixedWidth
open P2PFileTransfer.Foundation.Process
open P2PFileTransfer.Foundation.UnixPath
open P2PFileTransfer.Core.Protocol
open P2PFileTransfer.Core.TransferFile
open P2PFileTransfer.Core.TransferFolder

/-- What one call is given. -/
structure Session where
  codec : Codec
  config : ConfigMessage
  outputDir : OsStr

structure TransferSummary where
  rootName : OsStr
  files : List OsStr
  bytes : Nat
  deriving DecidableEq, Repr

def TransferSummary.default : TransferSummary where
  rootName := []
  files := []
  bytes := 0

/-- An accepted manifest with its byte counts. -/
structure Plan where
  info : TransferInfo
  totalBytes : Nat
  alreadyTransferred : Nat
  deriving DecidableEq, Repr

inductive Point where
  | prepare
  | recvInfo
  | decide (info : TransferInfo)
  | sendCancel
  | createOutputDir (plan : Plan)
  | sendReady (plan : Plan)
  | fileHead (plan : Plan) (index : Nat)
  | createParent (plan : Plan) (index : Nat) (fullPath : OsStr)
  | file (plan : Plan) (index : Nat) (task : FileReceiver.Task) (stage : FileReceiver.Stage)
  | recvComplete (plan : Plan)
  deriving DecidableEq, Repr

abbrev PointStatus := Status Point TransferSummary Error

def fileSession (session : Session) (info : TransferInfo) : FileReceiver.Session where
  codec := session.codec
  config := session.config
  transferId := info.transferId

def action (session : Session) : Point → Action Message
  | .prepare | .createOutputDir _ => .perform (.createDirAll (components session.outputDir))
  | .recvInfo | .recvComplete _ => .receive
  | .decide _ => .ask
  | .sendCancel => .send .cancel
  | .sendReady _ => .send .ready
  | .fileHead _ _ => .compute
  | .createParent _ _ fullPath => .perform (.createDirAll ((parent fullPath).getD []))
  | .file plan _ task stage => FileReceiver.action (fileSession session plan.info) task stage

/-- The first size above the bound decides. -/
def validateSizes : List FileMetadata → Except Error Unit
  | [] => .ok ()
  | file :: rest =>
      match validateFileSize file.size with
      | .error error => .error error
      | .ok () => validateSizes rest

def readManifest (message : Message) : PointStatus :=
  match message with
  | .transferInfo info =>
      if info.items = [] then .failed .recvInfo (.protocol [.text "No files in transfer"])
      else .ofExcept .recvInfo (validateSizes info.items) fun _ => .running (.decide info)
  | other => .failed .recvInfo (.protocol [.text "Expected TransferInfo, got ", .message other])

/-- The bytes a resume point accounts for. -/
def alreadyTransferred (chunkSize : UInt32) (info : TransferInfo) : Checked Nat :=
  match info.resumeFrom with
  | none => .ok 0
  | some point => do
      let before ← sum 64 0 ((info.items.take point.fileIndex).map FileMetadata.size)
      match info.items[point.fileIndex]? with
      | none => .ok before
      | some file =>
          let totalChunks ← chunkCount file.size chunkSize
          let added ←
            if point.completedChunks.length < totalChunks then
              mul 64 point.completedChunks.length chunkSize.toNat
            else .ok file.size
          add 64 before added

def makePlan (chunkSize : UInt32) (info : TransferInfo) : Checked Plan := do
  let totalBytes ← sum 64 0 (info.items.map FileMetadata.size)
  let already ← alreadyTransferred chunkSize info
  .ok { info := info, totalBytes := totalBytes, alreadyTransferred := already }

/-- The chunks of file `index` the sender counts as delivered. -/
def alreadySent (info : TransferInfo) (index : Nat) : Nat :=
  match info.resumeFrom with
  | none => 0
  | some point => if point.fileIndex = index then point.completedChunks.length else 0

def skips (info : TransferInfo) (index : Nat) : Bool :=
  decide (truncate 32 index ∈ info.completedFiles)

/-- The call that receives file `index`. -/
def startFile (session : Session) (plan : Plan) (point : Point) (index : Nat) (size : Nat)
    (fullPath : OsStr) : PointStatus :=
  .ofChecked point (chunkCount size session.config.chunkSize) fun totalChunks =>
    .running (.file plan index
      { path := fullPath
        fileIndex := truncate 32 index
        totalChunks := totalChunks
        streamsToReceive := totalChunks - alreadySent plan.info index } .begin)

def visitFile (session : Session) (plan : Plan) (index : Nat) : PointStatus :=
  match plan.info.items[index]? with
  | none => .running (.recvComplete plan)
  | some file =>
      if skips plan.info index then .running (.fileHead plan (index + 1))
      else
        .ofExcept (.fileHead plan index) (sanitizeRelativePath file.path) fun relativePath =>
          match parent (join session.outputDir relativePath) with
          | some _ => .running (.createParent plan index (join session.outputDir relativePath))
          | none =>
              startFile session plan (.fileHead plan index) index file.size
                (join session.outputDir relativePath)

def summary (plan : Plan) : TransferSummary where
  rootName := (plan.info.items.head?.map FileMetadata.path).getD []
  files := plan.info.items.map FileMetadata.path
  bytes := plan.totalBytes - plan.alreadyTransferred

/-- The last branch is never taken: a wait is answered in kind. -/
def resume (session : Session) : Point → Reply Message Bool → PointStatus
  | .prepare, .value _ => .running .recvInfo
  | .recvInfo, .message message => readManifest message
  | .decide info, .answer accept =>
      if accept then
        .ofChecked (.decide info) (makePlan session.config.chunkSize info) fun plan =>
          .running (.createOutputDir plan)
      else .running .sendCancel
  | .sendCancel, .done => .returned .default
  | .createOutputDir plan, .value _ => .running (.sendReady plan)
  | .sendReady plan, .done => .running (.fileHead plan 0)
  | .fileHead plan index, .done => visitFile session plan index
  | .createParent plan index fullPath, .value _ =>
      startFile session plan (.createParent plan index fullPath) index
        ((plan.info.items[index]?.map FileMetadata.size).getD 0) fullPath
  | .file plan index task stage, reply =>
      (FileReceiver.resume (fileSession session plan.info) task stage reply).embed
        (.file plan index task) fun _ => .running (.fileHead plan (index + 1))
  | .recvComplete plan, .message _ => .returned (summary plan)
  | point, _ => .running point

def machine (session : Session) : Machine Point TransferSummary Message Bool Error where
  action := action session
  resume := resume session

abbrev ReceiverState := State Point TransferSummary Error

abbrev ReceiverInput := Input Message Bool Error

/-- A call of `receive_to` over the files that are there. -/
def start (store : Store) : ReceiverState := ⟨.running .prepare, store⟩

abbrev run (session : Session) : ReceiverState → List ReceiverInput → Option ReceiverState :=
  Foundation.Run.run (machine session).step

variable {session : Session}

/-! ## What follows a point -/

/-- What reading a message as the manifest leads to. -/
inductive ManifestRead : Message → PointStatus → Prop where
  | refused {message : Message} {error : Error} : ManifestRead message (.failed .recvInfo error)
  | admitted {info : TransferInfo} (hnonempty : info.items ≠ [])
      (hvalid : validateSizes info.items = .ok ()) :
      ManifestRead (.transferInfo info) (.running (.decide info))

theorem manifestRead (message : Message) : ManifestRead message (readManifest message) := by
  unfold readManifest
  split
  · rename_i info
    split
    · exact .refused
    · rename_i hnonempty
      cases hvalid : validateSizes info.items with
      | error error => exact .refused
      | ok done => exact .admitted hnonempty hvalid
  · exact .refused

/-- The arguments of the call that receives file `index`. -/
def taskOf (plan : Plan) (index totalChunks : Nat) (fullPath : OsStr) : FileReceiver.Task where
  path := fullPath
  fileIndex := truncate 32 index
  totalChunks := totalChunks
  streamsToReceive := totalChunks - alreadySent plan.info index

/-- What starting the call for a file leads to. -/
inductive Started (session : Session) (plan : Plan) (point : Point) (index size : Nat)
    (fullPath : OsStr) : PointStatus → Prop where
  | overflows {fault : Fault} (hcount : chunkCount size session.config.chunkSize = .error fault) :
      Started session plan point index size fullPath (.panicked point fault)
  | begins {totalChunks : Nat}
      (hcount : chunkCount size session.config.chunkSize = .ok totalChunks) :
      Started session plan point index size fullPath
        (.running (.file plan index (taskOf plan index totalChunks fullPath) .begin))

theorem started (session : Session) (plan : Plan) (point : Point) (index size : Nat)
    (fullPath : OsStr) :
    Started session plan point index size fullPath
      (startFile session plan point index size fullPath) := by
  rw [startFile]
  cases hcount : chunkCount size session.config.chunkSize with
  | error fault => exact .overflows hcount
  | ok totalChunks => exact .begins hcount

/-- What the head of the file loop leads to. -/
inductive Visited (session : Session) (plan : Plan) (index : Nat) : PointStatus → Prop where
  | ends (hnone : plan.info.items[index]? = none) :
      Visited session plan index (.running (.recvComplete plan))
  | skips {file : FileMetadata} (hfile : plan.info.items[index]? = some file)
      (hskip : skips plan.info index = true) :
      Visited session plan index (.running (.fileHead plan (index + 1)))
  | refuses {file : FileMetadata} {error : Error} (hfile : plan.info.items[index]? = some file)
      (hsanitize : sanitizeRelativePath file.path = .error error) :
      Visited session plan index (.failed (.fileHead plan index) error)
  | creates {file : FileMetadata} {relativePath : OsStr}
      (hfile : plan.info.items[index]? = some file) (hskip : ¬ skips plan.info index = true)
      (hsanitize : sanitizeRelativePath file.path = .ok relativePath) :
      Visited session plan index
        (.running (.createParent plan index (join session.outputDir relativePath)))
  | starts {file : FileMetadata} {relativePath : OsStr} {status : PointStatus}
      (hfile : plan.info.items[index]? = some file) (hskip : ¬ skips plan.info index = true)
      (hsanitize : sanitizeRelativePath file.path = .ok relativePath)
      (hstarted : Started session plan (.fileHead plan index) index file.size
        (join session.outputDir relativePath) status) : Visited session plan index status

theorem visited (session : Session) (plan : Plan) (index : Nat) :
    Visited session plan index (visitFile session plan index) := by
  unfold visitFile
  split
  · rename_i hnone
    exact .ends hnone
  · rename_i file hfile
    split
    · rename_i hskip
      exact .skips hfile hskip
    · rename_i hskip
      cases hsanitize : sanitizeRelativePath file.path with
      | error error => exact .refuses hfile hsanitize
      | ok relativePath =>
          simp only [Status.ofExcept]
          split
          · exact .creates hfile hskip hsanitize
          · exact .starts hfile hskip hsanitize (started _ _ _ _ _ _)

/-- The fate of an accepted manifest. -/
inductive Planned (session : Session) (info : TransferInfo) : PointStatus → Prop where
  | overflows {fault : Fault} (hplan : makePlan session.config.chunkSize info = .error fault) :
      Planned session info (.panicked (.decide info) fault)
  | plans {plan : Plan} (hplan : makePlan session.config.chunkSize info = .ok plan) :
      Planned session info (.running (.createOutputDir plan))

theorem planned (session : Session) (info : TransferInfo) :
    Planned session info
      (.ofChecked (.decide info) (makePlan session.config.chunkSize info) fun plan =>
        .running (.createOutputDir plan)) := by
  cases hplan : makePlan session.config.chunkSize info with
  | error fault => exact .overflows hplan
  | ok plan => exact .plans hplan

/-- A property of points and what follows them is checked point by point. -/
theorem resume_elim {motive : Point → PointStatus → Prop}
    (hprepare : motive .prepare (.running .recvInfo))
    (hinfo : ∀ message status, ManifestRead message status → motive .recvInfo status)
    (haccept : ∀ info status, Planned session info status → motive (.decide info) status)
    (hreject : ∀ info, motive (.decide info) (.running .sendCancel))
    (hcancel : motive .sendCancel (.returned .default))
    (houtput : ∀ plan, motive (.createOutputDir plan) (.running (.sendReady plan)))
    (hready : ∀ plan, motive (.sendReady plan) (.running (.fileHead plan 0)))
    (hhead : ∀ plan index status, Visited session plan index status →
      motive (.fileHead plan index) status)
    (hparent : ∀ plan index fullPath status,
      Started session plan (.createParent plan index fullPath) index
        ((plan.info.items[index]?.map FileMetadata.size).getD 0) fullPath status →
      motive (.createParent plan index fullPath) status)
    (hfile : ∀ plan index task stage reply,
      (FileReceiver.action (fileSession session plan.info) task stage).Fits reply →
      motive (.file plan index task stage)
        ((FileReceiver.resume (fileSession session plan.info) task stage reply).embed
          (.file plan index task) fun _ => .running (.fileHead plan (index + 1))))
    (hcomplete : ∀ plan, motive (.recvComplete plan) (.returned (summary plan)))
    (point : Point) (reply : Reply Message Bool) (hfits : (action session point).Fits reply) :
    motive point (resume session point reply) := by
  cases point
  case file plan index task stage => exact hfile plan index task stage reply hfits
  all_goals cases reply <;> try exact hfits.elim
  case prepare.value value => exact hprepare
  case recvInfo.message message => exact hinfo message _ (manifestRead message)
  case decide.answer info accept =>
      cases accept with
      | false => exact hreject info
      | true => exact haccept info _ (planned session info)
  case sendCancel.done => exact hcancel
  case createOutputDir.value plan value => exact houtput plan
  case sendReady.done plan => exact hready plan
  case fileHead.done plan index => exact hhead plan index _ (visited session plan index)
  case createParent.value plan index fullPath value =>
      exact hparent plan index fullPath _ (started _ _ _ _ _ _)
  case recvComplete.message plan message => exact hcomplete plan

/-! ## Accepted manifest paths -/

theorem isName_suffixed {name : OsStr} (hname : IsName name) :
    IsName (name ++ FileReceiver.partialSuffix) :=
  isName_append hname (by decide) (by decide)

/-- An accepted path below the output directory: its own location, the one of its
partial file and its parent. -/
theorem locations_of_accepted (outputDir : OsStr) {path relativePath : OsStr}
    (haccepted : sanitizeRelativePath path = .ok relativePath) :
    ∃ front last, (∀ name ∈ front, IsName name) ∧ IsName last ∧
      components (join outputDir relativePath) =
        components outputDir ++ (front ++ [last]).map .normal ∧
      components (FileReceiver.partialPath (join outputDir relativePath)) =
        components outputDir ++ (front ++ [last ++ FileReceiver.partialSuffix]).map .normal ∧
      parent (join outputDir relativePath) =
        some (components outputDir ++ front.map .normal) := by
  obtain ⟨names, hne, hnames, _, rfl⟩ := names_of_sanitizeRelativePath haccepted
  rcases List.eq_nil_or_concat names with rfl | ⟨front, last, rfl⟩
  · exact absurd rfl hne
  · rw [List.concat_eq_append] at hnames hne ⊢
    have hfront : ∀ name ∈ front, IsName name :=
      fun name hname => hnames name (List.mem_append_left _ hname)
    have hlast : IsName last := hnames last (List.mem_append_right _ List.mem_cons_self)
    refine ⟨front, last, hfront, hlast, components_join_render outputDir hnames, ?_, ?_⟩
    · exact components_join_render_append outputDir _ hfront hlast (isName_suffixed hlast)
    · rw [parent_join_render outputDir hne hnames, List.dropLast_concat]

/-! ## What a point knows -/

/-- A manifest that passed the checks before the accept policy. -/
structure Admitted (info : TransferInfo) : Prop where
  nonempty : info.items ≠ []
  size_le : ∀ file ∈ info.items, file.size ≤ maxTransferFileSize

/-- File `index` is received under `fullPath`: it is not skipped and its manifest
path is accepted. -/
structure Receives (session : Session) (info : TransferInfo) (index : Nat) (fullPath : OsStr) :
    Prop where
  notSkipped : skips info index = false
  path : ∃ file relativePath, info.items[index]? = some file ∧
    sanitizeRelativePath file.path = .ok relativePath ∧
    fullPath = join session.outputDir relativePath

/-- The arguments of the call that receives file `index`. -/
structure IsTask (session : Session) (info : TransferInfo) (index : Nat)
    (task : FileReceiver.Task) : Prop where
  receives : Receives session info index task.path
  fileIndex : task.fileIndex = truncate 32 index
  totalChunks : ∀ file, info.items[index]? = some file →
    chunkCount file.size session.config.chunkSize = .ok task.totalChunks
  streams : task.streamsToReceive = task.totalChunks - alreadySent info index

def Point.Sound (session : Session) : Point → Prop
  | .prepare | .recvInfo | .sendCancel => True
  | .decide info => Admitted info
  | .createOutputDir plan | .sendReady plan | .recvComplete plan => Admitted plan.info
  | .fileHead plan index => Admitted plan.info ∧ index ≤ plan.info.items.length
  | .createParent plan index fullPath =>
      Admitted plan.info ∧ Receives session plan.info index fullPath
  | .file plan index task stage =>
      Admitted plan.info ∧ IsTask session plan.info index task ∧
        stage.Sound (fileSession session plan.info) task

def SoundStatus (session : Session) (status : PointStatus) : Prop :=
  ∀ point, status.point? = some point → point.Sound session

theorem size_le_of_validateSizes {files : List FileMetadata}
    (hvalid : validateSizes files = .ok ()) :
    ∀ file ∈ files, file.size ≤ maxTransferFileSize := by
  induction files with
  | nil =>
      intro file hfile
      cases hfile
  | cons first rest ih =>
      rw [validateSizes, validateFileSize] at hvalid
      by_cases hlarge : maxTransferFileSize < first.size
      · rw [if_pos hlarge] at hvalid
        cases hvalid
      · rw [if_neg hlarge] at hvalid
        intro file hfile
        rcases List.mem_cons.mp hfile with rfl | hrest
        · exact Nat.le_of_not_lt hlarge
        · exact ih hvalid file hrest

theorem soundStatus_of_read {message : Message} {status : PointStatus}
    (hread : ManifestRead message status) : SoundStatus session status := by
  intro point hpoint
  cases hread with
  | refused =>
      cases hpoint
      trivial
  | admitted hnonempty hvalid =>
      cases hpoint
      exact ⟨hnonempty, size_le_of_validateSizes hvalid⟩

theorem makePlan_eq_ok {chunkSize : UInt32} {info : TransferInfo} {plan : Plan}
    (hplan : makePlan chunkSize info = .ok plan) :
    plan.info = info ∧ sum 64 0 (info.items.map FileMetadata.size) = .ok plan.totalBytes ∧
      alreadyTransferred chunkSize info = .ok plan.alreadyTransferred := by
  rw [makePlan] at hplan
  cases hsum : sum 64 0 (info.items.map FileMetadata.size) with
  | error fault =>
      rw [hsum] at hplan
      cases hplan
  | ok totalBytes =>
      rw [hsum] at hplan
      cases halready : alreadyTransferred chunkSize info with
      | error fault =>
          simp only [bind, Except.bind, halready] at hplan
          cases hplan
      | ok already =>
          simp only [bind, Except.bind, halready] at hplan
          cases hplan
          exact ⟨rfl, rfl, rfl⟩

theorem makePlan_info {chunkSize : UInt32} {info : TransferInfo} {plan : Plan}
    (hplan : makePlan chunkSize info = .ok plan) : plan.info = info := (makePlan_eq_ok hplan).1

theorem soundStatus_of_started {plan : Plan} {index size : Nat} {fullPath : OsStr} {point : Point}
    {status : PointStatus} (hpoint : point.Sound session) (hadmitted : Admitted plan.info)
    (hreceives : Receives session plan.info index fullPath)
    (hsize : ∀ file, plan.info.items[index]? = some file → file.size = size)
    (hstarted : Started session plan point index size fullPath status) :
    SoundStatus session status := by
  intro other hother
  cases hstarted with
  | overflows hcount =>
      cases hother
      exact hpoint
  | begins hcount =>
      cases hother
      refine ⟨hadmitted, ⟨hreceives, rfl, ?_, rfl⟩, trivial⟩
      intro file hfile
      rw [hsize file hfile]
      exact hcount

theorem soundStatus_of_visited {plan : Plan} {index : Nat} {status : PointStatus}
    (hhead : Point.Sound session (.fileHead plan index))
    (hvisited : Visited session plan index status) : SoundStatus session status := by
  have hpointSound := hhead
  obtain ⟨hadmitted, hindex⟩ := hhead
  intro point hpoint
  cases hvisited with
  | ends hnone =>
      cases hpoint
      exact hadmitted
  | skips hfile hskip =>
      cases hpoint
      exact ⟨hadmitted, (List.getElem?_eq_some_iff.mp hfile).1⟩
  | refuses hfile hsanitize =>
      cases hpoint
      exact ⟨hadmitted, hindex⟩
  | creates hfile hskip hsanitize =>
      cases hpoint
      exact ⟨hadmitted, Bool.eq_false_iff.mpr hskip, _, _, hfile, hsanitize, rfl⟩
  | starts hfile hskip hsanitize hstarted =>
      refine soundStatus_of_started hpointSound hadmitted
        ⟨Bool.eq_false_iff.mpr hskip, _, _, hfile, hsanitize, rfl⟩ ?_ hstarted point hpoint
      intro other hother
      rw [hfile] at hother
      cases hother
      rfl

/-- Every point a call reaches is sound, whatever the peer sends. -/
theorem soundStatus_inductive : Inductive (machine session) (SoundStatus session) := by
  constructor
  · intro point reply hfits hsound
    have hpoint : point.Sound session := hsound point rfl
    refine resume_elim (motive := fun point status =>
      point.Sound session → SoundStatus session status)
      ?prepare ?info ?accept ?reject ?cancel ?output ?ready ?head ?parent ?file ?complete
      point reply hfits hpoint
    case prepare =>
        intro _ next hnext
        cases hnext
        trivial
    case info => exact fun message status hread _ => soundStatus_of_read hread
    case accept =>
        intro info status hplanned hinfo next hnext
        cases hplanned with
        | overflows _ =>
            cases hnext
            exact hinfo
        | plans hplan =>
            cases hnext
            change Admitted _
            rw [makePlan_info hplan]
            exact hinfo
    case reject =>
        intro _ _ next hnext
        cases hnext
        trivial
    case cancel =>
        intro _ next hnext
        cases hnext
    case output =>
        intro plan hplan next hnext
        cases hnext
        exact hplan
    case ready =>
        intro plan hplan next hnext
        cases hnext
        exact ⟨hplan, Nat.zero_le _⟩
    case head => exact fun plan index status hvisited hhead => soundStatus_of_visited hhead hvisited
    case parent =>
        intro plan index fullPath status hstarted hparent
        refine soundStatus_of_started hparent hparent.1 hparent.2 ?_ hstarted
        intro file hfile
        rw [hfile]
        rfl
    case file =>
        intro plan index task stage reply hreply hfile next hnext
        have hstage := FileReceiver.soundStatus_inductive.1 stage reply hreply
          (fun other hother => by
            cases hother
            exact hfile.2.2)
        change FileReceiver.SoundStatus _ _ (FileReceiver.resume _ _ _ _) at hstage
        cases hresume : FileReceiver.resume (fileSession session plan.info) task stage reply with
        | running other =>
            rw [hresume] at hnext hstage
            cases hnext
            exact ⟨hfile.1, hfile.2.1, hstage other rfl⟩
        | returned done =>
            rw [hresume] at hnext
            cases hnext
            obtain ⟨file, relativePath, hitem, _⟩ := hfile.2.1.receives.path
            exact ⟨hfile.1, (List.getElem?_eq_some_iff.mp hitem).1⟩
        | failed other error =>
            rw [hresume] at hnext hstage
            cases hnext
            exact ⟨hfile.1, hfile.2.1, hstage other rfl⟩
        | panicked other fault =>
            rw [hresume] at hnext hstage
            cases hnext
            exact ⟨hfile.1, hfile.2.1, hstage other rfl⟩
    case complete =>
        intro _ _ next hnext
        cases hnext
  · intro point error hsound other hother
    cases hother
    exact hsound point rfl

theorem sound_of_run {store : Store} {inputs : List ReceiverInput} {final : ReceiverState}
    (hrun : run session (start store) inputs = some final) : SoundStatus session final.status := by
  refine soundStatus_inductive.run hrun ?_
  intro point hpoint
  cases hpoint
  trivial

/-! ## The manifest of a call -/

/-- The points of a call that has read the manifest `info`. -/
def Point.Carries (info : TransferInfo) : Point → Prop
  | .prepare | .recvInfo => False
  | .sendCancel => True
  | .decide other => other = info
  | .createOutputDir plan | .sendReady plan | .fileHead plan _ | .createParent plan _ _
  | .file plan _ _ _ | .recvComplete plan => plan.info = info

def CarriesStatus (info : TransferInfo) (status : PointStatus) : Prop :=
  ∀ point, status.point? = some point → point.Carries info

variable {info : TransferInfo}

theorem carriesStatus_of_started {plan : Plan} (hplan : plan.info = info) {index size : Nat}
    {fullPath : OsStr} {point : Point} {status : PointStatus} (hpoint : point.Carries info)
    (hstarted : Started session plan point index size fullPath status) :
    CarriesStatus info status := by
  intro next hnext
  cases hstarted with
  | overflows _ =>
      cases hnext
      exact hpoint
  | begins _ =>
      cases hnext
      exact hplan

theorem carriesStatus_of_visited {plan : Plan} (hplan : plan.info = info) {index : Nat}
    {status : PointStatus} (hvisited : Visited session plan index status) :
    CarriesStatus info status := by
  intro next hnext
  cases hvisited with
  | starts _ _ _ hstarted =>
      have hpoint : Point.Carries info (.fileHead plan index) := hplan
      exact carriesStatus_of_started hplan hpoint hstarted next hnext
  | ends _ | skips _ _ | refuses _ _ | creates _ _ _ =>
      cases hnext
      exact hplan

/-- A call never exchanges the manifest it has read. -/
theorem carriesStatus_inductive : Inductive (machine session) (CarriesStatus info) := by
  constructor
  · intro point reply hfits hcarries
    refine resume_elim (motive := fun point status =>
      point.Carries info → CarriesStatus info status)
      ?prepare ?info ?accept ?reject ?cancel ?output ?ready ?head ?parent ?file ?complete
      point reply hfits (hcarries point rfl)
    case prepare => exact fun hnone => hnone.elim
    case info => exact fun _ _ _ hnone => hnone.elim
    case accept =>
        intro other status hplanned hother next hnext
        cases hplanned with
        | overflows _ =>
            cases hnext
            exact hother
        | plans hplan =>
            cases hnext
            exact (makePlan_info hplan).trans hother
    case reject =>
        intro _ _ next hnext
        cases hnext
        trivial
    case cancel =>
        intro _ next hnext
        cases hnext
    case output =>
        intro plan hplan next hnext
        cases hnext
        exact hplan
    case ready =>
        intro plan hplan next hnext
        cases hnext
        exact hplan
    case head =>
        exact fun plan index status hvisited hplan => carriesStatus_of_visited hplan hvisited
    case parent =>
        exact fun plan index fullPath status hstarted hplan =>
          carriesStatus_of_started hplan hplan hstarted
    case file =>
        intro plan index task stage reply _ hplan next hnext
        cases hresume : FileReceiver.resume (fileSession session plan.info) task stage reply <;>
          rw [hresume] at hnext <;> cases hnext <;> exact hplan
    case complete =>
        intro _ _ next hnext
        cases hnext
  · intro point error hcarries other hother
    cases hother
    exact hcarries point rfl

/-! ## Progress through the items -/

/-- The items below this index have been skipped or had their checksum sent. -/
def Point.reported : Point → Nat
  | .prepare | .recvInfo | .decide _ | .sendCancel | .createOutputDir _ | .sendReady _ => 0
  | .fileHead _ index | .createParent _ index _ => index
  | .file _ index _ (.recvChecksum _) => index + 1
  | .file _ index _ _ => index
  | .recvComplete plan => plan.info.items.length

/-- One step keeps the number of reported items, skips the next one, or sends its
checksum. -/
inductive Advances (session : Session) : Point → Point → Prop where
  | stays {point next : Point} (hsame : next.reported = point.reported) :
      Advances session point next
  | skips {plan : Plan} {index : Nat} (hskip : skips plan.info index = true) :
      Advances session (.fileHead plan index) (.fileHead plan (index + 1))
  | sends {plan : Plan} {index : Nat} {task : FileReceiver.Task} {checksum : Digest} :
      Advances session (.file plan index task (.sendChecksum checksum))
        (.file plan index task (.recvChecksum checksum))

theorem advances_of_started {plan : Plan} {index size : Nat} {fullPath : OsStr}
    {point next : Point} {status : PointStatus} (hpoint : point.reported = index)
    (hstarted : Started session plan point index size fullPath status)
    (hnext : status = .running next) : Advances session point next := by
  cases hstarted with
  | overflows _ => cases hnext
  | begins _ =>
      cases hnext
      exact .stays hpoint.symm

theorem advances_of_visited {plan : Plan} {index : Nat} {next : Point} {status : PointStatus}
    (hindex : index ≤ plan.info.items.length) (hvisited : Visited session plan index status)
    (hnext : status = .running next) : Advances session (.fileHead plan index) next := by
  cases hvisited with
  | ends hnone =>
      cases hnext
      exact .stays (Nat.le_antisymm (List.getElem?_eq_none_iff.mp hnone) hindex)
  | skips _ hskip =>
      cases hnext
      exact .skips hskip
  | refuses _ _ => cases hnext
  | creates _ _ _ =>
      cases hnext
      exact .stays rfl
  | starts _ _ _ hstarted =>
      have hhead : Point.reported (.fileHead plan index) = index := rfl
      exact advances_of_started hhead hstarted hnext

theorem reported_file_of_ne {plan : Plan} {index : Nat} {task : FileReceiver.Task}
    {stage : FileReceiver.Stage} (hstage : ∀ checksum, stage ≠ .recvChecksum checksum) :
    Point.reported (.file plan index task stage) = index := by
  cases stage with
  | recvChecksum checksum => exact absurd rfl (hstage checksum)
  | begin | createParent _ | openPartial _ | setLen _ | acceptUni _ | writeChunk _ _ _ _ => rfl
  | rename | reread | sendChecksum _ => rfl

theorem advances_resume {point next : Point} {reply : Reply Message Bool}
    (hsound : point.Sound session) (hfits : (action session point).Fits reply)
    (hnext : resume session point reply = .running next) : Advances session point next := by
  refine resume_elim (motive := fun point status => point.Sound session →
      ∀ next, status = .running next → Advances session point next)
    ?prepare ?info ?accept ?reject ?cancel ?output ?ready ?head ?parent ?file ?complete
    point reply hfits hsound next hnext
  case prepare =>
      intro _ next hnext
      cases hnext
      exact .stays rfl
  case info =>
      intro message status hread _ next hnext
      cases hread <;> cases hnext
      exact .stays rfl
  case accept =>
      intro info status hplanned _ next hnext
      cases hplanned <;> cases hnext
      exact .stays rfl
  case reject | output | ready =>
      intro _ _ next hnext
      cases hnext
      exact .stays rfl
  case cancel | complete => exact nofun
  case head =>
      exact fun plan index status hvisited hhead next hnext =>
        advances_of_visited hhead.2 hvisited hnext
  case parent =>
      intro plan index fullPath status hstarted _ next hnext
      have hhere : Point.reported (.createParent plan index fullPath) = index := rfl
      exact advances_of_started hhere hstarted hnext
  case file =>
      intro plan index task stage reply hreply _ next hnext
      obtain ⟨hreturned, hrecv⟩ := FileReceiver.resume_ends hreply
      cases hresume : FileReceiver.resume (fileSession session plan.info) task stage reply with
      | running other =>
          rw [hresume] at hnext
          cases hnext
          by_cases hlast : ∃ checksum, other = .recvChecksum checksum
          · obtain ⟨checksum, rfl⟩ := hlast
            rw [hrecv checksum hresume]
            exact .sends
          · refine .stays ?_
            rw [reported_file_of_ne fun checksum heq => hlast ⟨checksum, heq⟩]
            symm
            refine reported_file_of_ne fun checksum heq => ?_
            subst heq
            cases reply with
            | message message =>
                have hend : FileReceiver.compareChecksum task checksum message = .running other :=
                  hresume
                rcases FileReceiver.compareChecksum_cases task checksum message with
                  ⟨_, hresult⟩ | ⟨hresult, _⟩ <;> rw [hresult] at hend <;> cases hend
            | done | answer _ | value _ | stream _ => exact hreply.elim
      | returned done =>
          rw [hresume] at hnext
          cases hnext
          obtain ⟨checksum, rfl⟩ := hreturned done hresume
          exact .stays rfl
      | failed _ _ | panicked _ _ =>
          rw [hresume] at hnext
          cases hnext

theorem begin_of_started {plan other : Plan} {index current size : Nat} {fullPath : OsStr}
    {point : Point} {task : FileReceiver.Task} {stage : FileReceiver.Stage} {status : PointStatus}
    (hstarted : Started session plan point index size fullPath status)
    (hnext : status = .running (.file other current task stage)) : stage = .begin := by
  cases hstarted <;> cases hnext
  rfl

/-- The stages of a file after the first are reached from the stage before. -/
theorem resume_file {point : Point} {reply : Reply Message Bool} {plan : Plan} {index : Nat}
    {task : FileReceiver.Task} {stage : FileReceiver.Stage}
    (hfits : (action session point).Fits reply)
    (hnext : resume session point reply = .running (.file plan index task stage)) :
    stage = .begin ∨ ∃ earlier, point = .file plan index task earlier ∧
      FileReceiver.resume (fileSession session plan.info) task earlier reply = .running stage := by
  by_cases hfile : ∃ other current known earlier, point = .file other current known earlier
  · obtain ⟨other, current, known, earlier, rfl⟩ := hfile
    cases hinner : FileReceiver.resume (fileSession session other.info) known earlier reply <;>
      simp only [resume, hinner] at hnext <;> cases hnext
    exact Or.inr ⟨earlier, rfl, hinner⟩
  · refine Or.inl ?_
    refine resume_elim (motive := fun point status =>
        (¬ ∃ other current known earlier, point = .file other current known earlier) →
        status = .running (.file plan index task stage) → stage = .begin)
      ?prepare ?info ?accept ?reject ?cancel ?output ?ready ?head ?parent ?file ?complete
      point reply hfits hfile hnext
    case prepare | cancel => exact fun _ => nofun
    case reject | output | ready | complete => exact fun _ _ => nofun
    case info =>
        intro message status hread _ hend
        cases hread <;> cases hend
    case accept =>
        intro info status hplanned _ hend
        cases hplanned <;> cases hend
    case head =>
        intro other current status hvisited _ hend
        cases hvisited with
        | starts _ _ _ hstarted => exact begin_of_started hstarted hend
        | ends _ | skips _ _ | refuses _ _ | creates _ _ _ => cases hend
    case parent =>
        exact fun other current fullPath status hstarted _ hend => begin_of_started hstarted hend
    case file =>
        intro other current known earlier _ _ hno
        exact absurd ⟨other, current, known, earlier, rfl⟩ hno

/-- A call returns after a rejection or after the sender's last message. -/
theorem resume_returned {point : Point} {reply : Reply Message Bool} {result : TransferSummary}
    (hfits : (action session point).Fits reply)
    (hresume : resume session point reply = .returned result) :
    point = .sendCancel ∧ result = .default ∨
      ∃ plan, point = .recvComplete plan ∧ result = summary plan := by
  refine resume_elim (motive := fun point status => status = .returned result →
      point = .sendCancel ∧ result = .default ∨
        ∃ plan, point = .recvComplete plan ∧ result = summary plan)
    ?prepare ?info ?accept ?reject ?cancel ?output ?ready ?head ?parent ?file ?complete
    point reply hfits hresume
  case prepare => exact nofun
  case reject | output | ready => exact nofun
  case info =>
      intro message status hread hend
      cases hread <;> cases hend
  case accept =>
      intro info status hplanned hend
      cases hplanned <;> cases hend
  case cancel =>
      intro hend
      cases hend
      exact Or.inl ⟨rfl, rfl⟩
  case head =>
      intro plan index status hvisited hend
      cases hvisited with
      | starts _ _ _ hstarted => cases hstarted <;> cases hend
      | ends _ | skips _ _ | refuses _ _ | creates _ _ _ => cases hend
  case parent =>
      intro plan index fullPath status hstarted hend
      cases hstarted <;> cases hend
  case file =>
      intro plan index task stage reply _ hend
      cases hinner : FileReceiver.resume (fileSession session plan.info) task stage reply <;>
        rw [hinner] at hend <;> cases hend
  case complete =>
      intro plan hend
      cases hend
      exact Or.inr ⟨plan, rfl, rfl⟩

/-- A manifest whose sizes are in bounds and that lists a file is put to the policy. -/
theorem readManifest_eq {info : TransferInfo} (hnonempty : info.items ≠ [])
    (hsizes : ∀ file ∈ info.items, file.size ≤ maxTransferFileSize) :
    readManifest (.transferInfo info) = .running (.decide info) := by
  have hvalid : ∀ files : List FileMetadata,
      (∀ file ∈ files, file.size ≤ maxTransferFileSize) → validateSizes files = .ok () := by
    intro files
    induction files with
    | nil => exact fun _ => rfl
    | cons file rest ih =>
        intro hfiles
        have hfile : ¬ maxTransferFileSize < file.size :=
          Nat.not_lt.mpr (hfiles file List.mem_cons_self)
        rw [validateSizes, validateFileSize, if_neg hfile]
        exact ih fun other hother => hfiles other (List.mem_cons_of_mem _ hother)
  simp only [readManifest, if_neg hnonempty, hvalid info.items hsizes, Status.ofExcept]

theorem readManifest_cases (info : TransferInfo) :
    readManifest (.transferInfo info) = .running (.decide info) ∨
      ∃ error, readManifest (.transferInfo info) = .failed .recvInfo error := by
  by_cases hempty : info.items = []
  · exact Or.inr ⟨_, by simp only [readManifest, if_pos hempty]; rfl⟩
  · cases hvalid : validateSizes info.items with
    | ok done =>
        refine Or.inl ?_
        simp only [readManifest, if_neg hempty, hvalid, Status.ofExcept]
    | error error =>
        refine Or.inr ⟨error, ?_⟩
        simp only [readManifest, if_neg hempty, hvalid, Status.ofExcept]

/-- The beginning of every call: the directory, then the manifest. -/
theorem run_manifest (store : Store) (message : Message) (rest : List ReceiverInput) :
    run session (start store) (.proceed :: .message message :: rest) =
      run session ⟨readManifest message, store⟩ rest := rfl

end P2PFileTransfer.Core.FolderReceiver
