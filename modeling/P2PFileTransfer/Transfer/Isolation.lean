import P2PFileTransfer.Transfer.ReceiverArithmetic

/-!
# Items of one manifest do not disturb each other

A file is received into a temporary name next to its own.  Distinct paths keep the
final names apart, so an item can only disturb an earlier one whose path is its own
temporary name, and then it does.
-/

namespace P2PFileTransfer.Transfer.Isolation

open P2PFileTransfer.Core
open P2PFileTransfer.Foundation.ByteFile
open P2PFileTransfer.Foundation.FileSystem
open P2PFileTransfer.Foundation.FixedWidth
open P2PFileTransfer.Foundation.Process
open P2PFileTransfer.Foundation.UnixPath
open P2PFileTransfer.Core.Protocol
open P2PFileTransfer.Core.TransferFile
open P2PFileTransfer.Core.TransferFolder
open P2PFileTransfer.Core.FolderReceiver
open P2PFileTransfer.Transfer.ReceiverArithmetic

/-- Item `index` of the manifest has the accepted path `clean`. -/
def HasPath (items : List FileMetadata) (index : Nat) (clean : OsStr) : Prop :=
  ∃ file, items[index]? = some file ∧ sanitizeRelativePath file.path = .ok clean

/-- The items of an honest folder: accepted, pairwise distinct paths. -/
structure HonestItems (items : List FileMetadata) : Prop where
  accepted : ∀ index, index < items.length → ∃ clean, HasPath items index clean
  distinct : ∀ first second clean, HasPath items first clean → HasPath items second clean →
    first = second

/-- No item comes after one whose path is its own temporary name. -/
def NoShadow (items : List FileMetadata) : Prop :=
  ∀ earlier later cleanEarlier cleanLater, earlier < later →
    HasPath items earlier cleanEarlier → HasPath items later cleanLater →
    cleanEarlier ≠ FileReceiver.partialPath cleanLater

/-- The receiver gets to receive an item of the manifest at all. -/
def Receivable (session : Session) (items : List FileMetadata) : Prop :=
  session.config.chunkSize ≠ 0 ∧ ∀ file ∈ items, file.size ≤ maxTransferFileSize

def finalLocation (session : Session) (clean : OsStr) : Location :=
  components (join session.outputDir clean)

/-- The item a point works on. -/
def item? : Point → Option Nat
  | .createParent _ index _ | .file _ index _ _ => some index
  | _ => none

/-- A manifest of these items whose finished files are a beginning of the list, as a
sender announces them. -/
structure Announces (items : List FileMetadata) (info : TransferInfo) : Prop where
  items_eq : info.items = items
  completed : ∃ count, info.completedFiles = List.range count

/-- The checksum a step sends for an item. -/
def sentChecksum (state : ReceiverState) (input : ReceiverInput) : List (Nat × Digest) :=
  match state.status, input with
  | .running (.file _ index _ (.sendChecksum checksum)), .proceed => [(index, checksum)]
  | _, _ => []

/-- A receiver step together with the log of the checksums sent so far. -/
def loggedStep (session : Session) (state : ReceiverState × List (Nat × Digest))
    (input : ReceiverInput) : Option (ReceiverState × List (Nat × Digest)) :=
  ((machine session).step state.1 input).map fun next =>
    (next, state.2 ++ sentChecksum state.1 input)

def loggedRun (session : Session) (store : Store) (info : TransferInfo)
    (inputs : List ReceiverInput) : Option (ReceiverState × List (Nat × Digest)) :=
  Foundation.Run.run (loggedStep session) (start store, [])
    (.proceed :: .message (.transferInfo info) :: inputs)

/-- Every step for one item leaves the final file of every item received before it, in
this call or an earlier one, and a completed call leaves every item it received under
its own path, with the bytes its checksum was computed over. -/
structure Isolated (session : Session) (items : List FileMetadata) : Prop where
  steps : ∀ info store inputs state log, Announces items info →
    loggedRun session store info inputs = some (state, log) →
    ∀ point index, state.status = .running point → item? point = some index →
    ∀ input next, (machine session).step state input = some next →
    ∀ other clean, other ≠ index → (other < index ∨ skips info other = true) →
    HasPath items other clean →
    next.store (finalLocation session clean) = state.store (finalLocation session clean)
  result : ∀ info store inputs state log summary, Announces items info →
    loggedRun session store info inputs = some (state, log) →
    state.status = .returned summary → summary.files ≠ [] →
    ∀ index clean, HasPath items index clean → skips info index = false →
    ∃ checksum bytes, (index, checksum) ∈ log ∧
      state.store (finalLocation session clean) = some bytes ∧ session.codec.sha256 bytes = checksum

/-! ## Locations of accepted paths -/

variable {session : Session} {items : List FileMetadata} {info : TransferInfo}

theorem map_normal_injective {first second : List OsStr}
    (heq : first.map Component.normal = second.map Component.normal) : first = second :=
  List.map_injective_iff.mpr (fun _ _ hsame => Component.normal.inj hsame) heq

theorem finalLocation_injective {index other : Nat} {clean otherClean : OsStr}
    (hpath : HasPath items index clean) (hother : HasPath items other otherClean)
    (heq : finalLocation session clean = finalLocation session otherClean) : clean = otherClean := by
  obtain ⟨_, _, hclean⟩ := hpath
  obtain ⟨_, _, hotherClean⟩ := hother
  obtain ⟨names, _, hnames, _, rfl⟩ := names_of_sanitizeRelativePath hclean
  obtain ⟨others, _, hothers, _, rfl⟩ := names_of_sanitizeRelativePath hotherClean
  rw [finalLocation, finalLocation, components_join_render _ hnames,
    components_join_render _ hothers] at heq
  rw [map_normal_injective (List.append_cancel_left heq)]

/-- A final location is a temporary one exactly when the paths say so. -/
theorem partial_eq_finalLocation_iff {index other : Nat} {clean otherClean : OsStr}
    (hpath : HasPath items index clean) (hother : HasPath items other otherClean) :
    components (FileReceiver.partialPath (join session.outputDir clean)) =
        finalLocation session otherClean ↔
      otherClean = FileReceiver.partialPath clean := by
  obtain ⟨_, _, hclean⟩ := hpath
  obtain ⟨_, _, hotherClean⟩ := hother
  obtain ⟨others, _, hothers, _, rfl⟩ := names_of_sanitizeRelativePath hotherClean
  obtain ⟨names, hne, hnames, _, rfl⟩ := names_of_sanitizeRelativePath hclean
  rcases List.eq_nil_or_concat names with rfl | ⟨front, last, rfl⟩
  · exact absurd rfl hne
  · rw [List.concat_eq_append] at hnames ⊢
    have hfront : ∀ name ∈ front, IsName name :=
      fun name hname => hnames name (List.mem_append_left _ hname)
    have hlast : IsName last := hnames last (List.mem_append_right _ List.mem_cons_self)
    have htemporary : components (FileReceiver.partialPath
        (join session.outputDir (render (front ++ [last])))) = components session.outputDir ++
          (front ++ [last ++ FileReceiver.partialSuffix]).map .normal :=
      components_join_render_append _ _ hfront hlast (isName_suffixed hlast)
    rw [htemporary, finalLocation, components_join_render _ hothers, FileReceiver.partialPath,
      render_concat_append]
    constructor
    · intro heq
      rw [map_normal_injective (List.append_cancel_left heq)]
    · intro heq
      have hcomponents := congrArg components heq
      rw [components_render hothers,
        components_render (forall_isName_concat hfront (isName_suffixed hlast))] at hcomponents
      rw [hcomponents]

/-- Below a 32-bit count of items the skip set is the announced beginning. -/
theorem skips_iff (hlength : info.items.length ≤ maxMessageSize) {count : Nat}
    (hcompleted : info.completedFiles = List.range count) {index : Nat}
    (hindex : index < info.items.length) : skips info index = true ↔ index < count := by
  have hwidth : index < 2 ^ 32 := by
    simp only [maxMessageSize] at hlength
    omega
  rw [skips, truncate_eq_self hwidth, hcompleted]
  simp

theorem index_lt_of_hasPath {index : Nat} {clean : OsStr} (hpath : HasPath items index clean) :
    index < items.length := by
  obtain ⟨_, hfile, _⟩ := hpath
  exact (List.getElem?_eq_some_iff.mp hfile).1

theorem hasPath_unique {index : Nat} {clean other : OsStr} (hpath : HasPath items index clean)
    (hother : HasPath items index other) : clean = other := by
  obtain ⟨file, hfile, hclean⟩ := hpath
  obtain ⟨again, hagain, hotherClean⟩ := hother
  rw [hfile] at hagain
  cases hagain
  rw [hclean] at hotherClean
  cases hotherClean
  rfl

/-- The item a point works on is one of the manifest and not skipped. -/
theorem received_of_item {point : Point} (hsound : point.Sound session)
    (hcarries : point.Carries info) {index : Nat} (hitem : item? point = some index) :
    index < info.items.length ∧ skips info index = false := by
  have hreceives : ∀ (plan : Plan) (fullPath : OsStr), plan.info = info →
      Receives session plan.info index fullPath →
      index < info.items.length ∧ skips info index = false := by
    rintro plan fullPath rfl hreceives
    obtain ⟨file, _, hfile, _⟩ := hreceives.path
    exact ⟨(List.getElem?_eq_some_iff.mp hfile).1, hreceives.notSkipped⟩
  cases point with
  | createParent plan current fullPath =>
      cases hitem
      exact hreceives plan fullPath hcarries hsound.2
  | file plan current task stage =>
      cases hitem
      exact hreceives plan task.path hcarries hsound.2.1.receives
  | prepare | recvInfo | decide _ | sendCancel | createOutputDir _ => cases hitem
  | sendReady _ | fileHead _ _ | recvComplete _ => cases hitem

theorem le_reported_of_item {point : Point} {index : Nat} (hitem : item? point = some index) :
    index ≤ point.reported := by
  cases point with
  | createParent plan current fullPath =>
      cases hitem
      exact Nat.le_refl _
  | file plan current task stage =>
      cases hitem
      cases stage with
      | recvChecksum _ => exact Nat.le_succ _
      | begin | createParent _ | openPartial _ | setLen _ | acceptUni _ => exact Nat.le_refl _
      | writeChunk _ _ _ _ | rename | reread | sendChecksum _ => exact Nat.le_refl _
  | prepare | recvInfo | decide _ | sendCancel | createOutputDir _ => cases hitem
  | sendReady _ | fileHead _ _ | recvComplete _ => cases hitem

/-- What a file point receives. -/
theorem task_of_sound {plan : Plan} {index : Nat} {task : FileReceiver.Task}
    {stage : FileReceiver.Stage} (hsound : Point.Sound session (.file plan index task stage))
    (hitems : plan.info.items = items) :
    ∃ clean, HasPath items index clean ∧ task.finalLocation = finalLocation session clean ∧
      task.partialLocation =
        components (FileReceiver.partialPath (join session.outputDir clean)) ∧
      Receivable session items := by
  subst hitems
  obtain ⟨hadmitted, htask, _⟩ := hsound
  obtain ⟨file, clean, hfile, hclean, hpath⟩ := htask.receives.path
  refine ⟨clean, ⟨file, hfile, hclean⟩, ?_, ?_, ?_, hadmitted.size_le⟩
  · rw [FileReceiver.Task.finalLocation, hpath]
    rfl
  · rw [FileReceiver.Task.partialLocation, hpath]
  · exact chunkSize_ne_zero_of_chunkCount (htask.totalChunks file hfile)

/-! ## Items before the current one are left alone -/

/-- No action writes the final file of an item that is already reported. -/
theorem not_written_of_reported (hhonest : HonestItems items)
    (hshadow : Receivable session items → NoShadow items) {point : Point}
    (hsound : point.Sound session) (hcarries : point.Carries info) (hitems : info.items = items)
    {index : Nat} {clean : OsStr} (hpath : HasPath items index clean)
    (hreported : index < point.reported) :
    finalLocation session clean ∉ (action session point).written := by
  cases point with
  | file plan current task stage =>
      intro hwritten
      obtain ⟨currentClean, hcurrent, hfinal, htemporary, hreceivable⟩ :=
        task_of_sound hsound (hcarries ▸ hitems)
      by_cases hlast : ∃ checksum, stage = .recvChecksum checksum
      · obtain ⟨checksum, rfl⟩ := hlast
        cases hwritten
      · rw [reported_file_of_ne fun checksum heq => hlast ⟨checksum, heq⟩] at hreported
        rcases FileReceiver.written_action hwritten with hpartly | hwhole
        · rw [htemporary] at hpartly
          exact hshadow hreceivable index current clean currentClean hreported hpath hcurrent
            ((partial_eq_finalLocation_iff hcurrent hpath).mp hpartly.symm)
        · rw [hfinal] at hwhole
          rw [finalLocation_injective hpath hcurrent hwhole] at hpath
          exact Nat.ne_of_lt hreported (hhonest.distinct index current currentClean hpath hcurrent)
  | prepare | recvInfo | decide _ | sendCancel | createOutputDir _ | sendReady _ =>
      exact List.not_mem_nil
  | fileHead _ _ | createParent _ _ _ | recvComplete _ => exact List.not_mem_nil

/-! ## The log of sent checksums -/

/-- The log of a call whose items below `bound` are reported: it covers those that were
received, and each entry is the checksum of the bytes at its final location. -/
structure Logged (session : Session) (items : List FileMetadata) (info : TransferInfo)
    (store : Store) (log : List (Nat × Digest)) (bound : Nat) : Prop where
  kept : ∀ index checksum, (index, checksum) ∈ log → index < bound ∧
    ∃ clean bytes, HasPath items index clean ∧
      store (finalLocation session clean) = some bytes ∧ session.codec.sha256 bytes = checksum
  sent : ∀ index clean, HasPath items index clean → skips info index = false → index < bound →
    ∃ checksum, (index, checksum) ∈ log

/-- A checksum about to be sent is the one of the bytes at the final location. -/
def Fresh (session : Session) (store : Store) (point : Point) : Prop :=
  ∀ plan index task checksum, point = .file plan index task (.sendChecksum checksum) →
    ∃ bytes, store task.finalLocation = some bytes ∧ session.codec.sha256 bytes = checksum

/-- The log fits the status of the call. -/
def Accounts (session : Session) (items : List FileMetadata) (info : TransferInfo)
    (store : Store) (log : List (Nat × Digest)) : PointStatus → Prop
  | .running point =>
      Logged session items info store log point.reported ∧ Fresh session store point
  | .returned summary => summary.files ≠ [] → Logged session items info store log items.length
  | .failed _ _ | .panicked _ _ => True

structure LogInvariant (session : Session) (items : List FileMetadata) (info : TransferInfo)
    (state : ReceiverState × List (Nat × Digest)) : Prop where
  sound : SoundStatus session state.1.status
  carries : ∀ point, state.1.status = .running point → point.Carries info
  accounts : Accounts session items info state.1.store state.2 state.1.status

theorem carries_of_step {state next : ReceiverState} {input : ReceiverInput}
    (hstep : (machine session).step state input = some next)
    (hcarries : ∀ point, state.status = .running point → point.Carries info) {point : Point}
    (hpoint : next.status = .running point) : point.Carries info := by
  have hstatus : CarriesStatus info state.status := by
    cases stepped_of_step hstep with
    | fail hrunning | resume hrunning =>
        rw [hrunning]
        intro other hother
        cases hother
        exact hcarries _ hrunning
  refine carriesStatus_inductive.step hstep hstatus point ?_
  rw [hpoint]
  rfl

theorem Logged.frame {store after : Store} {log : List (Nat × Digest)} {bound : Nat}
    (hlogged : Logged session items info store log bound)
    (hframe : ∀ index clean, HasPath items index clean → index < bound →
      after (finalLocation session clean) = store (finalLocation session clean)) :
    Logged session items info after log bound := by
  refine ⟨?_, hlogged.sent⟩
  intro index checksum hentry
  obtain ⟨hbound, clean, bytes, hpath, hbytes, hchecksum⟩ := hlogged.kept index checksum hentry
  exact ⟨hbound, clean, bytes, hpath, (hframe index clean hpath hbound).trans hbytes, hchecksum⟩

theorem sentChecksum_eq_nil {state : ReceiverState} {point : Point} (input : ReceiverInput)
    (hstatus : state.status = .running point)
    (hpoint : ∀ plan index task checksum, point ≠ .file plan index task (.sendChecksum checksum)) :
    sentChecksum state input = [] := by
  unfold sentChecksum
  split
  · rename_i plan index task checksum hrunning
    rw [hstatus] at hrunning
    cases hrunning
    exact absurd rfl (hpoint plan index task checksum)
  · rfl

theorem sentChecksum_eq {state : ReceiverState} {plan : Plan} {index : Nat}
    {task : FileReceiver.Task} {checksum : Digest}
    (hstatus : state.status = .running (.file plan index task (.sendChecksum checksum))) :
    sentChecksum state .proceed = [(index, checksum)] := by
  obtain ⟨status, store⟩ := state
  cases hstatus
  rfl

/-- A step that keeps the number of reported items sends no checksum. -/
theorem ne_sendChecksum_of_stays {point next : Point} {reply : Reply Message Bool}
    (hfits : (action session point).Fits reply)
    (hnext : resume session point reply = .running next)
    (hsame : next.reported = point.reported) (plan : Plan) (index : Nat)
    (task : FileReceiver.Task) (checksum : Digest) :
    point ≠ .file plan index task (.sendChecksum checksum) := by
  rintro rfl
  cases reply with
  | done =>
      cases hnext
      exact Nat.succ_ne_self index hsame
  | answer _ | value _ | message _ | stream _ => exact hfits.elim

/-- The next point has a checksum to send only when it was just computed. -/
theorem fresh_resume {point next : Point} {input : ReceiverInput} {reply : Reply Message Bool}
    {store after : Store} (hreply : (action session point).reply input store = some (reply, after))
    (hnext : resume session point reply = .running next) : Fresh session after next := by
  rintro plan index task checksum rfl
  have hfits := Action.fits_of_reply hreply
  rcases resume_file hfits hnext with hbegin | ⟨earlier, rfl, hinner⟩
  · cases hbegin
  · obtain ⟨contents, rfl, rfl, hchecksum⟩ := FileReceiver.resume_sendChecksum hfits hinner
    obtain ⟨_, value, hvalue, hrun⟩ := Action.performed hreply
    obtain ⟨bytes, hbytes, hread⟩ := Option.map_eq_some_iff.mp hrun
    cases hread
    cases hvalue
    exact ⟨contents, hbytes, hchecksum.symm⟩

theorem Logged.skip {store : Store} {log : List (Nat × Digest)} {index : Nat}
    (hlogged : Logged session items info store log index) (hskip : skips info index = true) :
    Logged session items info store log (index + 1) := by
  constructor
  · intro other checksum hentry
    obtain ⟨hother, hbytes⟩ := hlogged.kept other checksum hentry
    exact ⟨Nat.lt_succ_of_lt hother, hbytes⟩
  · intro other clean hpath hreceived hother
    refine hlogged.sent other clean hpath hreceived (Nat.lt_of_le_of_ne (Nat.le_of_lt_succ hother) ?_)
    rintro rfl
    rw [hskip] at hreceived
    cases hreceived

theorem Logged.send {store : Store} {log : List (Nat × Digest)} {index : Nat} {clean : OsStr}
    {bytes : List UInt8} (hlogged : Logged session items info store log index)
    (hpath : HasPath items index clean) (hbytes : store (finalLocation session clean) = some bytes) :
    Logged session items info store (log ++ [(index, session.codec.sha256 bytes)]) (index + 1) := by
  constructor
  · intro other checksum hentry
    rcases List.mem_append.mp hentry with hold | hnew
    · obtain ⟨hother, hold⟩ := hlogged.kept other checksum hold
      exact ⟨Nat.lt_succ_of_lt hother, hold⟩
    · cases List.mem_singleton.mp hnew
      exact ⟨Nat.lt_succ_self index, clean, bytes, hpath, hbytes, rfl⟩
  · intro other otherClean hother hreceived hbound
    rcases Nat.lt_succ_iff_lt_or_eq.mp hbound with hbefore | rfl
    · obtain ⟨checksum, hentry⟩ := hlogged.sent other otherClean hother hreceived hbefore
      exact ⟨checksum, List.mem_append_left _ hentry⟩
    · exact ⟨_, List.mem_append_right _ List.mem_cons_self⟩

/-- One step extends the log by what it sends and keeps it true. -/
theorem logInvariant_step (hhonest : HonestItems items)
    (hshadow : Receivable session items → NoShadow items) (hitems : info.items = items)
    {state next : ReceiverState × List (Nat × Digest)} {input : ReceiverInput}
    (hinvariant : LogInvariant session items info state)
    (hstep : loggedStep session state input = some next) :
    LogInvariant session items info next := by
  obtain ⟨state, log⟩ := state
  obtain ⟨after, hmachine, rfl⟩ := Option.map_eq_some_iff.mp hstep
  obtain ⟨hsound, hcarries, hlogged⟩ := hinvariant
  refine ⟨soundStatus_inductive.step hmachine hsound,
    fun point hpoint => carries_of_step hmachine hcarries hpoint, ?_⟩
  cases stepped_of_step hmachine with
  | fail hstatus hstore hnext =>
      rw [hnext]
      trivial
  | resume hstatus hreply hnext =>
      rename_i point reply store
      have hfits := Action.fits_of_reply hreply
      have hpointSound := hsound point (by rw [hstatus]; rfl)
      have hpointCarries := hcarries point hstatus
      rw [hstatus] at hlogged
      obtain ⟨hlog, hfresh⟩ := hlogged
      have hframe : ∀ index clean, HasPath items index clean → index < point.reported →
          store (finalLocation session clean) = state.store (finalLocation session clean) :=
        fun index clean hpath hindex => Action.reply_frame hreply
          (not_written_of_reported hhonest hshadow hpointSound hpointCarries hitems hpath hindex)
      have hkept := hlog.frame hframe
      rw [hnext]
      change Accounts session items info store (log ++ sentChecksum state input)
        (resume session point reply)
      cases hresume : resume session point reply with
      | failed _ _ | panicked _ _ => trivial
      | returned summary =>
          intro hfiles
          rcases resume_returned hfits hresume with ⟨rfl, rfl⟩ | ⟨plan, rfl, rfl⟩
          · exact absurd rfl hfiles
          · have hplan : plan.info = info := hpointCarries
            have hreported : Point.reported (.recvComplete plan) = items.length := by
              rw [← hitems, ← hplan]
              rfl
            rw [sentChecksum_eq_nil input hstatus nofun, List.append_nil, ← hreported]
            exact hkept
      | running target =>
          refine ⟨?_, fresh_resume hreply hresume⟩
          cases advances_resume hpointSound hfits hresume with
          | stays hsame =>
              rw [sentChecksum_eq_nil input hstatus (ne_sendChecksum_of_stays hfits hresume hsame),
                List.append_nil, hsame]
              exact hkept
          | skips hskip =>
              have hplan : _ = info := hpointCarries
              rw [sentChecksum_eq_nil input hstatus nofun, List.append_nil]
              exact hkept.skip (hplan ▸ hskip)
          | sends =>
              rename_i plan index task checksum
              obtain ⟨clean, hpath, hfinal, _, _⟩ :=
                task_of_sound hpointSound (hpointCarries ▸ hitems)
              obtain ⟨bytes, hbytes, rfl⟩ := hfresh plan index task checksum rfl
              have hstore : store task.finalLocation = state.store task.finalLocation :=
                Action.reply_frame hreply List.not_mem_nil
              cases input with
              | proceed =>
                  rw [sentChecksum_eq hstatus]
                  exact hkept.send hpath (hfinal ▸ hstore.trans hbytes)
              | answer _ | message _ | stream _ | fail _ _ => cases hreply

/-- The invariant holds in every state that a call with this manifest reaches. -/
theorem logInvariant_run (hhonest : HonestItems items)
    (hshadow : Receivable session items → NoShadow items) (hitems : info.items = items)
    {store : Store} {inputs : List ReceiverInput} {final : ReceiverState × List (Nat × Digest)}
    (hrun : loggedRun session store info inputs = some final) :
    LogInvariant session items info final := by
  have hstart : LogInvariant session items info
      (⟨readManifest (.transferInfo info), store⟩, []) := by
    refine ⟨soundStatus_of_read (manifestRead (.transferInfo info)), ?_, ?_⟩
    · intro point hpoint
      rcases readManifest_cases info with hread | ⟨error, hread⟩
      · rw [hread] at hpoint
        cases hpoint
        rfl
      · rw [hread] at hpoint
        cases hpoint
    · rcases readManifest_cases info with hread | ⟨error, hread⟩
      · rw [hread]
        exact ⟨⟨nofun, nofun⟩, nofun⟩
      · rw [hread]
        trivial
  exact Foundation.Run.invariant_run (LogInvariant session items info)
    (fun _ _ _ hinvariant hstep => logInvariant_step hhonest hshadow hitems hinvariant hstep)
    hstart hrun

/-- Without a shadowed item the receiver keeps every file it has. -/
theorem isolated_of_noShadow (hhonest : HonestItems items) (hlength : items.length ≤ maxMessageSize)
    (hshadow : Receivable session items → NoShadow items) : Isolated session items := by
  constructor
  · intro info store inputs state log hannounces hrun point index hstatus hitem input next hstep
      other clean _ hearlier hpath
    obtain ⟨hsound, hcarries, _⟩ := logInvariant_run hhonest hshadow hannounces.items_eq hrun
    have hpointSound := hsound point (by rw [hstatus]; rfl)
    have hpointCarries := hcarries point hstatus
    have hbefore : other < index := by
      obtain ⟨count, hcompleted⟩ := hannounces.completed
      rw [← hannounces.items_eq] at hlength hpath
      rcases hearlier with hbefore | hskip
      · exact hbefore
      · have hother := (skips_iff hlength hcompleted (index_lt_of_hasPath hpath)).mp hskip
        obtain ⟨hbound, hreceived⟩ := received_of_item hpointSound hpointCarries hitem
        refine Nat.lt_of_lt_of_le hother (Nat.le_of_not_lt fun hcount => ?_)
        rw [(skips_iff hlength hcompleted hbound).mpr hcount] at hreceived
        cases hreceived
    refine step_frame hstep ?_
    intro current hcurrent
    rw [hstatus] at hcurrent
    cases hcurrent
    exact not_written_of_reported hhonest hshadow hpointSound hpointCarries hannounces.items_eq hpath
      (Nat.lt_of_lt_of_le hbefore (le_reported_of_item hitem))
  · intro info store inputs state log summary hannounces hrun hstatus hfiles index clean hpath
      hreceived
    obtain ⟨_, _, haccounts⟩ := logInvariant_run hhonest hshadow hannounces.items_eq hrun
    dsimp only at haccounts
    rw [hstatus] at haccounts
    have hlogged := haccounts hfiles
    obtain ⟨checksum, hentry⟩ :=
      hlogged.sent index clean hpath hreceived (index_lt_of_hasPath hpath)
    obtain ⟨_, keptClean, bytes, hkept, hbytes, hchecksum⟩ := hlogged.kept index checksum hentry
    rw [hasPath_unique hkept hpath] at hbytes
    exact ⟨checksum, bytes, hentry, hbytes, hchecksum⟩

/-! ## A shadowed item -/

/-- The manifest of a sender that resumes item `index`, whose chunks it has all
delivered. -/
def resumedManifest (session : Session) (items : List FileMetadata) (index : Nat) :
    TransferInfo where
  transferId := FixedBytes.filled 16 0
  items := items
  resumeFrom := some
    { transferId := FixedBytes.filled 16 0
      fileIndex := index
      completedChunks := List.range
        (chunksOf ((items[index]?.map FileMetadata.size).getD 0) session.config.chunkSize.toNat) }
  completedFiles := List.range index

/-- A file that waits for no stream is opened under its temporary name and renamed. -/
theorem run_without_streams {plan : Plan} {index : Nat} {task : FileReceiver.Task}
    (hstreams : task.streamsToReceive = 0)
    (hend : task.totalChunks * session.config.chunkSize.toNat < 2 ^ 64) {directory : Location}
    (hparent : parent task.path = some directory) (store : Store) :
    run session ⟨.running (.file plan index task .begin), store⟩
        [.proceed, .proceed, .proceed, .proceed] =
      some ⟨.running (.file plan index task .rename),
        set (set store task.partialLocation (some ((store task.partialLocation).getD [])))
          task.partialLocation (some (shrinkTo ((store task.partialLocation).getD [])
            (task.totalChunks * session.config.chunkSize.toNat)))⟩ := by
  have hwriter : FileReceiver.openWriter (fileSession session plan.info) task =
      .running (.createParent (task.totalChunks * session.config.chunkSize.toNat)) := by
    have hmany : ¬ task.totalChunks < task.streamsToReceive := by omega
    have hmul : mul 64 task.totalChunks (fileSession session plan.info).config.chunkSize.toNat =
        .ok (task.totalChunks * session.config.chunkSize.toNat) := mul_eq_ok hend
    simp only [FileReceiver.openWriter, if_neg hmany, hmul, Status.ofChecked, hparent]
  have hloop : FileReceiver.continueLoop task [] = .running .rename := by
    rw [FileReceiver.continueLoop, if_neg (by omega)]
  have hbegin : (machine session).step ⟨.running (.file plan index task .begin), store⟩ .proceed =
      some ⟨.running (.file plan index task
        (.createParent (task.totalChunks * session.config.chunkSize.toNat))), store⟩ := by
    change some (⟨Status.embed _ _ (FileReceiver.openWriter (fileSession session plan.info) task),
      store⟩ : ReceiverState) = _
    rw [hwriter]
    rfl
  rw [run, Foundation.Run.run_cons_of_step hbegin]
  let opened := set store task.partialLocation (some ((store task.partialLocation).getD []))
  have hopened : opened task.partialLocation = some ((store task.partialLocation).getD []) :=
    set_self _ _ _
  change some (⟨Status.embed (.file plan index task) _ (FileReceiver.continueLoop task []),
    set opened task.partialLocation ((opened task.partialLocation).map fun bytes =>
      shrinkTo bytes (task.totalChunks * session.config.chunkSize.toNat))⟩ : ReceiverState) = _
  rw [hloop, hopened]
  rfl

/-- The receiver opens the partial file of the resumed item and renames it, at once. -/
theorem run_to_rename (hreceivable : Receivable session items)
    (hlength : items.length ≤ maxMessageSize) {index : Nat} {clean : OsStr}
    (hpath : HasPath items index clean) (store : Store) :
    ∃ inputs plan task after, run session ⟨.running (.decide (resumedManifest session items index)), store⟩
        inputs = some ⟨.running (.file plan index task .rename), after⟩ ∧
      task.path = join session.outputDir clean ∧ after task.partialLocation ≠ none := by
  obtain ⟨file, hfile, hclean⟩ := hpath
  have hbounded : Bounded (resumedManifest session items index) := ⟨hlength, hreceivable.2⟩
  obtain ⟨plan, hplan, hinfo⟩ := makePlan_ok hbounded (Or.inl hreceivable.1)
  have hindex := (List.getElem?_eq_some_iff.mp hfile).1
  have hskips : ∀ other, other < items.length →
      (skips (resumedManifest session items index) other = true ↔ other < index) :=
    fun other hother => skips_iff hlength rfl hother
  have hskip : skips (resumedManifest session items index) index = false :=
    Bool.eq_false_iff.mpr fun hskip => Nat.lt_irrefl index ((hskips index hindex).mp hskip)
  have hsize : file.size ≤ maxTransferFileSize := size_of_item hbounded hfile
  obtain ⟨hcount, hend⟩ := chunkCount_of_bounded hreceivable.1 hsize
  have hparent := run_to_parent hplan hfile hskip
    (fun earlier hearlier => (hskips earlier (Nat.lt_trans hearlier hindex)).mpr hearlier) hclean store
  let task : FileReceiver.Task :=
    { path := join session.outputDir clean
      fileIndex := truncate 32 index
      totalChunks := chunksOf file.size session.config.chunkSize.toNat
      streamsToReceive := chunksOf file.size session.config.chunkSize.toNat -
        alreadySent plan.info index }
  have hstart : startFile session plan (.createParent plan index (join session.outputDir clean)) index
      ((plan.info.items[index]?.map FileMetadata.size).getD 0) (join session.outputDir clean) =
      .running (.file plan index task .begin) := by
    have hitem : plan.info.items[index]? = some file := hinfo ▸ hfile
    simp only [startFile, hitem, Option.map_some, Option.getD_some, hcount, Status.ofChecked, task]
  have hstreams : task.streamsToReceive = 0 := by
    have hsent : alreadySent plan.info index = chunksOf file.size session.config.chunkSize.toNat := by
      rw [hinfo]
      simp only [alreadySent, resumedManifest, if_pos, hfile, Option.map_some, Option.getD_some,
        List.length_range]
    simp only [task, hsent, Nat.sub_self]
  obtain ⟨_, _, _, _, _, _, hdirectory⟩ := locations_of_accepted session.outputDir hclean
  have hopen := @run_without_streams session plan index task hstreams (by
    simp only [task]
    omega) _ hdirectory store
  have hbegin : run session
      ⟨.running (.createParent plan index (join session.outputDir clean)), store⟩ [.proceed] =
      some ⟨.running (.file plan index task .begin), store⟩ :=
    congrArg (fun status => some (⟨status, store⟩ : ReceiverState)) hstart
  have hfirst := (Foundation.Run.run_append_of_run hparent [.proceed]).trans hbegin
  refine ⟨_, plan, task, _, (Foundation.Run.run_append_of_run hfirst _).trans hopen, rfl, ?_⟩
  rw [set_self]
  exact Option.some_ne_none _

theorem loggedRun_of_run {state final : ReceiverState} {inputs : List ReceiverInput}
    (hrun : run session state inputs = some final) (log : List (Nat × Digest)) :
    ∃ after, Foundation.Run.run (loggedStep session) (state, log) inputs = some (final, after) := by
  induction inputs generalizing state log with
  | nil =>
      cases hrun
      exact ⟨log, rfl⟩
  | cons input rest ih =>
      obtain ⟨next, hstep, hrest⟩ := Option.bind_eq_some_iff.mp hrun
      obtain ⟨after, hafter⟩ := ih hrest (log ++ sentChecksum state input)
      refine ⟨after, ?_⟩
      have hlogged : loggedStep session (state, log) input =
          some (next, log ++ sentChecksum state input) := by
        rw [loggedStep, hstep]
        rfl
      rw [Foundation.Run.run_cons_of_step hlogged]
      exact hafter

theorem partialPath_ne (clean : OsStr) : FileReceiver.partialPath clean ≠ clean := by
  intro heq
  have hlength := congrArg List.length heq
  simp [FileReceiver.partialPath, FileReceiver.partialSuffix] at hlength

/-- A shadowed file that is there when its shadow is received is gone afterwards. -/
theorem not_isolated_of_shadow (hlength : items.length ≤ maxMessageSize)
    (hreceivable : Receivable session items) {earlier later : Nat} {clean : OsStr}
    (hearlier : HasPath items earlier (FileReceiver.partialPath clean))
    (hlater : HasPath items later clean) (hbefore : earlier < later) : ¬ Isolated session items := by
  intro hisolated
  obtain ⟨inputs, plan, task, store, hrun, hpath, hfile⟩ :=
    run_to_rename hreceivable hlength hlater (fun _ => none)
  have hnonempty : items ≠ [] :=
    List.ne_nil_of_length_pos (Nat.lt_of_le_of_lt (Nat.zero_le later) (index_lt_of_hasPath hlater))
  have hread : readManifest (.transferInfo (resumedManifest session items later)) = _ :=
    readManifest_eq hnonempty hreceivable.2
  obtain ⟨log, hlogged⟩ := loggedRun_of_run hrun []
  have hwhole : loggedRun session (fun _ => none) (resumedManifest session items later) inputs =
      some (⟨.running (.file plan later task .rename), store⟩, log) := by
    rw [← hlogged, ← hread]
    rfl
  obtain ⟨bytes, hbytes⟩ := Option.ne_none_iff_exists'.mp hfile
  have hstep : (machine session).step ⟨.running (.file plan later task .rename), store⟩ .proceed =
      some ⟨.running (.file plan later task .reread),
        set (set store task.partialLocation none) task.finalLocation (some bytes)⟩ := by
    have hrename : (Operation.rename task.partialLocation task.finalLocation).run store =
        some (set (set store task.partialLocation none) task.finalLocation (some bytes), .unit) := by
      rw [Operation.run, hbytes]
      rfl
    change Option.map _ (Option.map _
      ((Operation.rename task.partialLocation task.finalLocation).run store)) = _
    rw [hrename]
    rfl
  have hkept := hisolated.steps _ _ _ _ _ ⟨rfl, later, rfl⟩ hwhole _ later rfl rfl .proceed _ hstep
    earlier _ (Nat.ne_of_lt hbefore) (Or.inl hbefore) hearlier
  have hlocation : finalLocation session (FileReceiver.partialPath clean) = task.partialLocation := by
    rw [FileReceiver.Task.partialLocation, hpath]
    exact ((partial_eq_finalLocation_iff hlater hearlier).mpr rfl).symm
  have hapart : task.partialLocation ≠ task.finalLocation := by
    rw [← hlocation, FileReceiver.Task.finalLocation, hpath]
    exact fun heq => partialPath_ne clean (finalLocation_injective hearlier hlater heq)
  dsimp only at hkept
  rw [hlocation, set_ne _ _ hapart, set_self] at hkept
  exact hfile hkept.symm

/-! ## The exact condition -/

/-- The items of an honest folder leave each other alone exactly when none comes after
one whose path is its temporary name. -/
theorem isolated_iff (session : Session) (items : List FileMetadata) (hhonest : HonestItems items)
    (hlength : items.length ≤ maxMessageSize) :
    Isolated session items ↔ (Receivable session items → NoShadow items) := by
  constructor
  · intro hisolated hreceivable earlier later cleanEarlier cleanLater hbefore hearlier hlater
    rintro rfl
    exact not_isolated_of_shadow hlength hreceivable hearlier hlater hbefore hisolated
  · exact isolated_of_noShadow hhonest hlength

/-- One byte each at `a` and at `a.partial`. -/
def plainItem : FileMetadata where
  path := [97]
  size := 1
  modified := 0
  checksum := FixedBytes.filled 32 0

def suffixedItem : FileMetadata := { plainItem with path := FileReceiver.partialPath [97] }

theorem plainItem_path : sanitizeRelativePath plainItem.path = .ok [97] := by rfl

theorem suffixedItem_path :
    sanitizeRelativePath suffixedItem.path = .ok (FileReceiver.partialPath [97]) := by rfl

def isolationSession : Session where
  codec := .stored fun _ => FixedBytes.filled 32 0
  config := ConfigMessage.default
  outputDir := [111]

theorem hasPath_pair {first second : FileMetadata} {index : Nat} {clean : OsStr}
    (hpath : HasPath [first, second] index clean) :
    index = 0 ∧ sanitizeRelativePath first.path = .ok clean ∨
      index = 1 ∧ sanitizeRelativePath second.path = .ok clean := by
  obtain ⟨file, hfile, hclean⟩ := hpath
  match index, hfile with
  | 0, rfl => exact Or.inl ⟨rfl, hclean⟩
  | 1, rfl => exact Or.inr ⟨rfl, hclean⟩

theorem honestItems_pair {first second : FileMetadata} {firstClean secondClean : OsStr}
    (hfirst : sanitizeRelativePath first.path = .ok firstClean)
    (hsecond : sanitizeRelativePath second.path = .ok secondClean)
    (hne : firstClean ≠ secondClean) : HonestItems [first, second] := by
  constructor
  · intro index hindex
    match index, hindex with
    | 0, _ => exact ⟨firstClean, first, rfl, hfirst⟩
    | 1, _ => exact ⟨secondClean, second, rfl, hsecond⟩
  · intro index other clean hpath hother
    rcases hasPath_pair hpath with ⟨rfl, hclean⟩ | ⟨rfl, hclean⟩ <;>
      rcases hasPath_pair hother with ⟨rfl, hotherClean⟩ | ⟨rfl, hotherClean⟩ <;>
      simp_all

theorem isolated_iff_suffixed_last : Isolated isolationSession [plainItem, suffixedItem] := by
  refine (isolated_iff isolationSession [plainItem, suffixedItem]
    (honestItems_pair plainItem_path suffixedItem_path (partialPath_ne [97]).symm)
    (by decide)).mpr fun _ => ?_
  intro earlier later cleanEarlier cleanLater hbefore hearlier hlater
  rcases hasPath_pair hearlier with ⟨rfl, hclean⟩ | ⟨rfl, hclean⟩ <;>
    rcases hasPath_pair hlater with ⟨rfl, hlaterClean⟩ | ⟨rfl, hlaterClean⟩
  · exact absurd hbefore (Nat.lt_irrefl 0)
  · cases plainItem_path.symm.trans hclean
    cases suffixedItem_path.symm.trans hlaterClean
    decide
  · exact absurd hbefore (Nat.not_lt_zero 1)
  · exact absurd hbefore (Nat.lt_irrefl 1)

/-- A whole call for `a.partial` and then `a`, one byte each. -/
def suffixedFirst : TransferInfo where
  transferId := FixedBytes.filled 16 0
  items := [suffixedItem, plainItem]
  resumeFrom := none
  completedFiles := []

def senderChecksum (index : Nat) : Message :=
  .fileChecksum
    { transferId := FixedBytes.filled 16 0, fileIndex := index, checksum := FixedBytes.filled 32 0 }

/-- The steps for one file: its parents, its partial file, one stream and the checksums. -/
def oneStreamFile (index : Nat) (data : Bytes) : List ReceiverInput :=
  [.proceed, .proceed, .proceed, .proceed, .proceed, .proceed,
    .stream (chunkStream 0 false data), .proceed, .proceed, .proceed, .proceed,
    .message (senderChecksum index)]

def wholeCall : List ReceiverInput :=
  [.answer true, .proceed, .proceed] ++ oneStreamFile 0 [7] ++ oneStreamFile 1 [8] ++
    [.proceed, .message (.complete
      { transferId := FixedBytes.filled 16 0, totalBytes := 2, durationMs := 1 })]

/-- The call receives both files and returns normally, but the first one is gone. -/
theorem suffixed_first_disturbed :
    ¬ ∀ session items, HonestItems items → items.length ≤ maxMessageSize →
      Isolated session items := by
  intro hclaim
  have hisolated := hclaim isolationSession [suffixedItem, plainItem]
    (honestItems_pair suffixedItem_path plainItem_path (partialPath_ne [97])) (by decide)
  obtain ⟨checksum, bytes, _, hbytes, _⟩ := hisolated.result suffixedFirst (fun _ => none) wholeCall
    _ _ _ ⟨rfl, 0, rfl⟩ rfl rfl nofun 0 (FileReceiver.partialPath [97])
    ⟨suffixedItem, rfl, suffixedItem_path⟩ rfl
  cases hbytes

end P2PFileTransfer.Transfer.Isolation
