import Mathlib.Algebra.Group.Action.Defs
import Mathlib.Algebra.Order.BigOperators.Group.List
import P2PFileTransfer.Core.FolderReceiver

/-!
# The receiver's 64-bit arithmetic

The frame limit bounds the number of items and the size check bounds each of them,
so every sum and every product of a receive call is exact in 64 bits.  Nothing
bounds the chunk size from below: with chunk size zero the call divides by zero as
soon as it counts the chunks of a file.
-/

namespace P2PFileTransfer.Transfer.ReceiverArithmetic

open P2PFileTransfer.Core
open P2PFileTransfer.Foundation.ByteFile
open P2PFileTransfer.Foundation.FileSystem
open P2PFileTransfer.Foundation.FixedWidth
open P2PFileTransfer.Foundation.Process
open P2PFileTransfer.Foundation.UnixPath
open P2PFileTransfer.Core.Protocol
open P2PFileTransfer.Core.TransferFile
open P2PFileTransfer.Core.TransferFolder
open P2PFileTransfer.Core.FolderReceiver

/-- A manifest within the frame limit whose sizes passed their check. -/
structure Bounded (info : TransferInfo) : Prop where
  length_le : info.items.length ≤ maxMessageSize
  size_le : ∀ file ∈ info.items, file.size ≤ maxTransferFileSize

/-- The receive call that reads this manifest never stops on a fault, whatever
happens before and after. -/
def ArithmeticSafe (session : Session) (info : TransferInfo) : Prop :=
  ∀ store rest final,
    run session (start store) (.proceed :: .message (.transferInfo info) :: rest) = some final →
    ∀ point fault, final.status ≠ .panicked point fault

/-- No chunk count is computed: the resume point names no file of the manifest, and
the first file that is not skipped has a path the receiver refuses. -/
structure NoDivision (info : TransferInfo) : Prop where
  resume : ∀ point, info.resumeFrom = some point → info.items[point.fileIndex]? = none
  files : ∀ index file, info.items[index]? = some file → skips info index = false →
    (∀ earlier, earlier < index → skips info earlier = true) →
    ∃ error, sanitizeRelativePath file.path = .error error

/-! ## Exact sums -/

theorem sum_sizes_le {files : List FileMetadata}
    (hsizes : ∀ file ∈ files, file.size ≤ maxTransferFileSize) :
    (files.map FileMetadata.size).sum ≤ files.length * maxTransferFileSize := by
  have hbound : ∀ size ∈ files.map FileMetadata.size, size ≤ maxTransferFileSize := by
    intro size hsize
    obtain ⟨file, hfile, rfl⟩ := List.mem_map.mp hsize
    exact hsizes file hfile
  have hsum := List.sum_le_card_nsmul _ _ hbound
  rwa [List.length_map, smul_eq_mul] at hsum

/-- The sizes of a bounded manifest, and of any beginning of it, leave room in 64 bits. -/
theorem sum_take_sizes_lt {info : TransferInfo} (hbounded : Bounded info) (count : Nat) :
    ((info.items.take count).map FileMetadata.size).sum + 2 ^ 42 < 2 ^ 64 := by
  have hsizes : ∀ file ∈ info.items.take count, file.size ≤ maxTransferFileSize :=
    fun file hfile => hbounded.size_le file (List.mem_of_mem_take hfile)
  have hsum := sum_sizes_le hsizes
  have hlength : (info.items.take count).length ≤ maxMessageSize :=
    Nat.le_trans (List.length_take_le' count info.items) hbounded.length_le
  have hproduct := Nat.mul_le_mul_right maxTransferFileSize hlength
  simp only [maxMessageSize, maxTransferFileSize] at *
  omega

theorem sum_sizes_eq_ok {info : TransferInfo} (hbounded : Bounded info) (count : Nat) :
    sum 64 0 ((info.items.take count).map FileMetadata.size) =
      .ok ((info.items.take count).map FileMetadata.size).sum := by
  have hroom := sum_take_sizes_lt hbounded count
  rw [sum_eq_ok (by omega), Nat.zero_add]

theorem chunkSize_lt (chunkSize : UInt32) : chunkSize.toNat < 2 ^ 32 := chunkSize.toNat_lt

/-- A file within the size bound is counted exactly, and its chunks end inside 64 bits. -/
theorem chunkCount_of_bounded {size : Nat} {chunkSize : UInt32} (hpos : chunkSize ≠ 0)
    (hsize : size ≤ maxTransferFileSize) :
    chunkCount size chunkSize = .ok (chunksOf size chunkSize.toNat) ∧
      chunksOf size chunkSize.toNat * chunkSize.toNat < 2 ^ 42 := by
  have hwidth := chunkSize_lt chunkSize
  have hend := chunksOf_mul_lt size (chunkSize_pos hpos)
  simp only [maxTransferFileSize] at hsize
  exact ⟨chunkCount_eq_ok hpos (by omega), by omega⟩

theorem size_of_item {info : TransferInfo} (hbounded : Bounded info) {index : Nat}
    {file : FileMetadata} (hfile : info.items[index]? = some file) :
    file.size ≤ maxTransferFileSize :=
  hbounded.size_le file (List.mem_of_getElem? hfile)

/-- The bytes behind a resume point are counted without a fault, unless the chunk size
is zero and the resume point names a file. -/
theorem alreadyTransferred_ok {info : TransferInfo} (hbounded : Bounded info)
    {chunkSize : UInt32} (hdivides : chunkSize ≠ 0 ∨ ∀ point, info.resumeFrom = some point →
      info.items[point.fileIndex]? = none) :
    ∃ already, alreadyTransferred chunkSize info = .ok already := by
  unfold alreadyTransferred
  cases hresume : info.resumeFrom with
  | none => exact ⟨0, rfl⟩
  | some point =>
      have hsum := sum_sizes_eq_ok hbounded point.fileIndex
      have hroom := sum_take_sizes_lt hbounded point.fileIndex
      cases hfile : info.items[point.fileIndex]? with
      | none =>
          simp only [bind, Except.bind, hsum, hfile]
          exact ⟨_, rfl⟩
      | some file =>
          have hpos : chunkSize ≠ 0 := by
            rcases hdivides with hpos | hout
            · exact hpos
            · rw [hout point hresume] at hfile
              cases hfile
          have hsize := size_of_item hbounded hfile
          obtain ⟨hcount, hend⟩ := chunkCount_of_bounded hpos hsize
          simp only [bind, Except.bind, hsum, hfile, hcount]
          split
          · rename_i hfew
            have hproduct := Nat.mul_le_mul_right chunkSize.toNat (Nat.le_of_lt hfew)
            rw [mul_eq_ok (by omega)]
            exact ⟨_, add_eq_ok (by omega)⟩
          · simp only [maxTransferFileSize] at hsize
            exact ⟨_, add_eq_ok (by omega)⟩

theorem makePlan_ok {info : TransferInfo} (hbounded : Bounded info) {chunkSize : UInt32}
    (hdivides : chunkSize ≠ 0 ∨ ∀ point, info.resumeFrom = some point →
      info.items[point.fileIndex]? = none) :
    ∃ plan, makePlan chunkSize info = .ok plan ∧ plan.info = info := by
  obtain ⟨already, halready⟩ := alreadyTransferred_ok hbounded hdivides
  have hsum := sum_sizes_eq_ok hbounded info.items.length
  rw [List.take_length] at hsum
  simp only [makePlan, bind, Except.bind, hsum, halready]
  exact ⟨_, rfl, rfl⟩

/-! ## A nonzero chunk size -/

theorem openWriter_calm {session : FileReceiver.Session} {task : FileReceiver.Task}
    (hend : task.totalChunks * session.config.chunkSize.toNat < 2 ^ 42)
    (stage : FileReceiver.Stage) (fault : Fault) :
    FileReceiver.openWriter session task ≠ .panicked stage fault := by
  unfold FileReceiver.openWriter
  split
  · exact fun hpanic => by cases hpanic
  · rw [mul_eq_ok (by omega)]
    simp only [Status.ofChecked]
    split <;> exact fun hpanic => by cases hpanic

theorem handleStream_calm {session : FileReceiver.Session} {task : FileReceiver.Task}
    (hend : task.totalChunks * session.config.chunkSize.toNat < 2 ^ 42) (seen : List Nat)
    (raw : Bytes) (stage : FileReceiver.Stage) (fault : Fault) :
    FileReceiver.handleStream session task seen raw ≠ .panicked stage fault := by
  intro hpanic
  rcases FileReceiver.handleStream_cases session task seen raw with
    ⟨error, _, hresult⟩ | ⟨_, hresult⟩ | ⟨index, data, haccept, ⟨other, _, hmul⟩ | hresult⟩
  · rw [hresult] at hpanic
    cases hpanic
  · rw [hresult] at hpanic
    cases hpanic
  · obtain ⟨hrange, _⟩ := index_of_acceptChunk haccept
    have hproduct := Nat.mul_le_mul_right session.config.chunkSize.toNat (Nat.le_of_lt hrange)
    rw [mul_eq_ok (by omega)] at hmul
    cases hmul
  · rw [hresult] at hpanic
    cases hpanic

/-- Receiving one file is free of faults when its chunks end inside 64 bits. -/
theorem file_resume_calm {session : FileReceiver.Session} {task : FileReceiver.Task}
    (hend : task.totalChunks * session.config.chunkSize.toNat < 2 ^ 42)
    (stage : FileReceiver.Stage) (reply : Reply Message Bool)
    (hfits : (FileReceiver.action session task stage).Fits reply) :
    ∀ point fault, FileReceiver.resume session task stage reply ≠ .panicked point fault := by
  refine FileReceiver.resume_elim (motive := fun _ status =>
      ∀ point fault, status ≠ .panicked point fault)
    ?begin ?parent ?opened ?setLen ?accept ?write ?rename ?reread ?noBytes ?send ?recv
    stage reply hfits
  case begin => exact openWriter_calm hend
  case accept => exact handleStream_calm hend
  case setLen =>
      intro expected point fault hpanic
      rw [FileReceiver.continueLoop] at hpanic
      split at hpanic <;> cases hpanic
  case write =>
      intro seen index offset data point fault hpanic
      rw [FileReceiver.continueLoop] at hpanic
      split at hpanic <;> cases hpanic
  case recv =>
      intro checksum message point fault hpanic
      unfold FileReceiver.compareChecksum at hpanic
      split at hpanic
      · split at hpanic
        · cases hpanic
        · split at hpanic <;> cases hpanic
      · cases hpanic
  case rename | noBytes =>
      intro point fault hpanic
      cases hpanic
  case parent | opened | reread | send =>
      intro _ point fault hpanic
      cases hpanic

variable {session : Session} {info : TransferInfo}

/-- The points of a call on this manifest, reached without a fault. -/
def Calm (session : Session) (info : TransferInfo) (status : PointStatus) : Prop :=
  SoundStatus session status ∧ CarriesStatus info status ∧
    ∀ point fault, status ≠ .panicked point fault

theorem calm_of_started (hpos : session.config.chunkSize ≠ 0) {plan : Plan} {point : Point}
    {index size : Nat} {fullPath : OsStr} {status : PointStatus} (hsize : size ≤ maxTransferFileSize)
    (hstarted : Started session plan point index size fullPath status) :
    ∀ other fault, status ≠ .panicked other fault := by
  intro other fault hpanic
  cases hstarted with
  | overflows hcount =>
      rw [(chunkCount_of_bounded hpos hsize).1] at hcount
      cases hcount
  | begins _ => cases hpanic

theorem calm_of_visited (hbounded : Bounded info) (hpos : session.config.chunkSize ≠ 0)
    {plan : Plan} (hplan : plan.info = info) {index : Nat} {status : PointStatus}
    (hvisited : Visited session plan index status) :
    ∀ other fault, status ≠ .panicked other fault := by
  intro other fault hpanic
  cases hvisited with
  | starts hfile _ _ hstarted =>
      exact calm_of_started hpos (size_of_item hbounded (hplan ▸ hfile)) hstarted _ _ hpanic
  | ends _ | skips _ _ | refuses _ _ | creates _ _ _ => cases hpanic

/-- With a nonzero chunk size no reply leads to a fault. -/
theorem calm_inductive (hbounded : Bounded info) (hpos : session.config.chunkSize ≠ 0) :
    Inductive (machine session) (Calm session info) := by
  constructor
  · rintro point reply hfits ⟨hsound, hcarries, _⟩
    refine ⟨soundStatus_inductive.1 point reply hfits hsound,
      carriesStatus_inductive.1 point reply hfits hcarries, ?_⟩
    refine resume_elim (motive := fun point status => point.Sound session → point.Carries info →
        ∀ other fault, status ≠ .panicked other fault)
      ?prepare ?info ?accept ?reject ?cancel ?output ?ready ?head ?parent ?file ?complete
      point reply hfits (hsound point rfl) (hcarries point rfl)
    case info => exact fun _ _ _ _ hnone => hnone.elim
    case accept =>
        intro other status hplanned _ hother point fault hpanic
        change other = info at hother
        subst hother
        cases hplanned with
        | overflows hfault =>
            obtain ⟨plan, hplan, _⟩ := makePlan_ok hbounded (Or.inl hpos)
            rw [hplan] at hfault
            cases hfault
        | plans _ => cases hpanic
    case head =>
        exact fun plan index status hvisited _ hplan => calm_of_visited hbounded hpos hplan hvisited
    case parent =>
        intro plan index fullPath status hstarted hparent hplan
        obtain ⟨file, _, hfile, _⟩ := hparent.2.path
        refine calm_of_started hpos ?_ hstarted
        rw [hfile]
        exact hparent.1.size_le file (List.mem_of_getElem? hfile)
    case file =>
        intro plan index task stage reply hreply hfile _ other fault hpanic
        obtain ⟨hadmitted, htask, _⟩ := hfile
        obtain ⟨file, _, hitem, _⟩ := htask.receives.path
        have hcount := htask.totalChunks file hitem
        have hsize := hadmitted.size_le file (List.mem_of_getElem? hitem)
        obtain ⟨hexact, hend⟩ := chunkCount_of_bounded hpos hsize
        rw [hexact] at hcount
        rw [Except.ok.inj hcount] at hend
        have hcalm := @file_resume_calm (fileSession session plan.info) task hend stage reply hreply
        cases hresume : FileReceiver.resume (fileSession session plan.info) task stage reply with
        | panicked inner fault => exact hcalm inner fault hresume
        | running _ | returned _ | failed _ _ =>
            rw [hresume] at hpanic
            cases hpanic
    case prepare | cancel =>
        intro _ _ other fault hpanic
        cases hpanic
    case reject | output | ready | complete =>
        intro _ _ _ other fault hpanic
        cases hpanic
  · rintro point error ⟨hsound, hcarries, _⟩
    refine ⟨soundStatus_inductive.2 point error hsound,
      (@carriesStatus_inductive session info).2 point error hcarries, ?_⟩
    intro other fault hpanic
    cases hpanic

/-! ## Chunk size zero -/

/-- The points of a call that has not counted a chunk: every file it visited was
skipped, and it receives none. -/
def Idle (info : TransferInfo) : Point → Prop
  | .prepare | .recvInfo | .createParent _ _ _ | .file _ _ _ _ => False
  | .sendCancel => True
  | .decide other => other = info
  | .createOutputDir plan | .sendReady plan | .recvComplete plan => plan.info = info
  | .fileHead plan index =>
      plan.info = info ∧ ∀ earlier, earlier < index → skips info earlier = true

def IdleStatus (info : TransferInfo) (status : PointStatus) : Prop :=
  (∀ point, status.point? = some point → Idle info point) ∧
    ∀ point fault, status ≠ .panicked point fault

theorem idleStatus_running {point : Point} (hpoint : Idle info point) :
    IdleStatus info (.running point) := by
  refine ⟨?_, fun _ _ hpanic => by cases hpanic⟩
  intro other hother
  cases hother
  exact hpoint

theorem idleStatus_failed {point : Point} (hpoint : Idle info point) (error : Error) :
    IdleStatus info (.failed point error) := by
  refine ⟨?_, fun _ _ hpanic => by cases hpanic⟩
  intro other hother
  cases hother
  exact hpoint

theorem idleStatus_returned (result : TransferSummary) : IdleStatus info (.returned result) := by
  constructor
  · intro point hpoint
    cases hpoint
  · intro point fault hpanic
    cases hpanic

/-- A head that is not at a file to receive stays idle. -/
theorem idleStatus_of_visited (hdivision : NoDivision info) {plan : Plan} {index : Nat}
    {status : PointStatus} (hhead : Idle info (.fileHead plan index))
    (hvisited : Visited session plan index status) : IdleStatus info status := by
  have hstay := hhead
  obtain ⟨rfl, hskipped⟩ := hhead
  have hrefused : ∀ {file relativePath}, plan.info.items[index]? = some file →
      ¬ skips plan.info index = true → sanitizeRelativePath file.path ≠ .ok relativePath := by
    intro file relativePath hfile hskip hsanitize
    obtain ⟨error, herror⟩ :=
      hdivision.files index file hfile (Bool.eq_false_iff.mpr hskip) hskipped
    rw [hsanitize] at herror
    cases herror
  cases hvisited with
  | ends _ =>
      have hlast : Idle plan.info (.recvComplete plan) := rfl
      exact idleStatus_running hlast
  | skips _ hskip =>
      have hnext : Idle plan.info (.fileHead plan (index + 1)) := by
        refine ⟨rfl, ?_⟩
        intro earlier hearlier
        rcases Nat.lt_succ_iff_lt_or_eq.mp hearlier with hbelow | rfl
        · exact hskipped earlier hbelow
        · exact hskip
      exact idleStatus_running hnext
  | refuses _ _ => exact idleStatus_failed hstay _
  | creates hfile hskip hsanitize | starts hfile hskip hsanitize _ =>
      exact absurd hsanitize (hrefused hfile hskip)

theorem idleStatus_inductive (hbounded : Bounded info) (hdivision : NoDivision info) :
    Inductive (machine session) (IdleStatus info) := by
  constructor
  · rintro point reply hfits ⟨hidle, _⟩
    refine resume_elim (motive := fun point status => Idle info point → IdleStatus info status)
      ?prepare ?info ?accept ?reject ?cancel ?output ?ready ?head ?parent ?file ?complete
      point reply hfits (hidle point rfl)
    case prepare => exact fun hnone => hnone.elim
    case info => exact fun _ _ _ hnone => hnone.elim
    case parent => exact fun _ _ _ _ _ hnone => hnone.elim
    case file => exact fun _ _ _ _ _ _ hnone => hnone.elim
    case accept =>
        intro other status hplanned hother
        change other = info at hother
        subst hother
        cases hplanned with
        | overflows hfault =>
            obtain ⟨plan, hplan, _⟩ := makePlan_ok hbounded (Or.inr hdivision.resume)
            rw [hplan] at hfault
            cases hfault
        | plans hplan => exact idleStatus_running (makePlan_info hplan)
    case reject => exact fun _ _ => idleStatus_running trivial
    case cancel => exact fun _ => idleStatus_returned _
    case output => exact fun plan hplan => idleStatus_running hplan
    case ready =>
        intro plan hplan
        have hfirst : Idle info (.fileHead plan 0) :=
          ⟨hplan, fun _ hzero => absurd hzero (Nat.not_lt_zero _)⟩
        exact idleStatus_running hfirst
    case head =>
        exact fun plan index status hvisited hhead => idleStatus_of_visited hdivision hhead hvisited
    case complete => exact fun _ _ => idleStatus_returned _
  · rintro point error ⟨hidle, _⟩
    exact idleStatus_failed (hidle point rfl) error

/-- Skipped files are passed one computation each. -/
theorem run_skips {plan : Plan} (store : Store) (count : Nat)
    (hcount : count ≤ plan.info.items.length)
    (hskipped : ∀ earlier, earlier < count → skips plan.info earlier = true) :
    run session ⟨.running (.fileHead plan 0), store⟩ (List.replicate count .proceed) =
      some ⟨.running (.fileHead plan count), store⟩ := by
  induction count with
  | zero => rfl
  | succ count ih =>
      have hbefore := ih (Nat.le_of_succ_le hcount) fun earlier hearlier =>
        hskipped earlier (Nat.lt_succ_of_lt hearlier)
      have hvisit : visitFile session plan count = .running (.fileHead plan (count + 1)) := by
        obtain ⟨file, hfile⟩ : ∃ file, plan.info.items[count]? = some file :=
          ⟨_, List.getElem?_eq_getElem hcount⟩
        simp only [visitFile, hfile]
        rw [if_pos (hskipped count (Nat.lt_succ_self count))]
      rw [List.replicate_succ']
      refine (Foundation.Run.run_append_of_run hbefore _).trans ?_
      change some (⟨visitFile session plan count, store⟩ : ReceiverState) = _
      rw [hvisit]

/-- An accepted manifest leads to the first file that is not skipped. -/
theorem run_to_parent {plan : Plan} (hplan : makePlan session.config.chunkSize info = .ok plan)
    {index : Nat} {file : FileMetadata} {relativePath : OsStr}
    (hfile : info.items[index]? = some file) (hskip : skips info index = false)
    (hskipped : ∀ earlier, earlier < index → skips info earlier = true)
    (hsanitize : sanitizeRelativePath file.path = .ok relativePath) (store : Store) :
    run session ⟨.running (.decide info), store⟩
      (([.answer true, .proceed, .proceed] ++ List.replicate index .proceed) ++ [.proceed]) =
      some ⟨.running (.createParent plan index (join session.outputDir relativePath)), store⟩ := by
  have hinfo := makePlan_info hplan
  subst hinfo
  have haccept : run session ⟨.running (.decide plan.info), store⟩
      [.answer true, .proceed, .proceed] = some ⟨.running (.fileHead plan 0), store⟩ := by
    change run session ⟨Status.ofChecked _ (makePlan session.config.chunkSize plan.info) _, store⟩
      [.proceed, .proceed] = _
    rw [hplan]
    rfl
  have hskips := @run_skips session plan store index
    (Nat.le_of_lt (List.getElem?_eq_some_iff.mp hfile).1) hskipped
  obtain ⟨_, _, _, _, _, _, hparent⟩ := locations_of_accepted session.outputDir hsanitize
  have hvisit : visitFile session plan index =
      .running (.createParent plan index (join session.outputDir relativePath)) := by
    simp only [visitFile, hfile, hskip, hsanitize, Status.ofExcept, hparent]
    rfl
  have hhead := (Foundation.Run.run_append_of_run haccept _).trans hskips
  refine (Foundation.Run.run_append_of_run hhead _).trans ?_
  change some (⟨visitFile session plan index, store⟩ : ReceiverState) = _
  rw [hvisit]

/-- Counting the chunks of any file stops on a fault. -/
theorem startFile_zero (hzero : session.config.chunkSize = 0) (plan : Plan) (point : Point)
    (index size : Nat) (fullPath : OsStr) :
    ∃ fault, startFile session plan point index size fullPath = .panicked point fault := by
  obtain ⟨fault, hfault⟩ := chunkCount_zero size
  refine ⟨fault, ?_⟩
  rw [startFile, hzero, hfault]
  rfl

theorem makePlan_zero (hbounded : Bounded info) {point : ResumePoint} {file : FileMetadata}
    (hresume : info.resumeFrom = some point) (hfile : info.items[point.fileIndex]? = some file) :
    ∃ fault, makePlan 0 info = .error fault := by
  obtain ⟨fault, hfault⟩ := chunkCount_zero file.size
  have htotal := sum_sizes_eq_ok hbounded info.items.length
  have hbefore := sum_sizes_eq_ok hbounded point.fileIndex
  rw [List.take_length] at htotal
  refine ⟨fault, ?_⟩
  simp only [makePlan, alreadyTransferred, hresume, bind, Except.bind, htotal, hbefore, hfile,
    hfault]

/-- With chunk size zero some continuation of the call stops on a fault as soon as the
manifest makes it count the chunks of a file. -/
theorem panics_of_division (hbounded : Bounded info) (hzero : session.config.chunkSize = 0)
    (hdivision : ¬ NoDivision info) (store : Store) :
    ∃ rest final point fault, run session ⟨.running (.decide info), store⟩ rest = some final ∧
      final.status = .panicked point fault := by
  by_cases hresume : ∀ point, info.resumeFrom = some point → info.items[point.fileIndex]? = none
  · obtain ⟨plan, hplan, _⟩ : ∃ plan, makePlan 0 info = .ok plan ∧ plan.info = info :=
      makePlan_ok hbounded (Or.inr hresume)
    have hreceived : ∃ index file, info.items[index]? = some file ∧ skips info index = false ∧
        (∀ earlier, earlier < index → skips info earlier = true) ∧
        ∃ relativePath, sanitizeRelativePath file.path = .ok relativePath := by
      by_contra hnone
      refine hdivision ⟨hresume, ?_⟩
      intro index file hfile hskip hskipped
      cases hsanitize : sanitizeRelativePath file.path with
      | error error => exact ⟨error, rfl⟩
      | ok relativePath =>
          exact absurd ⟨index, file, hfile, hskip, hskipped, relativePath, hsanitize⟩ hnone
    obtain ⟨index, file, hfile, hskip, hskipped, relativePath, hsanitize⟩ := hreceived
    have hparent := run_to_parent (hzero ▸ hplan) hfile hskip hskipped hsanitize store
    obtain ⟨fault, hfault⟩ := startFile_zero hzero plan
      (.createParent plan index (join session.outputDir relativePath)) index
      ((plan.info.items[index]?.map FileMetadata.size).getD 0)
      (join session.outputDir relativePath)
    exact ⟨_, _, _, fault, Foundation.Run.run_append_of_run hparent [.proceed], hfault⟩
  · obtain ⟨point, hpoint⟩ := not_forall.mp hresume
    obtain ⟨hpoint, hfile⟩ := Classical.not_imp.mp hpoint
    obtain ⟨file, hfile⟩ := Option.ne_none_iff_exists'.mp hfile
    obtain ⟨fault, hfault⟩ := makePlan_zero hbounded hpoint hfile
    refine ⟨[.answer true], ⟨.panicked (.decide info) fault, store⟩, _, _, ?_, rfl⟩
    change some (⟨Status.ofChecked _ (makePlan session.config.chunkSize info) _, store⟩ :
      ReceiverState) = _
    rw [hzero, hfault]
    rfl

/-! ## The exact condition -/

/-- The chunk size `send` puts into its configuration for `--chunk-size`, in 32 bits. -/
def chunkSizeOption (kib : UInt32) : UInt32 := kib * 1024

/-- A fresh manifest of one file `f` with one byte, and its frame payload. -/
def oneByteManifest : TransferInfo where
  transferId := FixedBytes.filled 16 0
  items := [{ path := [102], size := 1, modified := 0, checksum := FixedBytes.filled 32 0 }]
  resumeFrom := none
  completedFiles := []

def oneBytePayload : Bytes :=
  [0x81, 0xac] ++ [84, 114, 97, 110, 115, 102, 101, 114, 73, 110, 102, 111] ++
    [0x94, 0xc4, 0x10] ++ List.replicate 16 0 ++
    [0x91, 0x94, 0xa1, 102, 1, 0, 0xd9, 0x40] ++ List.replicate 64 48 ++ [0xc0, 0x90]

def decodeOneByte (payload : Bytes) : Option Message :=
  if payload = oneBytePayload then some (.transferInfo oneByteManifest) else none

def sessionWith (chunkSize : UInt32) : Session where
  codec := .stored fun _ => FixedBytes.filled 32 0
  config := { ConfigMessage.default with chunkSize := chunkSize }
  outputDir := [111]

example : oneBytePayload.length = (Message.transferInfo oneByteManifest).encodedLen := by decide

theorem decodeOneByte_length (payload : Bytes) (info : TransferInfo)
    (hinfo : decodeOneByte payload = some (.transferInfo info)) :
    info.items.length ≤ payload.length := by
  rw [decodeOneByte] at hinfo
  split at hinfo
  · rename_i hpayload
    cases hinfo
    rw [hpayload]
    decide
  · cases hinfo

end P2PFileTransfer.Transfer.ReceiverArithmetic
