import P2PFileTransfer.Core.TransferFile

/-!
# Manifest paths and the transfer state

The receiver rebuilds every manifest path from its normal components and refuses
any other path.  The sender's state lists the files of the transfer, the finished
ones and the chunks of each file that were acknowledged; a manifest is announced
from it.  The percentages and the statistics derived from these numbers are only
logged and are left out.
-/

namespace P2PFileTransfer.Core.TransferFolder

open P2PFileTransfer.Foundation.ByteFile
open P2PFileTransfer.Foundation.FixedWidth
open P2PFileTransfer.Foundation.UnixPath
open P2PFileTransfer.Core.Protocol
open P2PFileTransfer.Core.TransferFile

/-! ## Manifest paths -/

/-- The component loop: push normal components, refuse the others. -/
def collectComponents (path : OsStr) : OsStr → List Component → Except Error OsStr
  | clean, [] => .ok clean
  | clean, .normal part :: rest => collectComponents path (push clean part) rest
  | _, .curDir :: _ =>
      .error (.protocol [.text "rejecting `.` component in transfer path: ", .path path])
  | _, .parentDir :: _ =>
      .error (.protocol [.text "rejecting `..` component in transfer path: ", .path path])
  | _, .rootDir :: _ =>
      .error (.protocol [.text "rejecting drive/root component in transfer path: ", .path path])

def sanitizeRelativePath (path : OsStr) : Except Error OsStr :=
  if isAbsolute path then
    .error (.protocol [.text "rejecting absolute path in transfer: ", .path path])
  else
    match collectComponents path [] (components path) with
    | .error error => .error error
    | .ok clean =>
        if clean = [] then .error (.protocol [.text "transfer path is empty"]) else .ok clean

/-- The loop accepts exactly lists of normal components and renders them. -/
theorem collectComponents_eq_ok_iff (path : OsStr) {names : List OsStr} {rest : List Component}
    (hnames : ∀ name ∈ names, IsName name) (hrest : ∀ name, .normal name ∈ rest → IsName name)
    (clean : OsStr) :
    collectComponents path (render names) rest = .ok clean ↔
      ∃ more : List OsStr, rest = more.map .normal ∧ clean = render (names ++ more) := by
  induction rest generalizing names with
  | nil =>
      constructor
      · intro hcollect
        cases hcollect
        exact ⟨[], rfl, by rw [List.append_nil]⟩
      · rintro ⟨more, hmore, rfl⟩
        rw [List.map_eq_nil_iff.mp hmore.symm, List.append_nil]
        rfl
  | cons component rest ih =>
      cases component with
      | normal part =>
          have hpart : IsName part := hrest part List.mem_cons_self
          have hlater : ∀ name, .normal name ∈ rest → IsName name :=
            fun name hname => hrest name (List.mem_cons_of_mem _ hname)
          rw [collectComponents, push_render hnames hpart,
            ih (forall_isName_concat hnames hpart) hlater]
          constructor
          · rintro ⟨more, rfl, rfl⟩
            exact ⟨part :: more, rfl, by rw [List.append_assoc, List.singleton_append]⟩
          · rintro ⟨more, hmore, rfl⟩
            cases more with
            | nil => cases hmore
            | cons first more =>
                obtain ⟨hfirst, hrest⟩ := List.cons.inj hmore
                cases hfirst
                exact ⟨more, hrest, by rw [List.append_assoc, List.singleton_append]⟩
      | curDir | parentDir | rootDir =>
          constructor
          · intro hcollect
            cases hcollect
          · rintro ⟨more, hmore, _⟩
            cases more with
            | nil => cases hmore
            | cons first more => cases (List.cons.inj hmore).1

/-- A path is accepted exactly when it is relative and consists of at least one
normal component and nothing else; the result renders those components. -/
theorem sanitizeRelativePath_eq_ok_iff (path clean : OsStr) :
    sanitizeRelativePath path = .ok clean ↔
      isAbsolute path = false ∧ ∃ names : List OsStr, names ≠ [] ∧
        components path = names.map .normal ∧ clean = render names := by
  have hempty : ∀ name ∈ ([] : List OsStr), IsName name := by simp
  have hall : ∀ name, .normal name ∈ components path → IsName name :=
    fun _ hname => isName_of_normal_mem_components hname
  have hcollect := collectComponents_eq_ok_iff path hempty hall
  have hisName : ∀ names : List OsStr, components path = names.map .normal →
      ∀ name ∈ names, IsName name := by
    intro names hnames name hname
    have hmem : Component.normal name ∈ components path := by
      rw [hnames]
      exact List.mem_map_of_mem hname
    exact isName_of_normal_mem_components hmem
  have hrender : render [] = [] := rfl
  rw [sanitizeRelativePath]
  cases habsolute : isAbsolute path with
  | true => simp
  | false =>
      rw [if_neg Bool.false_ne_true]
      constructor
      · intro hsanitize
        refine ⟨rfl, ?_⟩
        cases hloop : collectComponents path [] (components path) with
        | error error =>
            rw [hloop] at hsanitize
            cases hsanitize
        | ok result =>
            rw [hloop] at hsanitize
            dsimp only at hsanitize
            obtain ⟨names, hcomponents, hresult⟩ := (hcollect result).mp (by rw [hrender, hloop])
            rw [List.nil_append] at hresult
            split at hsanitize
            · cases hsanitize
            · rename_i hnonempty
              cases hsanitize
              refine ⟨names, ?_, hcomponents, hresult⟩
              rintro rfl
              exact hnonempty hresult
      · rintro ⟨_, names, hne, hcomponents, rfl⟩
        have hloop : collectComponents path [] (components path) = .ok (render names) :=
          hrender ▸ (hcollect (render names)).mpr ⟨names, hcomponents, rfl⟩
        have hnonempty : render names ≠ [] := fun hnil =>
          hne ((render_eq_nil_iff (hisName names hcomponents)).mp hnil)
        rw [hloop]
        dsimp only
        rw [if_neg hnonempty]

/-- The names an accepted path consists of. -/
theorem names_of_sanitizeRelativePath {path clean : OsStr}
    (hsanitize : sanitizeRelativePath path = .ok clean) :
    ∃ names : List OsStr, names ≠ [] ∧ (∀ name ∈ names, IsName name) ∧
      components path = names.map .normal ∧ clean = render names := by
  obtain ⟨_, names, hne, hcomponents, hclean⟩ :=
    (sanitizeRelativePath_eq_ok_iff path clean).mp hsanitize
  refine ⟨names, hne, ?_, hcomponents, hclean⟩
  intro name hname
  have hmem : Component.normal name ∈ components path := by
    rw [hcomponents]
    exact List.mem_map_of_mem hname
  exact isName_of_normal_mem_components hmem

/-! ## Transfer state -/

structure FolderTransferState where
  transferId : Uuid
  folderName : OsStr
  files : List FileMetadata
  completedFiles : List Nat
  currentFile : Option Nat
  totalBytes : Nat
  transferredBytes : Nat
  /-- A file without an entry has no recorded chunk. -/
  fileChunks : Nat → List Nat
  config : ConfigMessage

def FolderTransferState.new (transferId : Uuid) (folderName : OsStr) (files : List FileMetadata)
    (config : ConfigMessage) : FolderTransferState where
  transferId := transferId
  folderName := folderName
  files := files
  completedFiles := []
  currentFile := none
  totalBytes := (files.map FileMetadata.size).sum
  transferredBytes := 0
  fileChunks := fun _ => []
  config := config

namespace FolderTransferState

def markChunkComplete (state : FolderTransferState) (fileIndex chunkIndex : Nat) :
    FolderTransferState :=
  { state with
    fileChunks := fun other =>
      if other = fileIndex then state.fileChunks fileIndex ++ [chunkIndex]
      else state.fileChunks other }

def getCompletedChunks (state : FolderTransferState) (fileIndex : Nat) : List Nat :=
  state.fileChunks fileIndex

def markFileComplete (state : FolderTransferState) (fileIndex : Nat) : FolderTransferState :=
  if fileIndex ∈ state.completedFiles then state
  else
    { state with
      completedFiles := state.completedFiles ++ [fileIndex]
      transferredBytes := state.transferredBytes +
        (state.files[fileIndex]?.map FileMetadata.size).getD 0 }

def nextFile (state : FolderTransferState) : Option Nat :=
  (List.range state.files.length).find? fun index => decide (index ∉ state.completedFiles)

/-- The resume point of a state that already lists its files. -/
def resumePoint (state : FolderTransferState) (transferId : Uuid) : Option ResumePoint :=
  match state.nextFile with
  | none => none
  | some next =>
      if state.getCompletedChunks next = [] then none
      else some
        { transferId := transferId
          fileIndex := truncate 32 next
          completedChunks := state.getCompletedChunks next }

/-- The manifest that opens an attempt. -/
def transferInfo (state : FolderTransferState) (transferId : Uuid)
    (resumeFrom : Option ResumePoint) : TransferInfo where
  transferId := transferId
  items := state.files
  resumeFrom := resumeFrom
  completedFiles := state.completedFiles.map (truncate 32)

@[simp]
theorem markChunkComplete_files (state : FolderTransferState) (fileIndex chunkIndex : Nat) :
    (state.markChunkComplete fileIndex chunkIndex).files = state.files := rfl

@[simp]
theorem markChunkComplete_completedFiles (state : FolderTransferState)
    (fileIndex chunkIndex : Nat) :
    (state.markChunkComplete fileIndex chunkIndex).completedFiles = state.completedFiles := rfl

theorem markChunkComplete_fileChunks_self (state : FolderTransferState)
    (fileIndex chunkIndex : Nat) :
    (state.markChunkComplete fileIndex chunkIndex).fileChunks fileIndex =
      state.fileChunks fileIndex ++ [chunkIndex] := if_pos rfl

theorem markChunkComplete_fileChunks_ne (state : FolderTransferState)
    {fileIndex other : Nat} (chunkIndex : Nat) (hne : other ≠ fileIndex) :
    (state.markChunkComplete fileIndex chunkIndex).fileChunks other = state.fileChunks other :=
  if_neg hne

@[simp]
theorem markFileComplete_files (state : FolderTransferState) (fileIndex : Nat) :
    (state.markFileComplete fileIndex).files = state.files := by
  unfold markFileComplete
  split <;> rfl

@[simp]
theorem markFileComplete_fileChunks (state : FolderTransferState) (fileIndex : Nat) :
    (state.markFileComplete fileIndex).fileChunks = state.fileChunks := by
  unfold markFileComplete
  split <;> rfl

/-- Finishing the first unfinished file extends the finished prefix by it. -/
theorem markFileComplete_completedFiles {state : FolderTransferState} {count : Nat}
    (hfinished : state.completedFiles = List.range count) :
    (state.markFileComplete count).completedFiles = List.range (count + 1) := by
  have hfresh : count ∉ state.completedFiles := by
    rw [hfinished]
    simp
  rw [markFileComplete, if_neg hfresh, List.range_succ, hfinished]

/-- With a finished prefix the next file is the one right behind it. -/
theorem nextFile_of_prefix {state : FolderTransferState} {count : Nat}
    (hfinished : state.completedFiles = List.range count) :
    state.nextFile = if count < state.files.length then some count else none := by
  rw [nextFile, hfinished]
  split
  · rename_i hcount
    rw [List.find?_range_eq_some]
    refine ⟨by simp, List.mem_range.mpr hcount, ?_⟩
    intro earlier hearlier
    simp [hearlier]
  · rename_i hcount
    rw [List.find?_range_eq_none]
    intro index hindex
    have hbelow : index < count := Nat.lt_of_lt_of_le hindex (Nat.le_of_not_lt hcount)
    simp [hbelow]

end FolderTransferState

end P2PFileTransfer.Core.TransferFolder
