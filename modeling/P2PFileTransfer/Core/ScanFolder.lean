import P2PFileTransfer.Core.FolderSender
import P2PFileTransfer.Foundation.DirectoryTree
import P2PFileTransfer.Foundation.LossyText

/-!
# The directory scan

`scan_folder` over a directory tree, and what a path opens in that tree.  Entries are
told apart without following links, and the path of a file is written down twice: as the
bytes it has, and as text in the metadata.  The tree does not change in the meantime.
-/

namespace P2PFileTransfer.Core.ScanFolder

open P2PFileTransfer.Foundation.DirectoryTree
open P2PFileTransfer.Foundation.LossyText (lossy)
open P2PFileTransfer.Foundation.UnixPath
open P2PFileTransfer.Core.Protocol
open P2PFileTransfer.Core.FolderSender (metadataOf sourcePath)
open P2PFileTransfer.Core.TransferFolder

/-- What the file system says about a file; the time counts from the epoch, where there
is one. -/
structure Metadata where
  len : Nat
  modified : Option Int
  deriving DecidableEq, Repr

/-- A time before the epoch counts as the epoch. -/
def Metadata.modifiedSecs (metadata : Metadata) : Nat :=
  (metadata.modified.map Int.toNat).getD 0

/-- A folder to send.  Its path has a file name, which `send` checks first.  What a path
opens that does not stay inside the tree is up to the file system around it: `elsewhere`
tells which file of the tree, if any. -/
structure Folder where
  path : OsStr
  name : OsStr
  fileName_path : fileName path = some name
  entries : Entries OsStr Metadata
  wellFormed : (Node.dir entries).WellFormed IsName
  elsewhere : Location → Option (List OsStr)

/-! ## The file system -/

/-- The names that lead from one location to another below it. -/
def namesBelow : Location → Location → Option (List OsStr)
  | [], [] => some []
  | [], .normal name :: rest => (namesBelow [] rest).map fun names => name :: names
  | first :: top, second :: place => if first = second then namesBelow top place else none
  | _, _ => none

/-- Where names lead to in a tree, a link taking them out of it. -/
inductive Reached where
  | file
  | outside
  | nothing
  deriving DecidableEq, Repr

def reach : Node OsStr Metadata → List OsStr → Reached
  | .file _, [] => .file
  | .link, _ => .outside
  | .dir entries, name :: rest =>
      match find name entries with
      | some node => reach node rest
      | none => .nothing
  | _, _ => .nothing

namespace Folder

def root (folder : Folder) : Node OsStr Metadata := .dir folder.entries

/-- `folder_path.parent().unwrap_or(folder_path)`. -/
def basePath (folder : Folder) : OsStr := (parentPath folder.path).getD folder.path

/-- The file that is opened at a location, by where its names led. -/
def arrived (folder : Folder) (location : Location) (names : List OsStr) :
    Reached → Option (List OsStr)
  | .file => some names
  | .outside => folder.elsewhere location
  | .nothing => none

/-- The names below the folder of the regular file that a path opens. -/
def opened (folder : Folder) (path : OsStr) : Option (List OsStr) :=
  match namesBelow (components folder.path) (components path) with
  | none => folder.elsewhere (components path)
  | some names => folder.arrived (components path) names (reach folder.root names)

def readDir (folder : Folder) (path : OsStr) : Except Error (Entries OsStr Metadata) :=
  match (namesBelow (components folder.path) (components path)).bind folder.root.lookup with
  | some (.dir entries) => .ok entries
  | _ => .error (.network [.text "cannot read directory ", .path path])

end Folder

/-! ## The scan -/

abbrev Scanned := OsStr × FileMetadata

def scanFile (base path : OsStr) (metadata : Metadata) : Except Error Scanned :=
  match stripPrefix path base with
  | none => .error (.protocol [.text "Invalid path: prefix not found"])
  | some relativePath =>
      match sanitizeRelativePath relativePath with
      | .error error => .error error
      | .ok relativePath =>
          .ok (relativePath,
            metadataOf (lossy relativePath) metadata.len metadata.modifiedSecs)

/-- The entries of one directory: directories are pushed behind the others, links and
everything else is passed over. -/
def scanEntries (base current : OsStr) :
    Entries OsStr Metadata → List OsStr → List Scanned → Except Error (List OsStr × List Scanned)
  | [], stack, files => .ok (stack, files)
  | (name, .file metadata) :: rest, stack, files =>
      match scanFile base (join current name) metadata with
      | .error error => .error error
      | .ok scanned => scanEntries base current rest stack (files ++ [scanned])
  | (name, .dir _) :: rest, stack, files =>
      scanEntries base current rest (stack ++ [join current name]) files
  | (_, .link) :: rest, stack, files | (_, .other) :: rest, stack, files =>
      scanEntries base current rest stack files

/-- The loop, for a number of directories at most. -/
def scanLoop (folder : Folder) :
    Nat → List OsStr → List Scanned → Option (Except Error (List Scanned))
  | _, [], files => some (.ok files)
  | 0, _ :: _, _ => none
  | fuel + 1, current :: stack, files =>
      match folder.readDir current with
      | .error error => some (.error error)
      | .ok entries =>
          match scanEntries folder.basePath current entries stack files with
          | .error error => some (.error error)
          | .ok (stack, files) => scanLoop folder fuel stack files

def scanFolder (folder : Folder) (fuel : Nat) : Option (Except Error (List Scanned)) :=
  scanLoop folder fuel [folder.path] []

/-! ## Paths in the tree -/

/-- The path the scan has in hand at the given names below the folder. -/
def pathOf (folder : Folder) (place : List OsStr) : OsStr := place.foldl join folder.path

/-- What the scan writes down about a file. -/
def scannedOf (folder : Folder) (file : List OsStr × Metadata) : Scanned :=
  (render (folder.name :: file.1),
    metadataOf (lossy (render (folder.name :: file.1))) file.2.len file.2.modifiedSecs)

variable {folder : Folder} {place names : List OsStr} {name : OsStr}

theorem components_path (folder : Folder) :
    components folder.path = components folder.basePath ++ [.normal folder.name] := by
  obtain ⟨base, hbase, hsplit⟩ := components_parentPath folder.fileName_path
  rw [Folder.basePath, hbase]
  exact hsplit

theorem isName_name (folder : Folder) : IsName folder.name := by
  have hmem : Component.normal folder.name ∈ components folder.path := by
    rw [components_path]
    simp
  exact isName_of_normal_mem_components hmem

theorem isName_of_place (folder : Folder) (hplace : ∀ name ∈ place, IsName name) :
    ∀ name ∈ folder.name :: place, IsName name :=
  List.forall_mem_cons.mpr ⟨isName_name folder, hplace⟩

theorem pathOf_concat (folder : Folder) (place : List OsStr) (name : OsStr) :
    pathOf folder (place ++ [name]) = join (pathOf folder place) name := by
  rw [pathOf, List.foldl_append]
  rfl

theorem components_pathOf_append (hplace : ∀ name ∈ place, IsName name) :
    components (pathOf folder place) = components folder.path ++ place.map .normal := by
  induction place using List.reverseRecOn with
  | nil => rw [List.map_nil, List.append_nil, pathOf, List.foldl_nil]
  | append_singleton front last ih =>
      have hfront : ∀ name ∈ front, IsName name := fun name hname => hplace name (by simp [hname])
      have hlast : IsName last := hplace last (by simp)
      rw [pathOf_concat, components_join_name _ hlast, ih hfront, List.map_append, List.append_assoc]
      rfl

theorem components_pathOf (hplace : ∀ name ∈ place, IsName name) :
    components (pathOf folder place) =
      components folder.basePath ++ (folder.name :: place).map .normal := by
  rw [components_pathOf_append hplace, components_path, List.append_assoc]
  rfl

theorem namesBelow_append (top : Location) (names : List OsStr) :
    namesBelow top (top ++ names.map .normal) = some names := by
  induction top with
  | nil =>
      induction names with
      | nil => rfl
      | cons name names ih =>
          rw [List.nil_append] at ih
          rw [List.map_cons, List.nil_append, namesBelow, ih, Option.map_some]
  | cons first top ih => rw [List.cons_append, namesBelow, if_pos rfl, ih]

/-- A directory of the tree is read where the scan has it. -/
theorem readDir_pathOf {entries : Entries OsStr Metadata} (hplace : ∀ name ∈ place, IsName name)
    (hlookup : folder.root.lookup place = some (.dir entries)) :
    folder.readDir (pathOf folder place) = .ok entries := by
  rw [Folder.readDir, components_pathOf_append hplace, namesBelow_append, Option.bind_some, hlookup]

/-- What is stripped from a path of the tree is everything before the folder's name, and
the rest is accepted as it is. -/
theorem scanFile_pathOf (hplace : ∀ name ∈ place, IsName name) (metadata : Metadata) :
    scanFile folder.basePath (pathOf folder place) metadata =
      .ok (scannedOf folder (place, metadata)) := by
  have hnames := isName_of_place folder hplace
  have hstrip : stripPrefix (pathOf folder place) folder.basePath =
      some (render (folder.name :: place)) := by
    rw [stripPrefix, components_pathOf hplace, if_pos (List.prefix_append _ _), List.drop_left,
      collect_names hnames]
  have haccepted : sanitizeRelativePath (render (folder.name :: place)) =
      .ok (render (folder.name :: place)) :=
    (sanitizeRelativePath_eq_ok_iff _ _).mpr ⟨hasRoot_render hnames, folder.name :: place,
      List.cons_ne_nil _ _, components_render hnames, rfl⟩
  rw [scanFile, hstrip]
  dsimp only
  rw [haccepted]
  rfl

/-! ## The scan is the walk -/

theorem scanEntries_eq {entries : Entries OsStr Metadata} (hplace : ∀ name ∈ place, IsName name)
    (hentries : AllWellFormed IsName entries) (stack : List OsStr) (files : List Scanned) :
    scanEntries folder.basePath (pathOf folder place) entries stack files =
      .ok (stack ++ (subdirectories place entries).map fun directory => pathOf folder directory.1,
        files ++ (ownFiles place entries).map (scannedOf folder)) := by
  induction entries generalizing stack files with
  | nil => simp [scanEntries, subdirectories, ownFiles]
  | cons entry rest ih =>
      obtain ⟨name, node⟩ := entry
      obtain ⟨hname, _, hrest⟩ := hentries
      have hinner := forall_isName_concat hplace hname
      cases node with
      | file metadata =>
          rw [scanEntries, ← pathOf_concat, scanFile_pathOf hinner]
          dsimp only
          rw [ih hrest]
          simp [subdirectories, ownFiles]
      | dir inner =>
          rw [scanEntries, ← pathOf_concat, ih hrest]
          simp [subdirectories, ownFiles]
      | link | other =>
          rw [scanEntries, ih hrest]
          simp [subdirectories, ownFiles]

/-- Over directories of the tree the loop takes the steps of the breadth-first walk. -/
theorem scanLoop_eq (fuel : Nat) (queue : List (Directory OsStr Metadata))
    (hqueue : ∀ directory ∈ queue, folder.root.lookup directory.1 = some (.dir directory.2))
    (found : List (List OsStr × Metadata)) :
    scanLoop folder fuel (queue.map fun directory => pathOf folder directory.1)
        (found.map (scannedOf folder)) =
      (walk fuel queue found).map fun all => .ok (all.map (scannedOf folder)) := by
  induction fuel generalizing queue found with
  | zero =>
      cases queue with
      | nil => rfl
      | cons directory queue => rfl
  | succ fuel ih =>
      cases queue with
      | nil => rfl
      | cons directory queue =>
          obtain ⟨place, entries⟩ := directory
          obtain ⟨hfirst, hlater⟩ := List.forall_mem_cons.mp hqueue
          obtain ⟨hplace, hwell⟩ := wellFormed_of_lookup folder.wellFormed hfirst
          have hnext : ∀ directory ∈ queue ++ subdirectories place entries,
              folder.root.lookup directory.1 = some (.dir directory.2) := by
            intro directory hmem
            rcases List.mem_append.mp hmem with hold | hnew
            · exact hlater directory hold
            · exact lookup_subdirectory folder.wellFormed hfirst hnew
          rw [List.map_cons, scanLoop, readDir_pathOf hplace hfirst]
          dsimp only
          rw [scanEntries_eq hplace hwell.2]
          dsimp only
          rw [← List.map_append, ← List.map_append, ih _ hnext, walk]

theorem scanFolder_eq (folder : Folder) (fuel : Nat) :
    scanFolder folder fuel =
      (walk fuel [([], folder.entries)] []).map fun all => .ok (all.map (scannedOf folder)) := by
  refine scanLoop_eq fuel [([], folder.entries)] ?_ []
  intro directory hmem
  rw [List.mem_singleton.mp hmem]
  rfl

/-- As many rounds as there are directories end the scan. -/
theorem exists_scanFolder (folder : Folder) :
    ∃ fuel files, scanFolder folder fuel = some (.ok files) := by
  obtain ⟨all, hwalk⟩ := exists_walk (waiting [([], folder.entries)]) [([], folder.entries)] []
    (Nat.le_refl _)
  exact ⟨_, all.map (scannedOf folder), by rw [scanFolder_eq, hwalk, Option.map_some]⟩

/-- Whenever the scan ends, it has written down every file of the tree once. -/
theorem scanFolder_perm {fuel : Nat} {result : Except Error (List Scanned)}
    (hscan : scanFolder folder fuel = some result) :
    ∃ files, result = .ok files ∧
      files.Perm ((filesOf [] folder.entries).map (scannedOf folder)) := by
  rw [scanFolder_eq, Option.map_eq_some_iff] at hscan
  obtain ⟨all, hwalk, rfl⟩ := hscan
  have hperm := walk_perm hwalk
  rw [List.nil_append, allFiles, List.flatMap_singleton] at hperm
  exact ⟨_, rfl, hperm.map _⟩

end P2PFileTransfer.Core.ScanFolder
