import P2PFileTransfer.Core.ScanFolder

/-!
# The manifest as an index of the folder

The scan of a finite tree ends and writes down every file once, with a path that the
receiver accepts.  Whether the sender finds the file again is another matter: it opens the
text of the path, and that is the path itself exactly when its bytes are UTF-8.  Every
other name is rewritten, different names to the same text at times, and only a link that
happens to bear the rewritten name could lead back to the file.
-/

namespace P2PFileTransfer.Transfer.Manifest

open P2PFileTransfer.Foundation.DirectoryTree
open P2PFileTransfer.Foundation.LossyText
open P2PFileTransfer.Foundation.UnixPath
open P2PFileTransfer.Core
open P2PFileTransfer.Core.Protocol
open P2PFileTransfer.Core.FolderSender (metadataOf sourcePath)
open P2PFileTransfer.Core.TransferFolder
open P2PFileTransfer.Core.ScanFolder

/-- The entry is the one of the file at these names. -/
structure MadeFrom (folder : Folder) (names : List OsStr) (metadata : Metadata)
    (scanned : Scanned) : Prop where
  found : folder.root.lookup names = some (.file metadata)
  path : scanned.1 = render (folder.name :: names)
  size : scanned.2.size = metadata.len
  modified : scanned.2.modified = metadata.modifiedSecs

/-- One entry for every regular file and no other, each with a path the receiver takes. -/
structure Covers (folder : Folder) (files : List Scanned) : Prop where
  nodup : (files.map Prod.fst).Nodup
  complete : ∀ names metadata, folder.root.lookup names = some (.file metadata) →
    ∃ scanned ∈ files, MadeFrom folder names metadata scanned
  sound : ∀ scanned ∈ files, ∃ names metadata, MadeFrom folder names metadata scanned
  accepted : ∀ scanned ∈ files, ∃ clean, sanitizeRelativePath scanned.2.path = .ok clean

/-- Besides, the paths tell the files apart, and what the sender opens is the file. -/
structure Faithful (folder : Folder) (files : List Scanned) : Prop where
  covers : Covers folder files
  distinct : (files.map fun scanned => scanned.2.path).Nodup
  reopened : ∀ scanned ∈ files, ∀ names metadata, MadeFrom folder names metadata scanned →
    folder.opened (sourcePath folder.basePath scanned.2) = some names

/-- Where the text of a file's path points. -/
def textLocation (folder : Folder) (names : List OsStr) : Location :=
  components folder.basePath ++ ((folder.name :: names).map lossy).map .normal

/-- The text does not stay inside the tree: it names another folder or passes a link. -/
def LeadsOut (folder : Folder) (names : List OsStr) : Prop :=
  lossy folder.name ≠ folder.name ∨ reach folder.root (names.map lossy) = .outside

/-- The path of the file is UTF-8, or its text leads back to the file from outside. -/
def Legible (folder : Folder) (names : List OsStr) : Prop :=
  IsUtf8 (render (folder.name :: names)) ∨
    LeadsOut folder names ∧ folder.elsewhere (textLocation folder names) = some names

/-! ## The text of a path -/

variable {folder : Folder} {names : List OsStr} {metadata : Metadata} {files : List Scanned}

/-- A name stays a name when it is rewritten. -/
theorem isName_lossy {name : OsStr} (hname : IsName name) : IsName (lossy name) := by
  have hplain : ∀ text : OsStr, 0xEF ∉ text → lossy name = text → name = text := by
    intro text hclean htext
    rw [← htext] at hclean ⊢
    exact (lossy_eq_of_not_mem hclean).symm
  refine ⟨fun hnil => ?_, fun hdot => ?_, fun hdots => ?_, fun hsep => ?_⟩
  · exact hname.nonempty (hplain _ (by simp) hnil)
  · exact hname.notDot (hplain _ (by decide) hdot)
  · exact hname.notDotDot (hplain _ (by decide) hdots)
  · rcases mem_lossyFrom hsep with hopen | hin | hreplaced
    · cases hopen
    · exact hname.noSeparator hin
    · revert hreplaced
      decide

theorem isName_map_lossy (hnames : ∀ name ∈ names, IsName name) :
    ∀ name ∈ names.map lossy, IsName name := by
  intro text htext
  obtain ⟨name, hname, rfl⟩ := List.mem_map.mp htext
  exact isName_lossy (hnames name hname)

/-- The text of a path is made of the texts of its names. -/
theorem lossy_render (names : List OsStr) : lossy (render names) = render (names.map lossy) := by
  induction names with
  | nil => rfl
  | cons name rest ih =>
      cases rest with
      | nil => simp [render]
      | cons next rest =>
          unfold render at ih ⊢
          rw [List.intercalate_cons_cons, List.append_assoc, List.singleton_append,
            lossy_append_ascii _ _ (by decide), ih, List.map_cons, List.map_cons, List.map_cons,
            List.intercalate_cons_cons, List.append_assoc, List.singleton_append]

theorem render_injective {others : List OsStr} (hnames : ∀ name ∈ names, IsName name)
    (hothers : ∀ name ∈ others, IsName name) (hsame : render names = render others) :
    names = others := by
  have hcomponents := congrArg components hsame
  rw [components_render hnames, components_render hothers] at hcomponents
  exact List.map_injective_iff.mpr (fun _ _ heq => Component.normal.inj heq) hcomponents

theorem isUtf8_render_iff (hnames : ∀ name ∈ names, IsName name) :
    IsUtf8 (render names) ↔ names.map lossy = names := by
  rw [← lossy_eq_self_iff, lossy_render]
  exact ⟨render_injective (isName_map_lossy hnames) hnames, congrArg render⟩

/-! ## What the text opens -/

theorem reach_eq_file_iff (node : Node OsStr Metadata) (names : List OsStr) :
    reach node names = .file ↔ ∃ metadata, node.lookup names = some (.file metadata) := by
  induction names generalizing node with
  | nil => cases node <;> simp [reach]
  | cons name rest ih =>
      cases node with
      | dir entries =>
          rw [lookup_dir_cons, reach]
          cases hfind : find name entries with
          | none => simp
          | some inner => exact ih inner
      | file _ | link | other => simp [reach, Node.lookup]

theorem namesBelow_sibling (front : Location) (first second : OsStr) (names : List OsStr) :
    namesBelow (front ++ [.normal first]) (front ++ .normal second :: names.map .normal) =
      if second = first then some names else none := by
  induction front with
  | nil =>
      rw [List.nil_append, List.nil_append, namesBelow]
      by_cases hsame : second = first
      · rw [hsame, if_pos rfl, if_pos rfl]
        exact namesBelow_append [] names
      · have hother : Component.normal first ≠ .normal second := fun heq =>
          hsame (Component.normal.inj heq).symm
        rw [if_neg hother, if_neg hsame]
  | cons component front ih => rw [List.cons_append, List.cons_append, namesBelow, if_pos rfl, ih]

theorem components_sourcePath (folder : Folder) (hnames : ∀ name ∈ names, IsName name)
    (metadata : Metadata) :
    components (sourcePath folder.basePath (scannedOf folder (names, metadata)).2) =
      textLocation folder names := by
  have htexts := isName_map_lossy (isName_of_place folder hnames)
  rw [sourcePath, scannedOf, metadataOf, lossy_render, components_join_render _ htexts]
  rfl

/-- What the sender opens for a file, by where its text leads. -/
theorem opened_sourcePath (folder : Folder) (hnames : ∀ name ∈ names, IsName name)
    (metadata : Metadata) :
    folder.opened (sourcePath folder.basePath (scannedOf folder (names, metadata)).2) =
      if lossy folder.name = folder.name then
        folder.arrived (textLocation folder names) (names.map lossy)
          (reach folder.root (names.map lossy))
      else folder.elsewhere (textLocation folder names) := by
  have hbelow : namesBelow (components folder.path) (textLocation folder names) =
      if lossy folder.name = folder.name then some (names.map lossy) else none := by
    rw [components_path]
    exact namesBelow_sibling _ _ _ _
  rw [Folder.opened, components_sourcePath folder hnames, hbelow]
  by_cases hname : lossy folder.name = folder.name
  · simp only [if_pos hname]
  · simp only [if_neg hname]

/-- The sender finds a file again exactly when its path is legible. -/
theorem opened_iff_legible (hfound : folder.root.lookup names = some (.file metadata)) :
    folder.opened (sourcePath folder.basePath (scannedOf folder (names, metadata)).2) =
      some names ↔ Legible folder names := by
  have hnames := (wellFormed_of_lookup folder.wellFormed hfound).1
  have hutf8 := isUtf8_render_iff (isName_of_place folder hnames)
  rw [List.map_cons, List.cons.injEq] at hutf8
  rw [opened_sourcePath folder hnames, Legible, LeadsOut, hutf8]
  by_cases hname : lossy folder.name = folder.name
  · rw [if_pos hname]
    have hchanged : reach folder.root (names.map lossy) ≠ .file → names.map lossy ≠ names := by
      intro hreach hsame
      rw [hsame] at hreach
      exact hreach ((reach_eq_file_iff _ _).mpr ⟨metadata, hfound⟩)
    cases hreach : reach folder.root (names.map lossy) with
    | file => simp [hname, Folder.arrived]
    | outside =>
        have hother := hchanged (by simp [hreach])
        simp [hother, Folder.arrived]
    | nothing =>
        have hother := hchanged (by simp [hreach])
        simp [hname, hother, Folder.arrived]
  · rw [if_neg hname]
    simp [hname]

/-! ## The whole manifest -/

theorem madeFrom_scannedOf (hfound : folder.root.lookup names = some (.file metadata)) :
    MadeFrom folder names metadata (scannedOf folder (names, metadata)) :=
  ⟨hfound, rfl, rfl, rfl⟩

theorem mem_filesOf_folder :
    (names, metadata) ∈ filesOf [] folder.entries ↔
      folder.root.lookup names = some (.file metadata) :=
  mem_files_iff folder.root folder.wellFormed names metadata

theorem isName_of_found (hfound : folder.root.lookup names = some (.file metadata)) :
    ∀ name ∈ folder.name :: names, IsName name :=
  isName_of_place folder (wellFormed_of_lookup folder.wellFormed hfound).1

/-- An entry of the scan and the file it was made from. -/
theorem mem_scan_iff {fuel : Nat} (hscan : scanFolder folder fuel = some (.ok files))
    {scanned : Scanned} :
    scanned ∈ files ↔ ∃ names metadata, folder.root.lookup names = some (.file metadata) ∧
      scanned = scannedOf folder (names, metadata) := by
  obtain ⟨listed, heq, hperm⟩ := scanFolder_perm hscan
  cases heq
  rw [hperm.mem_iff, List.mem_map]
  constructor
  · rintro ⟨⟨names, metadata⟩, hfile, rfl⟩
    exact ⟨names, metadata, mem_filesOf_folder.mp hfile, rfl⟩
  · rintro ⟨names, metadata, hfound, rfl⟩
    exact ⟨(names, metadata), mem_filesOf_folder.mpr hfound, rfl⟩

/-- A path belongs to one file. -/
theorem names_eq_of_madeFrom {others : List OsStr} {other : Metadata} {scanned : Scanned}
    (hmade : MadeFrom folder names metadata scanned) (hother : MadeFrom folder others other scanned) :
    names = others := by
  have hsame : render (folder.name :: names) = render (folder.name :: others) :=
    hmade.path.symm.trans hother.path
  exact (List.cons.inj (render_injective (isName_of_found hmade.found)
    (isName_of_found hother.found) hsame)).2

theorem nodup_paths {fuel : Nat} (hscan : scanFolder folder fuel = some (.ok files)) :
    (files.map Prod.fst).Nodup := by
  obtain ⟨listed, heq, hperm⟩ := scanFolder_perm hscan
  cases heq
  rw [(hperm.map Prod.fst).nodup_iff, List.map_map]
  refine List.Nodup.map_on ?_ (List.Nodup.of_map _ (nodup_filesOf _ folder.wellFormed.2
    folder.wellFormed.1))
  rintro ⟨names, metadata⟩ hfile ⟨others, other⟩ hother hsame
  have hfound := mem_filesOf_folder.mp hfile
  have hagain := mem_filesOf_folder.mp hother
  have hnames := (List.cons.inj (render_injective (isName_of_found hfound)
    (isName_of_found hagain) hsame)).2
  subst hnames
  rw [hfound] at hagain
  cases hagain
  rfl

/-- The scan of any folder covers it. -/
theorem covers_of_scan {fuel : Nat} (hscan : scanFolder folder fuel = some (.ok files)) :
    Covers folder files where
  nodup := nodup_paths hscan
  complete := by
    intro names metadata hfound
    exact ⟨_, (mem_scan_iff hscan).mpr ⟨names, metadata, hfound, rfl⟩, madeFrom_scannedOf hfound⟩
  sound := by
    intro scanned hscanned
    obtain ⟨names, metadata, hfound, rfl⟩ := (mem_scan_iff hscan).mp hscanned
    exact ⟨names, metadata, madeFrom_scannedOf hfound⟩
  accepted := by
    intro scanned hscanned
    obtain ⟨names, metadata, hfound, rfl⟩ := (mem_scan_iff hscan).mp hscanned
    have htexts := isName_map_lossy (isName_of_found hfound)
    refine ⟨_, (sanitizeRelativePath_eq_ok_iff _ _).mpr
      ⟨?_, (folder.name :: names).map lossy, by simp, ?_, rfl⟩⟩
    · exact (congrArg hasRoot (lossy_render _)).trans (hasRoot_render htexts)
    · exact (congrArg components (lossy_render _)).trans (components_render htexts)

/-- Files that are found again have different paths. -/
theorem nodup_texts {fuel : Nat} (hscan : scanFolder folder fuel = some (.ok files))
    (hreopened : ∀ scanned ∈ files, ∀ names metadata, MadeFrom folder names metadata scanned →
      folder.opened (sourcePath folder.basePath scanned.2) = some names) :
    (files.map fun scanned => scanned.2.path).Nodup := by
  refine List.Nodup.map_on ?_ (List.Nodup.of_map _ (nodup_paths hscan))
  intro first hfirst second hsecond hsame
  obtain ⟨names, metadata, hfound, rfl⟩ := (mem_scan_iff hscan).mp hfirst
  obtain ⟨others, other, hagain, rfl⟩ := (mem_scan_iff hscan).mp hsecond
  have hopen := hreopened _ hfirst names metadata (madeFrom_scannedOf hfound)
  have hother := hreopened _ hsecond others other (madeFrom_scannedOf hagain)
  rw [sourcePath, hsame, ← sourcePath, hother] at hopen
  cases hopen
  rw [hfound] at hagain
  cases hagain
  rfl

theorem reopened_iff {fuel : Nat} (hscan : scanFolder folder fuel = some (.ok files)) :
    (∀ scanned ∈ files, ∀ names metadata, MadeFrom folder names metadata scanned →
      folder.opened (sourcePath folder.basePath scanned.2) = some names) ↔
    ∀ names metadata, folder.root.lookup names = some (.file metadata) → Legible folder names := by
  constructor
  · intro hreopened names metadata hfound
    exact (opened_iff_legible hfound).mp (hreopened _
      ((mem_scan_iff hscan).mpr ⟨names, metadata, hfound, rfl⟩) names metadata
      (madeFrom_scannedOf hfound))
  · intro hlegible scanned hscanned names metadata hmade
    obtain ⟨others, other, hfound, rfl⟩ := (mem_scan_iff hscan).mp hscanned
    have hsame := names_eq_of_madeFrom hmade (madeFrom_scannedOf hfound)
    subst hsame
    exact (opened_iff_legible hfound).mpr (hlegible names other hfound)

theorem legible_of_faithful {fuel : Nat} (hscan : scanFolder folder fuel = some (.ok files))
    (hfaithful : Faithful folder files) (hfound : folder.root.lookup names = some (.file metadata)) :
    Legible folder names :=
  (reopened_iff hscan).mp hfaithful.reopened names metadata hfound

/-- Whatever the names, the scan ends and covers the folder. -/
theorem exists_covering_scan (folder : Folder) :
    ∃ fuel files, scanFolder folder fuel = some (.ok files) ∧ Covers folder files := by
  obtain ⟨fuel, files, hscan⟩ := exists_scanFolder folder
  exact ⟨fuel, files, hscan, covers_of_scan hscan⟩

/-- The scan yields a faithful index exactly when the paths of all files are legible. -/
theorem faithful_iff_legible (folder : Folder) :
    (∃ fuel files, scanFolder folder fuel = some (.ok files) ∧ Faithful folder files) ↔
      ∀ names metadata, folder.root.lookup names = some (.file metadata) →
        Legible folder names := by
  constructor
  · rintro ⟨fuel, files, hscan, hfaithful⟩ names metadata hfound
    exact legible_of_faithful hscan hfaithful hfound
  · intro hlegible
    obtain ⟨fuel, files, hscan, hcovers⟩ := exists_covering_scan folder
    have hreopened := (reopened_iff hscan).mpr hlegible
    exact ⟨fuel, files, hscan, hcovers, nodup_texts hscan hreopened, hreopened⟩

/-- The folder `d` with two files whose names are the single bytes FF and FE. -/
def latinFolder : Folder where
  path := [100]
  name := [100]
  fileName_path := by decide
  entries := [([0xFF], .file ⟨1, some 0⟩), ([0xFE], .file ⟨2, some 0⟩)]
  wellFormed := by
    have hname : ∀ byte : UInt8, byte ≠ separator → byte ≠ dot → IsName [byte] := by
      intro byte hseparator hdot
      exact ⟨by simp, by simpa using hdot, by simp, by simpa using Ne.symm hseparator⟩
    exact ⟨by decide, hname _ (by decide) (by decide), trivial, hname _ (by decide) (by decide),
      trivial, trivial⟩
  elsewhere := fun _ => none

/-- Both files get one path, `d/` with a replacement character, and the sender finds neither
under it. -/
theorem latinFolder_unfaithful :
    scanFolder latinFolder 1 = some (.ok
      [([100, 47, 0xFF], metadataOf [100, 47, 0xEF, 0xBF, 0xBD] 1 0),
        ([100, 47, 0xFE], metadataOf [100, 47, 0xEF, 0xBF, 0xBD] 2 0)]) ∧
    latinFolder.opened (join latinFolder.basePath [100, 47, 0xEF, 0xBF, 0xBD]) = none ∧
    ¬ ∃ fuel files, scanFolder latinFolder fuel = some (.ok files) ∧
      Faithful latinFolder files := by
  refine ⟨by decide, by decide, ?_⟩
  rintro ⟨fuel, files, hscan, hfaithful⟩
  have hfound : latinFolder.root.lookup [[0xFF]] = some (.file ⟨1, some 0⟩) := rfl
  rcases legible_of_faithful hscan hfaithful hfound with hutf8 | ⟨_, hback⟩
  · revert hutf8
    decide
  · cases hback

/-! ## The sender's question -/

/-- Where every path is UTF-8, the scan answers what the sender asks about the folder. -/
theorem readScan_of_scan {fuel : Nat} (hscan : scanFolder folder fuel = some (.ok files))
    (hutf8 : ∀ names metadata, folder.root.lookup names = some (.file metadata) →
      IsUtf8 (render (folder.name :: names))) (hne : files ≠ []) :
    FolderSender.readScan (.folder folder.name
      (files.map fun scanned => (scanned.1, scanned.2.size, scanned.2.modified))) =
      .ok (folder.name, files.map Prod.snd) := by
  have hlisted : FolderSender.scanFolder
      (files.map fun scanned => (scanned.1, scanned.2.size, scanned.2.modified)) =
      .ok (files.map Prod.snd) := by
    have hentries : ∀ scanned ∈ files, sanitizeRelativePath scanned.1 = .ok scanned.1 ∧
        metadataOf scanned.1 scanned.2.size scanned.2.modified = scanned.2 := by
      intro scanned hscanned
      obtain ⟨names, metadata, hfound, rfl⟩ := (mem_scan_iff hscan).mp hscanned
      have hnames := isName_of_found hfound
      refine ⟨(sanitizeRelativePath_eq_ok_iff _ _).mpr ⟨hasRoot_render hnames, _,
        List.cons_ne_nil _ _, components_render hnames, rfl⟩, ?_⟩
      rw [scannedOf, (lossy_eq_self_iff _).mpr (hutf8 names metadata hfound)]
      rfl
    clear hscan hne
    induction files with
    | nil => rfl
    | cons scanned files ih =>
        obtain ⟨hfirst, hlater⟩ := List.forall_mem_cons.mp hentries
        rw [List.map_cons, FolderSender.scanFolder, hfirst.1]
        dsimp only
        rw [ih hlater]
        dsimp only
        rw [hfirst.2]
        rfl
  obtain ⟨first, rest, rfl⟩ := List.exists_cons_of_ne_nil hne
  rw [FolderSender.readScan, hlisted]
  rfl

end P2PFileTransfer.Transfer.Manifest
