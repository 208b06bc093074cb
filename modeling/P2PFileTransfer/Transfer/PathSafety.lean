import P2PFileTransfer.Core.FolderReceiver

/-!
# The receiver stays inside its output directory

Every file operation of a receive call is confined to the output directory, for
any manifest and any stream the peer sends.  The reason is lexical: an accepted
manifest path is rendered from names, joining it appends those names to the
directory, and the suffix of the partial file only lengthens the last name.
-/

namespace P2PFileTransfer.Transfer.PathSafety

open P2PFileTransfer.Core
open P2PFileTransfer.Foundation.FileSystem
open P2PFileTransfer.Foundation.Process
open P2PFileTransfer.Foundation.UnixPath
open P2PFileTransfer.Core.Protocol
open P2PFileTransfer.Core.TransferFolder
open P2PFileTransfer.Core.FolderReceiver

/-- Directories are created at or below the base; everything else happens at
proper descendants whose added components are all names. -/
def Confined (base : Location) : Operation → Prop
  | .createDirAll directory => directory = base ∨ ProperlyBelow base directory
  | operation => ∀ location ∈ operation.touched, ProperlyBelow base location

/-! ## Shapes of confined operations -/

/-- A directory built from names is the base or properly below it. -/
theorem confined_createDirAll (base : Location) {names : List OsStr}
    (hnames : ∀ name ∈ names, IsName name) :
    Confined base (.createDirAll (base ++ names.map .normal)) := by
  by_cases hempty : names = []
  · refine Or.inl ?_
    rw [hempty, List.map_nil, List.append_nil]
  · exact Or.inr (properlyBelow_append base hempty hnames)

theorem properlyBelow_concat (base : Location) {front : List OsStr} {last : OsStr}
    (hfront : ∀ name ∈ front, IsName name) (hlast : IsName last) :
    ProperlyBelow base (base ++ (front ++ [last]).map .normal) :=
  properlyBelow_append base (by simp) (forall_isName_concat hfront hlast)

/-! ## Every point of a receive call -/

variable {session : Session}

theorem confined_of_sound {point : Point} (hsound : point.Sound session) {operation : Operation}
    (haction : action session point = .perform operation) :
    Confined (components session.outputDir) operation := by
  cases point with
  | prepare =>
      cases haction
      exact Or.inl rfl
  | createOutputDir plan =>
      cases haction
      exact Or.inl rfl
  | recvInfo | decide _ | sendCancel | sendReady _ | fileHead _ _ | recvComplete _ => cases haction
  | createParent plan index fullPath =>
      obtain ⟨file, relativePath, _, haccepted, hpath⟩ := hsound.2.path
      obtain ⟨front, last, hfront, _, _, _, hparent⟩ :=
        locations_of_accepted session.outputDir haccepted
      cases haction
      rw [hpath, hparent]
      exact confined_createDirAll _ hfront
  | file plan index task stage =>
      obtain ⟨file, relativePath, _, haccepted, hpath⟩ := hsound.2.1.receives.path
      obtain ⟨front, last, hfront, hlast, hfinal, hpartial, hparent⟩ :=
        locations_of_accepted session.outputDir haccepted
      have hfinalBelow : ProperlyBelow (components session.outputDir) task.finalLocation := by
        rw [FileReceiver.Task.finalLocation, hpath, hfinal]
        exact properlyBelow_concat _ hfront hlast
      have hpartialBelow : ProperlyBelow (components session.outputDir) task.partialLocation := by
        rw [FileReceiver.Task.partialLocation, hpath, hpartial]
        exact properlyBelow_concat _ hfront (isName_suffixed hlast)
      cases stage with
      | begin | acceptUni _ | sendChecksum _ | recvChecksum _ => cases haction
      | createParent _ =>
          cases haction
          rw [hpath, hparent]
          exact confined_createDirAll _ hfront
      | openPartial _ | setLen _ | writeChunk _ _ _ _ =>
          cases haction
          intro location hlocation
          rw [List.mem_singleton.mp hlocation]
          exact hpartialBelow
      | rename =>
          cases haction
          intro location hlocation
          rcases List.mem_cons.mp hlocation with rfl | hlater
          · exact hpartialBelow
          · rw [List.mem_singleton.mp hlater]
            exact hfinalBelow
      | reread =>
          cases haction
          intro location hlocation
          rw [List.mem_singleton.mp hlocation]
          exact hfinalBelow

/-- Acceptance depends on the components alone. -/
theorem accepts_iff (path : OsStr) :
    (∃ clean, sanitizeRelativePath path = .ok clean) ↔
      isAbsolute path = false ∧ path ≠ [] ∧
        ∀ component ∈ components path, ∃ name, component = .normal name := by
  constructor
  · rintro ⟨clean, hclean⟩
    obtain ⟨hrelative, names, hne, hcomponents, _⟩ :=
      (sanitizeRelativePath_eq_ok_iff path clean).mp hclean
    refine ⟨hrelative, ?_, ?_⟩
    · rintro rfl
      rw [components_nil] at hcomponents
      exact hne (List.map_eq_nil_iff.mp hcomponents.symm)
    · intro component hcomponent
      rw [hcomponents] at hcomponent
      obtain ⟨name, _, rfl⟩ := List.mem_map.mp hcomponent
      exact ⟨name, rfl⟩
  · rintro ⟨hrelative, hne, hnormal⟩
    have hnames : ∃ names : List OsStr, components path = names.map .normal := by
      generalize components path = location at hnormal
      induction location with
      | nil => exact ⟨[], rfl⟩
      | cons component rest ih =>
          obtain ⟨name, rfl⟩ := hnormal component List.mem_cons_self
          obtain ⟨names, rfl⟩ := ih fun other hother => hnormal other (List.mem_cons_of_mem _ hother)
          exact ⟨name :: names, rfl⟩
    obtain ⟨names, hcomponents⟩ := hnames
    refine ⟨render names, (sanitizeRelativePath_eq_ok_iff path _).mpr
      ⟨hrelative, names, ?_, hcomponents, rfl⟩⟩
    rintro rfl
    exact components_ne_nil hrelative hne hcomponents

/-- The accepted path is already in the form the check returns. -/
theorem sanitize_idempotent {path clean : OsStr}
    (haccepted : sanitizeRelativePath path = .ok clean) :
    sanitizeRelativePath clean = .ok clean := by
  obtain ⟨names, hne, hnames, _, rfl⟩ := names_of_sanitizeRelativePath haccepted
  exact (sanitizeRelativePath_eq_ok_iff _ _).mpr
    ⟨hasRoot_render hnames, names, hne, components_render hnames, rfl⟩

/-- Every operation of every receive call is confined to the output directory, and
the manifest check accepts exactly the paths made of normal components. -/
theorem receive_confined (session : Session) :
    (∀ store inputs state point operation,
      run session (start store) inputs = some state → state.status = .running point →
      action session point = .perform operation →
      Confined (components session.outputDir) operation) ∧
    (∀ path, (∃ clean, sanitizeRelativePath path = .ok clean) ↔
      isAbsolute path = false ∧ path ≠ [] ∧
        ∀ component ∈ components path, ∃ name, component = .normal name) ∧
    (∀ path clean, sanitizeRelativePath path = .ok clean →
      sanitizeRelativePath clean = .ok clean) := by
  refine ⟨?_, accepts_iff, fun path clean => sanitize_idempotent⟩
  intro store inputs state point operation hrun hstatus haction
  have hsound : point.Sound session := sound_of_run hrun point (by rw [hstatus]; rfl)
  exact confined_of_sound hsound haction

/-- The empty file `a//b` received below `out`: the rename stays below `out/a`. -/
theorem receive_confined_rename :
    Confined [.normal [111, 117, 116]]
      (.rename
        [.normal [111, 117, 116], .normal [97], .normal ([98] ++ FileReceiver.partialSuffix)]
        [.normal [111, 117, 116], .normal [97], .normal [98]]) :=
  (receive_confined
      { codec := .stored fun _ => FixedBytes.filled 32 0
        config := .default
        outputDir := [111, 117, 116] }).1 (fun _ => none)
    [.proceed,
      .message (.transferInfo
        { transferId := FixedBytes.filled 16 0
          items := [{ path := [97, 47, 47, 98], size := 0, modified := 0,
                      checksum := FixedBytes.filled 32 0 }]
          resumeFrom := none
          completedFiles := [] }),
      .answer true, .proceed, .proceed, .proceed, .proceed, .proceed, .proceed, .proceed, .proceed]
    _ _ _ rfl rfl rfl

end P2PFileTransfer.Transfer.PathSafety
