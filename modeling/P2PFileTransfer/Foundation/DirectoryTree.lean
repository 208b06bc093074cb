import Mathlib.Data.List.Nodup
import Mathlib.Tactic.Common
import Mathlib.Tactic.Ring

/-!
# Directory trees

A finite tree of named nodes whose leaves are files with some data, links, which are not
followed, or anything else.  A file is known by the names that lead to it.  The trees are
walked breadth first: the walk takes as many steps as there are directories and meets
every file once.
-/

namespace P2PFileTransfer.Foundation.DirectoryTree

inductive Node (ν φ : Type) where
  | file (data : φ)
  | dir (entries : List (ν × Node ν φ))
  | link
  | other

abbrev Entries (ν φ : Type) := List (ν × Node ν φ)

variable {ν φ : Type}

mutual

/-- All files at or below a node that is found at `place`. -/
def Node.files (place : List ν) : Node ν φ → List (List ν × φ)
  | .file data => [(place, data)]
  | .dir entries => filesOf place entries
  | .link => []
  | .other => []

def filesOf (place : List ν) : Entries ν φ → List (List ν × φ)
  | [] => []
  | (name, node) :: rest => node.files (place ++ [name]) ++ filesOf place rest

end

mutual

def Node.directories : Node ν φ → Nat
  | .dir entries => directoriesOf entries + 1
  | .file _ => 0
  | .link => 0
  | .other => 0

/-- The number of directories below one with these entries. -/
def directoriesOf : Entries ν φ → Nat
  | [] => 0
  | (_, node) :: rest => node.directories + directoriesOf rest

end

mutual

/-- In every directory the names are allowed and differ from each other. -/
def Node.WellFormed (allowed : ν → Prop) : Node ν φ → Prop
  | .dir entries => (entries.map Prod.fst).Nodup ∧ AllWellFormed allowed entries
  | .file _ => True
  | .link => True
  | .other => True

def AllWellFormed (allowed : ν → Prop) : Entries ν φ → Prop
  | [] => True
  | (name, node) :: rest => allowed name ∧ node.WellFormed allowed ∧ AllWellFormed allowed rest

end

/-! ## Looking up names -/

section Lookup

variable [DecidableEq ν]

def find (name : ν) : Entries ν φ → Option (Node ν φ)
  | [] => none
  | (first, node) :: rest => if first = name then some node else find name rest

/-- The node that names lead to, without following links. -/
def Node.lookup : Node ν φ → List ν → Option (Node ν φ)
  | node, [] => some node
  | .dir entries, name :: rest => (find name entries).bind fun node => node.lookup rest
  | _, _ :: _ => none

theorem find_cons (first name : ν) (node : Node ν φ) (rest : Entries ν φ) :
    find name ((first, node) :: rest) = if first = name then some node else find name rest := rfl

@[simp]
theorem lookup_nil (node : Node ν φ) : node.lookup [] = some node := by
  cases node <;> rfl

@[simp]
theorem lookup_dir_cons (entries : Entries ν φ) (name : ν) (rest : List ν) :
    (Node.dir entries).lookup (name :: rest) =
      (find name entries).bind fun node => node.lookup rest := rfl

theorem lookup_append (node : Node ν φ) (front back : List ν) :
    node.lookup (front ++ back) = (node.lookup front).bind fun inner => inner.lookup back := by
  induction front generalizing node with
  | nil => rw [List.nil_append, lookup_nil, Option.bind_some]
  | cons name front ih =>
      cases node with
      | dir entries =>
          rw [List.cons_append, lookup_dir_cons, lookup_dir_cons]
          cases hfind : find name entries with
          | none => rfl
          | some inner => exact ih inner
      | file _ | link | other => rfl

theorem mem_of_find {name : ν} {entries : Entries ν φ} {node : Node ν φ}
    (hfind : find name entries = some node) : (name, node) ∈ entries := by
  induction entries with
  | nil => cases hfind
  | cons entry rest ih =>
      rw [find_cons] at hfind
      split at hfind
      · rename_i hname
        cases hfind
        subst hname
        exact List.mem_cons_self
      · exact List.mem_cons_of_mem _ (ih hfind)

theorem find_of_mem {name : ν} {entries : Entries ν φ} {node : Node ν φ}
    (hdistinct : (entries.map Prod.fst).Nodup) (hmem : (name, node) ∈ entries) :
    find name entries = some node := by
  induction entries with
  | nil => cases hmem
  | cons entry rest ih =>
      obtain ⟨hfresh, hrest⟩ := List.nodup_cons.mp hdistinct
      rw [find_cons]
      rcases List.mem_cons.mp hmem with rfl | hlater
      · exact if_pos rfl
      · have hne : entry.1 ≠ name := by
          intro hsame
          exact hfresh (List.mem_map.mpr ⟨(name, node), hlater, hsame.symm⟩)
        rw [if_neg hne]
        exact ih hrest hlater

end Lookup

/-! ## The files of a tree -/

theorem AllWellFormed.of_mem {allowed : ν → Prop} {entries : Entries ν φ}
    (hentries : AllWellFormed allowed entries) {name : ν} {node : Node ν φ}
    (hmem : (name, node) ∈ entries) : allowed name ∧ node.WellFormed allowed := by
  induction entries with
  | nil => cases hmem
  | cons entry rest ih =>
      obtain ⟨hname, hnode, hrest⟩ := hentries
      rcases List.mem_cons.mp hmem with rfl | hlater
      · exact ⟨hname, hnode⟩
      · exact ih hrest hlater

theorem filesOf_eq_flatMap (place : List ν) (entries : Entries ν φ) :
    filesOf place entries = entries.flatMap fun entry => entry.2.files (place ++ [entry.1]) := by
  induction entries with
  | nil => rfl
  | cons entry rest ih => rw [filesOf, ih, List.flatMap_cons]

mutual

/-- Listing at a place puts that place in front. -/
theorem files_eq_map (place : List ν) (node : Node ν φ) :
    node.files place = (node.files []).map fun file => (place ++ file.1, file.2) := by
  match node with
  | .file data => simp [Node.files]
  | .dir entries => exact filesOf_eq_map place entries
  | .link | .other => rfl

theorem filesOf_eq_map (place : List ν) (entries : Entries ν φ) :
    filesOf place entries = (filesOf [] entries).map fun file => (place ++ file.1, file.2) := by
  match entries with
  | [] => rfl
  | (name, node) :: rest =>
      rw [filesOf, filesOf, files_eq_map (place ++ [name]) node, files_eq_map ([] ++ [name]) node,
        filesOf_eq_map place rest, List.map_append, List.map_map]
      simp

end

/-- A file below a directory lies below one of its entries. -/
theorem exists_of_mem_filesOf {entries : Entries ν φ} {file : List ν × φ} :
    file ∈ filesOf [] entries ↔ ∃ name node rest, (name, node) ∈ entries ∧
      (rest, file.2) ∈ node.files [] ∧ file.1 = name :: rest := by
  rw [filesOf_eq_flatMap, List.mem_flatMap]
  constructor
  · rintro ⟨⟨name, node⟩, hentry, hfile⟩
    rw [files_eq_map] at hfile
    obtain ⟨inner, hinner, rfl⟩ := List.mem_map.mp hfile
    exact ⟨name, node, inner.1, hentry, hinner, rfl⟩
  · rintro ⟨name, node, rest, hentry, hfile, hnames⟩
    refine ⟨(name, node), hentry, ?_⟩
    rw [files_eq_map]
    exact List.mem_map.mpr ⟨(rest, file.2), hfile, Prod.ext hnames.symm rfl⟩

section Listing

variable {allowed : ν → Prop}

mutual

/-- No two files are found at one place. -/
theorem nodup_files (node : Node ν φ) (hnode : node.WellFormed allowed) :
    ((node.files []).map Prod.fst).Nodup := by
  match node, hnode with
  | .file _, _ => simp [Node.files]
  | .dir entries, hnode => exact nodup_filesOf entries hnode.2 hnode.1
  | .link, _ | .other, _ => simp [Node.files]

theorem nodup_filesOf (entries : Entries ν φ) (hentries : AllWellFormed allowed entries)
    (hdistinct : (entries.map Prod.fst).Nodup) : ((filesOf [] entries).map Prod.fst).Nodup := by
  match entries, hentries with
  | [], _ => simp [filesOf]
  | (first, inner) :: later, hentries =>
      obtain ⟨_, hinner, hlater⟩ := hentries
      obtain ⟨hfresh, hrest⟩ := List.nodup_cons.mp hdistinct
      rw [filesOf, List.map_append, files_eq_map, List.map_map]
      refine List.nodup_append.mpr ⟨?_, nodup_filesOf later hlater hrest, ?_⟩
      · have hinjective : Function.Injective fun names : List ν => [] ++ [first] ++ names :=
          List.append_right_injective _
        have hnodup := List.Nodup.map hinjective (nodup_files inner hinner)
        rwa [List.map_map] at hnodup
      · intro left hleft right hright hsame
        obtain ⟨file, hfile, rfl⟩ := List.mem_map.mp hleft
        obtain ⟨other, hother, rfl⟩ := List.mem_map.mp hright
        obtain ⟨name, node, rest, hentry, _, hnames⟩ := exists_of_mem_filesOf.mp hother
        rw [hnames] at hsame
        cases hsame
        exact hfresh (List.mem_map.mpr ⟨(first, node), hentry, rfl⟩)

end

variable [DecidableEq ν]

theorem find_eq_some_iff {name : ν} {entries : Entries ν φ}
    (hdistinct : (entries.map Prod.fst).Nodup) {node : Node ν φ} :
    find name entries = some node ↔ (name, node) ∈ entries :=
  ⟨mem_of_find, find_of_mem hdistinct⟩

mutual

/-- The listing of a node is what can be looked up below it. -/
theorem mem_files_iff (node : Node ν φ) (hnode : node.WellFormed allowed) (names : List ν) (data : φ) :
    (names, data) ∈ node.files [] ↔ node.lookup names = some (.file data) := by
  match node, hnode with
  | .file other, _ =>
      cases names <;> simp [Node.files, Node.lookup, eq_comm]
  | .dir entries, hnode =>
      obtain ⟨hdistinct, hentries⟩ := hnode
      rw [Node.files, mem_filesOf_iff entries hentries]
      cases names with
      | nil => simp
      | cons name rest =>
          rw [lookup_dir_cons, Option.bind_eq_some_iff]
          simp only [List.cons.injEq, find_eq_some_iff hdistinct]
          constructor
          · rintro ⟨_, node, _, hentry, hlookup, rfl, rfl⟩
            exact ⟨node, hentry, hlookup⟩
          · rintro ⟨node, hentry, hlookup⟩
            exact ⟨name, node, rest, hentry, hlookup, rfl, rfl⟩
  | .link, _ | .other, _ =>
      cases names <;> simp [Node.files, Node.lookup]

theorem mem_filesOf_iff (entries : Entries ν φ) (hentries : AllWellFormed allowed entries)
    (names : List ν) (data : φ) :
    (names, data) ∈ filesOf [] entries ↔ ∃ name node rest, (name, node) ∈ entries ∧
      node.lookup rest = some (.file data) ∧ names = name :: rest := by
  match entries, hentries with
  | [], _ => simp [filesOf]
  | (first, inner) :: later, hentries =>
      obtain ⟨_, hinner, hlater⟩ := hentries
      rw [filesOf, List.mem_append, mem_filesOf_iff later hlater, files_eq_map, List.nil_append]
      constructor
      · rintro (hfile | ⟨name, node, rest, hentry, hlookup, hnames⟩)
        · obtain ⟨file, hinside, heq⟩ := List.mem_map.mp hfile
          cases heq
          exact ⟨first, inner, file.1, List.mem_cons_self,
            (mem_files_iff inner hinner _ _).mp hinside, rfl⟩
        · exact ⟨name, node, rest, List.mem_cons_of_mem _ hentry, hlookup, hnames⟩
      · rintro ⟨name, node, rest, hentry, hlookup, rfl⟩
        rcases List.mem_cons.mp hentry with heq | hentry
        · cases heq
          exact Or.inl (List.mem_map.mpr
            ⟨(rest, data), (mem_files_iff inner hinner _ _).mpr hlookup, rfl⟩)
        · exact Or.inr ⟨name, node, rest, hentry, hlookup, rfl⟩

end

end Listing

/-! ## The walk -/

abbrev Directory (ν φ : Type) := List ν × Entries ν φ

/-- The files that stand in a directory itself. -/
def ownFiles (place : List ν) (entries : Entries ν φ) : List (List ν × φ) :=
  entries.filterMap fun entry =>
    match entry.2 with
    | .file data => some (place ++ [entry.1], data)
    | _ => none

def subdirectories (place : List ν) (entries : Entries ν φ) : List (Directory ν φ) :=
  entries.filterMap fun entry =>
    match entry.2 with
    | .dir inner => some (place ++ [entry.1], inner)
    | _ => none

/-- Directories are visited in the order in which they were met. -/
def walk : Nat → List (Directory ν φ) → List (List ν × φ) → Option (List (List ν × φ))
  | _, [], found => some found
  | 0, _ :: _, _ => none
  | steps + 1, (place, entries) :: queue, found =>
      walk steps (queue ++ subdirectories place entries) (found ++ ownFiles place entries)

/-- The directories that are still to be visited. -/
def waiting (queue : List (Directory ν φ)) : Nat :=
  (queue.map fun directory => directoriesOf directory.2 + 1).sum

def allFiles (queue : List (Directory ν φ)) : List (List ν × φ) :=
  queue.flatMap fun directory => filesOf directory.1 directory.2

theorem waiting_subdirectories (place : List ν) (entries : Entries ν φ) :
    waiting (subdirectories place entries) = directoriesOf entries := by
  induction entries with
  | nil => rfl
  | cons entry rest ih =>
      obtain ⟨name, node⟩ := entry
      rw [directoriesOf, ← ih]
      cases node <;> simp [subdirectories, waiting, Node.directories]

/-- The files below a directory are its own and those below its subdirectories. -/
theorem filesOf_perm (place : List ν) (entries : Entries ν φ) :
    (filesOf place entries).Perm
      (ownFiles place entries ++ allFiles (subdirectories place entries)) := by
  induction entries with
  | nil => exact List.Perm.refl _
  | cons entry rest ih =>
      obtain ⟨name, node⟩ := entry
      rw [filesOf]
      cases node with
      | file data => exact ih.cons _
      | dir inner =>
          -- The files of the subdirectory move behind those of the directory itself.
          exact (ih.append_left (filesOf (place ++ [name]) inner)).trans
            (List.perm_append_comm_assoc _ _ _)
      | link | other => exact ih

/-- As many steps as there are directories are enough. -/
theorem exists_walk (steps : Nat) (queue : List (Directory ν φ)) (found : List (List ν × φ))
    (hsteps : waiting queue ≤ steps) : ∃ all, walk steps queue found = some all := by
  induction steps generalizing queue found with
  | zero =>
      cases queue with
      | nil => exact ⟨found, rfl⟩
      | cons directory queue => simp [waiting] at hsteps
  | succ steps ih =>
      cases queue with
      | nil => exact ⟨found, rfl⟩
      | cons directory queue =>
          obtain ⟨place, entries⟩ := directory
          refine ih _ (found ++ ownFiles place entries) ?_
          have hsub := waiting_subdirectories place entries
          simp only [waiting, List.map_cons, List.sum_cons, List.map_append,
            List.sum_append] at hsteps hsub ⊢
          omega

/-- A walk that ends has met every file below its directories once. -/
theorem walk_perm {steps : Nat} {queue : List (Directory ν φ)} {found all : List (List ν × φ)}
    (hwalk : walk steps queue found = some all) : all.Perm (found ++ allFiles queue) := by
  induction steps generalizing queue found with
  | zero =>
      cases queue with
      | nil =>
          cases hwalk
          rw [allFiles, List.flatMap_nil, List.append_nil]
      | cons directory queue => cases hwalk
  | succ steps ih =>
      cases queue with
      | nil =>
          cases hwalk
          rw [allFiles, List.flatMap_nil, List.append_nil]
      | cons directory queue =>
          obtain ⟨place, entries⟩ := directory
          refine (ih hwalk).trans ?_
          rw [List.append_assoc]
          refine List.Perm.append_left found ?_
          have hparts := filesOf_perm place entries
          rw [allFiles, List.flatMap_append, allFiles, List.flatMap_cons]
          refine (List.perm_append_comm.append_left _).trans ?_
          rw [← List.append_assoc]
          exact hparts.symm.append_right _

theorem mem_subdirectories {place : List ν} {entries : Entries ν φ} {directory : Directory ν φ} :
    directory ∈ subdirectories place entries ↔
      ∃ name, (name, Node.dir directory.2) ∈ entries ∧ directory.1 = place ++ [name] := by
  rw [subdirectories, List.mem_filterMap]
  constructor
  · rintro ⟨⟨name, node⟩, hentry, hsome⟩
    cases node with
    | dir inner =>
        cases hsome
        exact ⟨name, hentry, rfl⟩
    | file _ | link | other => cases hsome
  · rintro ⟨name, hentry, hplace⟩
    exact ⟨(name, .dir directory.2), hentry, congrArg some (Prod.ext hplace.symm rfl)⟩

section Reaching

variable [DecidableEq ν] {allowed : ν → Prop}

/-- What is found in a well-formed tree is well formed, behind names that are allowed. -/
theorem wellFormed_of_lookup {node inner : Node ν φ} {place : List ν}
    (hnode : node.WellFormed allowed) (hlookup : node.lookup place = some inner) :
    (∀ name ∈ place, allowed name) ∧ inner.WellFormed allowed := by
  induction place generalizing node with
  | nil =>
      rw [lookup_nil] at hlookup
      cases hlookup
      exact ⟨by simp, hnode⟩
  | cons name place ih =>
      cases node with
      | dir entries =>
          rw [lookup_dir_cons, Option.bind_eq_some_iff] at hlookup
          obtain ⟨next, hfind, hnext⟩ := hlookup
          obtain ⟨hname, hwell⟩ := hnode.2.of_mem (mem_of_find hfind)
          obtain ⟨hplace, hinner⟩ := ih hwell hnext
          exact ⟨List.forall_mem_cons.mpr ⟨hname, hplace⟩, hinner⟩
      | file _ | link | other => cases hlookup

theorem lookup_subdirectory {root : Node ν φ} (hroot : root.WellFormed allowed) {place : List ν}
    {entries : Entries ν φ} (hlookup : root.lookup place = some (.dir entries))
    {directory : Directory ν φ} (hmem : directory ∈ subdirectories place entries) :
    root.lookup directory.1 = some (.dir directory.2) := by
  obtain ⟨name, hentry, hplace⟩ := mem_subdirectories.mp hmem
  have hwell := (wellFormed_of_lookup hroot hlookup).2
  rw [hplace, lookup_append, hlookup, Option.bind_some, lookup_dir_cons,
    find_of_mem hwell.1 hentry, Option.bind_some, lookup_nil]

end Reaching

end P2PFileTransfer.Foundation.DirectoryTree
