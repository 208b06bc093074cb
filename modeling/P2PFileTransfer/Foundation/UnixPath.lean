import Mathlib.Data.List.Basic
import Mathlib.Data.List.Induction
import Mathlib.Tactic.Common

/-!
# Lexical paths with Unix component rules

A path is its raw byte string.  Its components are read by the rules of the
standard library on Unix: a leading separator is the root, a leading `.` is the
current directory, repeated and trailing separators and every later `.` are
dropped, `..` is kept as a component of its own.  Nothing here consults a file
system, so a component list is the lexical location a path denotes.
-/

namespace P2PFileTransfer.Foundation.UnixPath

abbrev OsStr := List UInt8

/-- The byte `/`. -/
def separator : UInt8 := 47

/-- The byte `.`. -/
def dot : UInt8 := 46

inductive Component where
  | rootDir
  | curDir
  | parentDir
  | normal (name : OsStr)
  deriving DecidableEq, Repr

/-- Where a path points, read without a file system. -/
abbrev Location := List Component

def hasRoot (path : OsStr) : Bool := path.head? = some separator

def isAbsolute (path : OsStr) : Bool := hasRoot path

/-- Empty pieces and `.` pieces leave no component. -/
def parseComponent (piece : OsStr) : Option Component :=
  if piece = [] ∨ piece = [dot] then none
  else if piece = [dot, dot] then some .parentDir
  else some (.normal piece)

/-- The component that stands in front of the pieces, if any. -/
def startComponent (path : OsStr) : List Component :=
  if hasRoot path then [.rootDir]
  else if (path.splitOn separator).head? = some [dot] then [.curDir]
  else []

def components (path : OsStr) : Location :=
  startComponent path ++ (path.splitOn separator).filterMap parseComponent

/-- Append `path` to the buffer; an absolute path replaces it. -/
def push (buffer path : OsStr) : OsStr :=
  if hasRoot path then path
  else if buffer ≠ [] ∧ buffer.getLast? ≠ some separator then buffer ++ separator :: path
  else buffer ++ path

def join (base path : OsStr) : OsStr := push base path

/-- The location without its final component; a root or an empty path has none. -/
def parent (path : OsStr) : Option Location :=
  match (components path).getLast? with
  | some .rootDir | none => none
  | some _ => some (components path).dropLast

/-- The last component, if it is a name. -/
def fileName (path : OsStr) : Option OsStr :=
  match (components path).getLast? with
  | some (.normal name) => some name
  | _ => none

def Component.asOsStr : Component → OsStr
  | .rootDir => [separator]
  | .curDir => [dot]
  | .parentDir => [dot, dot]
  | .normal name => name

/-- The path that consists of these components. -/
def collect (location : Location) : OsStr :=
  location.foldl (fun buffer component => push buffer component.asOsStr) []

/-- `path.parent()` as a path; where only spelling differs, paths are the same. -/
def parentPath (path : OsStr) : Option OsStr := (parent path).map collect

/-- What is left of the path behind `base`, component by component. -/
def stripPrefix (path base : OsStr) : Option OsStr :=
  if components base <+: components path then
    some (collect ((components path).drop (components base).length))
  else none

/-- A byte string that the parser reads back as one normal component. -/
structure IsName (name : OsStr) : Prop where
  nonempty : name ≠ []
  notDot : name ≠ [dot]
  notDotDot : name ≠ [dot, dot]
  noSeparator : separator ∉ name

/-- The path that `push` builds from names, one separator between neighbours. -/
def render (names : List OsStr) : OsStr := [separator].intercalate names

/-- `location` is `base` followed by at least one component, all of them names. -/
def ProperlyBelow (base location : Location) : Prop :=
  ∃ names : List OsStr, names ≠ [] ∧ (∀ name ∈ names, IsName name) ∧
    location = base ++ names.map .normal

@[simp]
theorem hasRoot_nil : hasRoot [] = false := rfl

theorem components_nil : components [] = [] := by decide

/-- Pushing a relative path appends it, after a separator where one is missing. -/
theorem push_relative (buffer : OsStr) {path : OsStr} (hroot : hasRoot path = false) :
    push buffer path =
      if buffer ≠ [] ∧ buffer.getLast? ≠ some separator then buffer ++ separator :: path
      else buffer ++ path := by
  rw [push, hroot, if_neg Bool.false_ne_true]

theorem parseComponent_normal {piece name : OsStr}
    (hparse : parseComponent piece = some (.normal name)) :
    piece = name ∧ name ≠ [] ∧ name ≠ [dot] ∧ name ≠ [dot, dot] := by
  unfold parseComponent at hparse
  split at hparse
  · cases hparse
  · rename_i hplain
    split at hparse
    · cases hparse
    · rename_i hdots
      cases hparse
      exact ⟨rfl, fun hnil => hplain (Or.inl hnil), fun hdot => hplain (Or.inr hdot), hdots⟩

theorem parseComponent_of_isName {name : OsStr} (hname : IsName name) :
    parseComponent name = some (.normal name) := by
  rw [parseComponent, if_neg, if_neg hname.notDotDot]
  rintro (hnil | hdot)
  · exact hname.nonempty hnil
  · exact hname.notDot hdot

/-- No piece of a split path holds a separator. -/
theorem separator_not_mem_of_mem_splitOn {path piece : OsStr}
    (hpiece : piece ∈ path.splitOn separator) : separator ∉ piece := by
  induction path generalizing piece with
  | nil =>
      have hnil : piece = [] := by simpa using hpiece
      simp [hnil]
  | cons byte rest ih =>
      rw [List.splitOn_cons_eq_if_modifyHead] at hpiece
      by_cases hbyte : byte = separator
      · rw [if_pos (by simpa using hbyte)] at hpiece
        rcases List.mem_cons.mp hpiece with rfl | hlater
        · simp
        · exact ih hlater
      · rw [if_neg (by simpa using hbyte)] at hpiece
        obtain ⟨first, others, hsplit⟩ :=
          List.exists_cons_of_ne_nil (List.splitOn_ne_nil separator rest)
        rw [hsplit, List.modifyHead_cons] at hpiece
        rcases List.mem_cons.mp hpiece with rfl | hlater
        · have hfirst : separator ∉ first := ih (by rw [hsplit]; exact List.mem_cons_self)
          rintro (_ | _)
          · exact hbyte rfl
          · exact hfirst (by assumption)
        · exact ih (by rw [hsplit]; exact List.mem_cons_of_mem _ hlater)

/-- Every normal component of a parsed path is a name. -/
theorem isName_of_normal_mem_components {path name : OsStr}
    (hmem : Component.normal name ∈ components path) : IsName name := by
  rcases List.mem_append.mp hmem with hstart | hbody
  · unfold startComponent at hstart
    split at hstart
    · simp at hstart
    · split at hstart <;> simp at hstart
  · obtain ⟨piece, hpiece, hparse⟩ := List.mem_filterMap.mp hbody
    obtain ⟨rfl, hnil, hdot, hdots⟩ := parseComponent_normal hparse
    exact ⟨hnil, hdot, hdots, separator_not_mem_of_mem_splitOn hpiece⟩

/-! ## Rendered names -/

theorem filterMap_parseComponent_names {names : List OsStr} (hnames : ∀ name ∈ names, IsName name) :
    names.filterMap parseComponent = names.map .normal := by
  induction names with
  | nil => rfl
  | cons name rest ih =>
      rw [List.filterMap_cons_some (parseComponent_of_isName (hnames name List.mem_cons_self)),
        ih fun other hother => hnames other (List.mem_cons_of_mem _ hother), List.map_cons]

theorem splitOn_render {names : List OsStr} (hne : names ≠ [])
    (hnames : ∀ name ∈ names, IsName name) : (render names).splitOn separator = names :=
  List.splitOn_intercalate separator (fun name hname => (hnames name hname).noSeparator) hne

theorem head?_render {name : OsStr} (hname : IsName name) (rest : List OsStr) :
    (render (name :: rest)).head? = name.head? := by
  obtain ⟨first, others, rfl⟩ := List.exists_cons_of_ne_nil hname.nonempty
  cases rest with
  | nil => simp [render]
  | cons next rest => simp [render]

theorem hasRoot_render {names : List OsStr} (hnames : ∀ name ∈ names, IsName name) :
    hasRoot (render names) = false := by
  cases names with
  | nil => rfl
  | cons name rest =>
      have hname := hnames name List.mem_cons_self
      rw [hasRoot, head?_render hname, decide_eq_false_iff_not]
      intro hhead
      exact hname.noSeparator (List.mem_of_mem_head? hhead)

theorem startComponent_render {names : List OsStr} (hnames : ∀ name ∈ names, IsName name) :
    startComponent (render names) = [] := by
  rw [startComponent, hasRoot_render hnames]
  cases names with
  | nil => decide
  | cons name rest =>
      rw [splitOn_render (List.cons_ne_nil _ _) hnames]
      have hdot := (hnames name List.mem_cons_self).notDot
      simp [hdot]

theorem components_render {names : List OsStr} (hnames : ∀ name ∈ names, IsName name) :
    components (render names) = names.map .normal := by
  rw [components, startComponent_render hnames, List.nil_append]
  cases names with
  | nil => decide
  | cons name rest =>
      rw [splitOn_render (List.cons_ne_nil _ _) hnames, filterMap_parseComponent_names hnames]

theorem render_eq_nil_iff {names : List OsStr} (hnames : ∀ name ∈ names, IsName name) :
    render names = [] ↔ names = [] := by
  constructor
  · intro hnil
    have hcomponents := components_render hnames
    rw [hnil, components_nil] at hcomponents
    exact List.map_eq_nil_iff.mp hcomponents.symm
  · rintro rfl
    rfl

/-- Appending bytes to a rendered path appends them to its last name. -/
theorem render_concat_append (names : List OsStr) (last suffix : OsStr) :
    render (names ++ [last]) ++ suffix = render (names ++ [last ++ suffix]) := by
  induction names with
  | nil => simp [render]
  | cons name rest ih =>
      have hleft : rest ++ [last] ≠ [] := by simp
      have hright : rest ++ [last ++ suffix] ≠ [] := by simp
      unfold render at ih ⊢
      rw [List.cons_append, List.cons_append, List.intercalate_cons_of_ne_nil hleft,
        List.intercalate_cons_of_ne_nil hright, List.append_assoc, List.append_assoc, ih,
        List.append_assoc]

theorem render_concat {names : List OsStr} (hne : names ≠ []) (name : OsStr) :
    render (names ++ [name]) = render names ++ separator :: name := by
  induction names with
  | nil => exact absurd rfl hne
  | cons first rest ih =>
      unfold render at ih ⊢
      cases rest with
      | nil => simp
      | cons second rest =>
          have hjoined := ih (List.cons_ne_nil _ _)
          simp only [List.cons_append] at hjoined ⊢
          rw [List.intercalate_cons_cons, List.intercalate_cons_cons, hjoined]
          simp

/-- A rendered path of at least one name does not end in a separator. -/
theorem getLast?_render_ne {names : List OsStr} (hnames : ∀ name ∈ names, IsName name) :
    (render names).getLast? ≠ some separator := by
  rcases List.eq_nil_or_concat names with rfl | ⟨front, name, rfl⟩
  · simp [render]
  · rw [List.concat_eq_append] at hnames ⊢
    have hname := hnames name (by simp)
    have hlast : (render (front ++ [name])).getLast? = name.getLast? := by
      by_cases hempty : front = []
      · rw [hempty]
        simp [render]
      · rw [render_concat hempty]
        obtain ⟨first, others, rfl⟩ := List.exists_cons_of_ne_nil hname.nonempty
        simp [List.getLast?_append, List.getLast?_cons]
    rw [hlast]
    intro hsep
    exact hname.noSeparator (List.mem_of_getLast? hsep)

/-- Pushing a name onto a rendered path renders the longer list. -/
theorem push_render {names : List OsStr} {name : OsStr}
    (hnames : ∀ other ∈ names, IsName other) (hname : IsName name) :
    push (render names) name = render (names ++ [name]) := by
  have hroot : hasRoot name = false := by
    have hsingle : hasRoot (render [name]) = false := hasRoot_render (by simpa using hname)
    simpa [render] using hsingle
  rw [push_relative _ hroot]
  by_cases hempty : names = []
  · rw [hempty]
    simp [render]
  · have hne : render names ≠ [] := fun hnil => hempty ((render_eq_nil_iff hnames).mp hnil)
    rw [if_pos ⟨hne, getLast?_render_ne hnames⟩, render_concat hempty]

/-! ## Joining a rendered path below a base -/

theorem components_append_separator_append (front path : OsStr)
    (hstart : startComponent path = []) (hfront : front ≠ []) :
    components (front ++ separator :: path) = components front ++ components path := by
  have hroot : hasRoot (front ++ separator :: path) = hasRoot front := by
    obtain ⟨first, others, rfl⟩ := List.exists_cons_of_ne_nil hfront
    rfl
  have hhead : ((front ++ separator :: path).splitOn separator).head? =
      (front.splitOn separator).head? := by
    rw [List.splitOn_append_cons_self,
      List.head?_append_of_ne_nil _ (List.splitOn_ne_nil separator front)]
  have hsame : startComponent (front ++ separator :: path) = startComponent front := by
    rw [startComponent, startComponent, hroot, hhead]
  rw [components, hsame, List.splitOn_append_cons_self, List.filterMap_append, components,
    components, hstart, List.nil_append, List.append_assoc]

theorem components_append_separator (front : OsStr) (hfront : front ≠ []) :
    components (front ++ [separator]) = components front := by
  rw [components_append_separator_append front [] (by decide) hfront, components_nil,
    List.append_nil]

theorem hasRoot_of_startComponent {path : OsStr} (hstart : startComponent path = []) :
    hasRoot path = false := by
  rw [Bool.eq_false_iff]
  intro hroot
  rw [startComponent, if_pos hroot] at hstart
  cases hstart

/-- Joining a path that begins with neither a root nor `.` appends its components. -/
theorem components_join (base : OsStr) {path : OsStr} (hstart : startComponent path = []) :
    components (join base path) = components base ++ components path := by
  rw [join, push_relative base (hasRoot_of_startComponent hstart)]
  split
  · rename_i hseparated
    rw [components_append_separator_append base _ hstart hseparated.1]
  · rename_i hplain
    rcases List.eq_nil_or_concat base with rfl | ⟨front, last, rfl⟩
    · rw [components_nil, List.nil_append, List.nil_append]
    · rw [List.concat_eq_append] at hplain ⊢
      have hlast : last = separator := by
        by_contra hother
        exact hplain ⟨by simp, by simpa using hother⟩
      subst hlast
      rw [List.append_assoc, List.singleton_append]
      by_cases hfront : front = []
      · subst hfront
        have hrooted : startComponent (separator :: path) = [.rootDir] := by
          simp [startComponent, hasRoot]
        have hroot : components ([] ++ [separator]) = [.rootDir] := by decide
        have hsplit : (separator :: path).splitOn separator = [] :: path.splitOn separator := by
          rw [List.splitOn_cons_eq_if_modifyHead, if_pos (by simp)]
        have hbody : (path.splitOn separator).filterMap parseComponent = components path := by
          rw [components, hstart, List.nil_append]
        rw [hroot, List.nil_append, components, hrooted, hsplit, List.filterMap_cons_none (by decide),
          hbody]
      · rw [components_append_separator_append front _ hstart hfront,
          components_append_separator front hfront]

/-- Joining a rendered path appends its names to the components of the base. -/
theorem components_join_render (base : OsStr) {names : List OsStr}
    (hnames : ∀ name ∈ names, IsName name) :
    components (join base (render names)) = components base ++ names.map .normal := by
  rw [components_join base (startComponent_render hnames), components_render hnames]

theorem components_join_name (base : OsStr) {name : OsStr} (hname : IsName name) :
    components (join base name) = components base ++ [.normal name] := by
  have hsingle : ∀ other ∈ [name], IsName other := by simpa using hname
  have hjoined := components_join_render base hsingle
  rwa [render, List.intercalate_singleton] at hjoined

theorem forall_isName_concat {names : List OsStr} {last : OsStr}
    (hnames : ∀ name ∈ names, IsName name) (hlast : IsName last) :
    ∀ name ∈ names ++ [last], IsName name := by
  intro name hname
  rcases List.mem_append.mp hname with hin | hin
  · exact hnames name hin
  · rw [List.mem_singleton.mp hin]
    exact hlast

/-- Bytes appended to a joined path land on its last name. -/
theorem join_render_append (base suffix : OsStr) {names : List OsStr} {last : OsStr}
    (hnames : ∀ name ∈ names ++ [last], IsName name)
    (hsuffixed : ∀ name ∈ names ++ [last ++ suffix], IsName name) :
    join base (render (names ++ [last])) ++ suffix =
      join base (render (names ++ [last ++ suffix])) := by
  rw [join, join, push_relative base (hasRoot_render hnames),
    push_relative base (hasRoot_render hsuffixed), ← render_concat_append]
  split
  · rw [List.append_assoc, List.cons_append]
  · rw [List.append_assoc]

/-- A suffix appended to the joined path only changes the last component. -/
theorem components_join_render_append (base suffix : OsStr) {names : List OsStr} {last : OsStr}
    (hnames : ∀ name ∈ names, IsName name) (hlast : IsName last) (hsuffixed : IsName (last ++ suffix)) :
    components (join base (render (names ++ [last])) ++ suffix) =
      components base ++ (names ++ [last ++ suffix]).map .normal := by
  have hlong := forall_isName_concat hnames hsuffixed
  rw [join_render_append base suffix (forall_isName_concat hnames hlast) hlong,
    components_join_render base hlong]

theorem isName_append {name suffix : OsStr} (hname : IsName name) (hsep : separator ∉ suffix)
    (hlong : 2 < suffix.length) : IsName (name ++ suffix) where
  nonempty := by simp [hname.nonempty]
  notDot := by
    intro hdot
    have hlength := congrArg List.length hdot
    simp only [List.length_append, List.length_cons, List.length_nil] at hlength
    omega
  notDotDot := by
    intro hdots
    have hlength := congrArg List.length hdots
    simp only [List.length_append, List.length_cons, List.length_nil] at hlength
    omega
  noSeparator := by
    rw [List.mem_append]
    rintro (hin | hin)
    · exact hname.noSeparator hin
    · exact hsep hin

/-- A relative path with at least one byte has a component. -/
theorem components_ne_nil {path : OsStr} (hroot : hasRoot path = false) (hne : path ≠ []) :
    components path ≠ [] := by
  obtain ⟨byte, rest, rfl⟩ := List.exists_cons_of_ne_nil hne
  have hbyte : byte ≠ separator := by
    rintro rfl
    simp [hasRoot] at hroot
  obtain ⟨piece, pieces, hsplit⟩ :=
    List.exists_cons_of_ne_nil (List.splitOn_ne_nil separator (byte :: rest))
  have hpiece : piece ≠ [] := by
    rintro rfl
    rw [List.splitOn_cons_eq_if_modifyHead, if_neg (by simpa using hbyte)] at hsplit
    obtain ⟨first, others, hrest⟩ :=
      List.exists_cons_of_ne_nil (List.splitOn_ne_nil separator rest)
    rw [hrest, List.modifyHead_cons] at hsplit
    cases (List.cons.inj hsplit).1
  intro hnil
  obtain ⟨hstart, hbody⟩ := List.append_eq_nil_iff.mp hnil
  by_cases hdot : piece = [dot]
  · rw [startComponent, hroot, if_neg Bool.false_ne_true, hsplit, hdot, List.head?_cons,
      if_pos rfl] at hstart
    cases hstart
  · rw [hsplit, List.filterMap_eq_nil_iff] at hbody
    have hparse := hbody piece List.mem_cons_self
    rw [parseComponent, if_neg (not_or.mpr ⟨hpiece, hdot⟩)] at hparse
    split at hparse <;> cases hparse

/-- The parent of a path joined from names is the base with all names but the last. -/
theorem parent_join_render (base : OsStr) {names : List OsStr} (hne : names ≠ [])
    (hnames : ∀ name ∈ names, IsName name) :
    parent (join base (render names)) =
      some (components base ++ names.dropLast.map .normal) := by
  rcases List.eq_nil_or_concat names with rfl | ⟨front, last, rfl⟩
  · exact absurd rfl hne
  · have hcomponents := components_join_render base hnames
    rw [parent, hcomponents]
    simp [← List.append_assoc]

/-! ## A suffix on a raw path -/

theorem splitOn_eq_singleton {path : OsStr} (hsep : separator ∉ path) :
    path.splitOn separator = [path] := by
  induction path with
  | nil => rfl
  | cons byte rest ih =>
      obtain ⟨hbyte, hrest⟩ := not_or.mp (mt List.mem_cons.mpr hsep)
      rw [List.splitOn_cons_eq_if_modifyHead, if_neg (by simpa using Ne.symm hbyte), ih hrest]
      rfl

/-- Bytes without a separator extend the last piece. -/
theorem splitOn_append_suffix (path : OsStr) {suffix : OsStr} (hsep : separator ∉ suffix) :
    ∃ front last, path.splitOn separator = front ++ [last] ∧
      (path ++ suffix).splitOn separator = front ++ [last ++ suffix] := by
  induction path with
  | nil => exact ⟨[], [], rfl, splitOn_eq_singleton hsep⟩
  | cons byte rest ih =>
      obtain ⟨front, last, hrest, hlong⟩ := ih
      rw [List.cons_append, List.splitOn_cons_eq_if_modifyHead,
        List.splitOn_cons_eq_if_modifyHead, hrest, hlong]
      by_cases hbyte : byte = separator
      · rw [if_pos (by simpa using hbyte), if_pos (by simpa using hbyte)]
        exact ⟨[] :: front, last, rfl, rfl⟩
      · rw [if_neg (by simpa using hbyte), if_neg (by simpa using hbyte)]
        cases front with
        | nil => exact ⟨[], byte :: last, rfl, rfl⟩
        | cons first front => exact ⟨(byte :: first) :: front, last, rfl, rfl⟩

theorem parseComponent_ne_start {piece : OsStr} {component : Component}
    (hparse : parseComponent piece = some component) :
    component ≠ .rootDir ∧ component ≠ .curDir := by
  unfold parseComponent at hparse
  split at hparse
  · cases hparse
  · split at hparse <;> cases hparse <;> exact ⟨by simp, by simp⟩

theorem parseComponent_of_long {name : OsStr} (hlong : 2 < name.length) :
    parseComponent name = some (.normal name) := by
  rw [parseComponent, if_neg, if_neg]
  · rintro rfl
    exact absurd hlong (by decide)
  · rintro (rfl | rfl) <;> exact absurd hlong (by decide)

/-- What a path may begin with besides its names. -/
theorem eq_of_mem_startComponent {path : OsStr} {component : Component}
    (hcomponent : component ∈ startComponent path) : component = .rootDir ∨ component = .curDir := by
  unfold startComponent at hcomponent
  split at hcomponent
  · exact Or.inl (List.mem_singleton.mp hcomponent)
  · split at hcomponent
    · exact Or.inr (List.mem_singleton.mp hcomponent)
    · cases hcomponent

theorem length_startComponent_le (path : OsStr) : (startComponent path).length ≤ 1 := by
  unfold startComponent
  split
  · exact Nat.le_refl 1
  · split
    · exact Nat.le_refl 1
    · exact Nat.zero_le 1

/-- A path and the same path with a suffix never denote one location. -/
theorem components_append_suffix_ne (path : OsStr) {suffix : OsStr} (hsep : separator ∉ suffix)
    (hlong : 2 < suffix.length) : components (path ++ suffix) ≠ components path := by
  obtain ⟨front, last, hpath, hsuffixed⟩ := splitOn_append_suffix path hsep
  have hplain : parseComponent (last ++ suffix) = some (.normal (last ++ suffix)) := by
    apply parseComponent_of_long
    rw [List.length_append]
    exact Nat.lt_of_lt_of_le hlong (Nat.le_add_left _ _)
  intro heq
  rw [components, components, hsuffixed, hpath, List.filterMap_append, List.filterMap_append,
    List.filterMap_cons_some hplain, List.filterMap_nil] at heq
  cases hlast : parseComponent last with
  | some component =>
      rw [List.filterMap_cons_some hlast, List.filterMap_nil, ← List.append_assoc,
        ← List.append_assoc] at heq
      have hsame := (List.append_inj' heq rfl).2
      cases hsame
      obtain ⟨hname, _⟩ := parseComponent_normal hlast
      have hlength := congrArg List.length hname
      rw [List.length_append] at hlength
      omega
  | none =>
      -- Only a leading component of the short path could make up for the last one.
      rw [List.filterMap_cons_none hlast, List.filterMap_nil, List.append_nil] at heq
      have hlengths := congrArg List.length heq
      simp only [List.length_append, List.length_cons, List.length_nil] at hlengths
      have hshort := length_startComponent_le path
      have hnil : startComponent (path ++ suffix) = [] :=
        List.eq_nil_of_length_eq_zero (by omega)
      obtain ⟨component, rest, hstart⟩ := List.exists_cons_of_ne_nil
        (show startComponent path ≠ [] by
          intro hempty
          rw [hempty, hnil] at hlengths
          simp only [List.length_nil] at hlengths
          omega)
      have hfirst : component = .rootDir ∨ component = .curDir := by
        apply eq_of_mem_startComponent
        rw [hstart]
        exact List.mem_cons_self
      rw [hnil, List.nil_append, hstart, List.cons_append] at heq
      cases hfront : front.filterMap parseComponent with
      | nil =>
          rw [hfront] at heq
          cases (List.cons.inj heq).1
          rcases hfirst with hroot | hcur
          · cases hroot
          · cases hcur
      | cons head tail =>
          have hhead : head ∈ front.filterMap parseComponent := by
            rw [hfront]
            exact List.mem_cons_self
          obtain ⟨piece, _, hparse⟩ := List.mem_filterMap.mp hhead
          obtain ⟨hnotRoot, hnotCur⟩ := parseComponent_ne_start hparse
          rw [hfront, List.cons_append] at heq
          rcases hfirst with hroot | hcur
          · exact hnotRoot ((List.cons.inj heq).1.trans hroot)
          · exact hnotCur ((List.cons.inj heq).1.trans hcur)

theorem properlyBelow_append (base : Location) {names : List OsStr} (hne : names ≠ [])
    (hnames : ∀ name ∈ names, IsName name) :
    ProperlyBelow base (base ++ names.map .normal) := ⟨names, hne, hnames, rfl⟩

/-! ## Paths built from components -/

theorem collect_concat (front : Location) (last : Component) :
    collect (front ++ [last]) = push (collect front) last.asOsStr := by
  rw [collect, List.foldl_append]
  rfl

/-- Names are collected as they are rendered. -/
theorem collect_names {names : List OsStr} (hnames : ∀ name ∈ names, IsName name) :
    collect (names.map .normal) = render names := by
  induction names using List.reverseRecOn with
  | nil => rfl
  | append_singleton front last ih =>
      have hfront : ∀ name ∈ front, IsName name := fun name hname => hnames name (by simp [hname])
      have hlast : IsName last := hnames last (by simp)
      rw [List.map_append, List.map_singleton, collect_concat, ih hfront]
      exact push_render hfront hlast

/-- Only the first component of a path can be a root or a `.`. -/
theorem not_start_of_mem_body {path : OsStr} {front back : Location} {component : Component}
    (hsplit : components path = front ++ component :: back) (hfront : front ≠ []) :
    component ≠ .rootDir ∧ component ≠ .curDir := by
  have hbody : component ∈ (path.splitOn separator).filterMap parseComponent := by
    obtain ⟨first, front, rfl⟩ := List.exists_cons_of_ne_nil hfront
    rw [components] at hsplit
    have hshort := length_startComponent_le path
    match hstart : startComponent path with
    | [] =>
        rw [hstart, List.nil_append] at hsplit
        rw [hsplit]
        simp
    | [only] =>
        rw [hstart] at hsplit
        have htail : (path.splitOn separator).filterMap parseComponent =
            front ++ component :: back := (List.cons.inj hsplit).2
        rw [htail]
        simp
    | _ :: _ :: _ =>
        rw [hstart] at hshort
        simp at hshort
  obtain ⟨piece, _, hparse⟩ := List.mem_filterMap.mp hbody
  exact parseComponent_ne_start hparse

/-- A path is made up again from any first part of its components. -/
theorem components_collect {path : OsStr} {front back : Location}
    (hsplit : components path = front ++ back) : components (collect front) = front := by
  induction front using List.reverseRecOn generalizing back with
  | nil => exact components_nil
  | append_singleton front last ih =>
      rw [List.append_assoc, List.singleton_append] at hsplit
      have hfront := ih hsplit
      rw [collect_concat]
      cases last with
      | normal name =>
          have hmem : Component.normal name ∈ components path := by
            rw [hsplit]
            simp
          have hname := isName_of_normal_mem_components hmem
          exact (components_join_name (collect front) hname).trans (by rw [hfront])
      | parentDir =>
          have hstart : startComponent [dot, dot] = [] := by decide
          have hdots : components [dot, dot] = [.parentDir] := by decide
          exact (components_join (collect front) hstart).trans (by rw [hfront, hdots])
      | rootDir | curDir =>
          have hempty : front = [] := by
            by_contra hne
            have hlater := not_start_of_mem_body hsplit hne
            simp at hlater
          subst hempty
          decide

theorem fileName_eq_some_iff {path name : OsStr} :
    fileName path = some name ↔ (components path).getLast? = some (.normal name) := by
  unfold fileName
  split
  · rename_i other hlast
    rw [hlast]
    simp
  · rename_i hother
    constructor
    · intro hnone
      cases hnone
    · intro hlast
      exact absurd hlast (hother name)

/-- A path with a file name is its parent followed by that name. -/
theorem components_parentPath {path name : OsStr} (hname : fileName path = some name) :
    ∃ base, parentPath path = some base ∧ components path = components base ++ [.normal name] := by
  have hlast := fileName_eq_some_iff.mp hname
  have hsplit : components path = (components path).dropLast ++ [.normal name] :=
    (List.dropLast_append_getLast? _ hlast).symm
  refine ⟨collect (components path).dropLast, ?_, ?_⟩
  · rw [parentPath, parent, hlast]
    rfl
  · rw [components_collect hsplit]
    exact hsplit

end P2PFileTransfer.Foundation.UnixPath
