import Peanut.Text

/-!
# Paths of the database file

The part of `std::path::Path` (on Unix) that `db.rs` and `api/backups.rs` use to
find the directory and the name of the database file.  A path is kept as what
`Path::components` sees: repeated separators and inner `.` are gone, a leading
`.` is kept.
-/

namespace Peanut

inductive PathComponent where
  | curDir
  | parentDir
  | normal (name : String)
deriving DecidableEq, Repr

structure FsPath where
  root : Bool
  components : List PathComponent
deriving DecidableEq, Repr

/-- A segment between separators; `first` marks the one a relative path starts with. -/
def PathComponent.ofSegment (first : Bool) (segment : String) : Option PathComponent :=
  if segment = "" then none
  else if segment = "." then if first then some .curDir else none
  else if segment = ".." then some .parentDir
  else some (.normal segment)

/-- The directory part of a path given by its segments. -/
def parseSegments : List String → FsPath
  | [] => { root := false, components := [] }
  | first :: rest =>
      { root := first == ""
        components := (PathComponent.ofSegment true first).toList ++
          rest.filterMap (PathComponent.ofSegment false) }

/-- `Path::new`.  A text without a separator is relative even when it is empty. -/
def parsePath (text : String) : FsPath :=
  match splitAt '/' text with
  | [first] => { root := false, components := (PathComponent.ofSegment true first).toList }
  | segments => parseSegments segments

namespace FsPath

/-- `Path::parent`. -/
def parent (p : FsPath) : Option FsPath :=
  if p.components = [] then none else some { p with components := p.components.dropLast }

/-- `Path::file_name`. -/
def fileName (p : FsPath) : Option String :=
  match p.components.getLast? with
  | some (.normal name) => some name
  | _ => none

/-- `as_os_str().is_empty()`. -/
def isEmpty (p : FsPath) : Bool := !p.root && p.components.isEmpty

/-- `Path::join`. -/
def join (base p : FsPath) : FsPath :=
  if p.root then p
  else if base.isEmpty then p
  else { base with components := base.components ++ p.components.filter (· ≠ .curDir) }

/-- The directory a path leads to, from the root or the working directory. -/
def location (p : FsPath) : FsPath :=
  { p with components := p.components.filter (· ≠ .curDir) }

/-- A path followed by a file name. -/
def child (p : FsPath) (name : String) : FsPath :=
  { p with components := p.components ++ [.normal name] }

/-- `Path::new(".")`. -/
def currentDir : FsPath := { root := false, components := [.curDir] }

end FsPath

/-- `str::strip_prefix`. -/
def stripStart (start s : String) : Option String :=
  if start.toList.isPrefixOf s.toList then some (String.ofList (s.toList.drop start.length))
  else none

/-- `str::ends_with`. -/
def endsWith (ending s : String) : Bool := ending.toList.isSuffixOf s.toList

/-- The path of the database.  sqlx, which opens the database under the same URL,
    percent-decodes the path and this function does not: for a URL with a `%` the two
    can differ, and the file the server runs on is taken here to be this one. -/
def extractDbPath (url : String) : String :=
  let path := ((stripStart "sqlite://" url).or (stripStart "sqlite:" url)).getD url
  (splitAt '?' path).head?.getD path

/-- Does a path end in the name of a file, as that of a database must? -/
def isFilePath (text : String) : Bool :=
  match (splitAt '/' text).getLast? with
  | some name => name != "" && name != "." && name != ".."
  | none => false

/-- The directory of a file, as its path spells it. -/
def dirOf (text : String) : FsPath := parseSegments (splitAt '/' text).dropLast

/-- The name of a file: what follows the last separator. -/
def baseName (text : String) : String := (splitAt '/' text).getLast?.getD ""

example : extractDbPath "sqlite:///path/to/peanut.db" = "/path/to/peanut.db" := by decide +kernel

example : extractDbPath "sqlite:peanut.db?mode=rwc" = "peanut.db" := by decide +kernel

/-! ### The parts of a file path -/

theorem FsPath.parent_child (p : FsPath) (name : String) : (p.child name).parent = some p := by
  simp [FsPath.parent, FsPath.child]

theorem FsPath.fileName_child (p : FsPath) (name : String) :
    (p.child name).fileName = some name := by
  simp [FsPath.fileName, FsPath.child]

theorem splitAt_ne_nil (c : Char) (s : String) : splitAt c s ≠ [] := by
  simp [splitAt, List.splitOn_ne_nil]

theorem splitAt_eq (c : Char) (s : String) :
    splitAt c s = (splitAt c s).dropLast ++ [(splitAt c s).getLast?.getD ""] := by
  obtain ⟨init, last, heq⟩ : ∃ init last, splitAt c s = init ++ [last] :=
    ⟨_, _, (List.dropLast_append_getLast (splitAt_ne_nil c s)).symm⟩
  simp [heq]

theorem splitAt_append {c : Char} (s : String) {t : String} (h : c ∉ t.toList) :
    splitAt c (s ++ t) = (splitAt c s).dropLast ++ [(splitAt c s).getLast?.getD "" ++ t] := by
  have hchars : ∀ l : List Char, ∃ init last, l.splitOn c = init ++ [last] ∧
      (l ++ t.toList).splitOn c = init ++ [last ++ t.toList] := by
    intro l
    induction l with
    | nil => exact ⟨[], [], by simp, by simp [List.splitOn_eq_singleton h]⟩
    | cons x l ih =>
      obtain ⟨init, last, hl, hlt⟩ := ih
      rw [List.cons_append, List.splitOn_cons_eq_if_modifyHead, List.splitOn_cons_eq_if_modifyHead,
        hl, hlt]
      by_cases hx : (x == c) = true
      · rw [if_pos hx, if_pos hx]
        exact ⟨[] :: init, last, rfl, rfl⟩
      · rw [if_neg hx, if_neg hx]
        cases init with
        | nil => exact ⟨[], x :: last, rfl, rfl⟩
        | cons first init => exact ⟨(x :: first) :: init, last, rfl, rfl⟩
  obtain ⟨init, last, hl, hlt⟩ := hchars s.toList
  have hs : splitAt c s = init.map String.ofList ++ [String.ofList last] := by
    simp [splitAt, hl]
  have hst : splitAt c (s ++ t) = init.map String.ofList ++ [String.ofList (last ++ t.toList)] := by
    simp [splitAt, String.toList_append, hlt]
  rw [hst, hs]
  simp [String.ofList_append]

theorem isFilePath_iff {text : String} :
    isFilePath text = true ↔ baseName text ≠ "" ∧ baseName text ≠ "." ∧ baseName text ≠ ".." := by
  unfold isFilePath baseName
  cases (splitAt '/' text).getLast? with
  | none => simp
  | some name => simp [and_assoc]

theorem parsePath_of_segments {text name : String} {init : List String}
    (hsplit : splitAt '/' text = init ++ [name]) (hname : name ≠ "" ∧ name ≠ "." ∧ name ≠ "..") :
    parsePath text = (parseSegments init).child name := by
  have hlast : ∀ first, PathComponent.ofSegment first name = some (.normal name) := by
    intro first
    simp [PathComponent.ofSegment, hname.1, hname.2.1, hname.2.2]
  unfold parsePath
  rw [hsplit]
  cases init with
  | nil => simp [parseSegments, FsPath.child, hlast]
  | cons first rest =>
    cases rest with
    | nil => simp [parseSegments, FsPath.child, hlast]
    | cons second rest =>
      have hmap : ((second :: rest) ++ [name]).filterMap (PathComponent.ofSegment false) =
          (second :: rest).filterMap (PathComponent.ofSegment false) ++ [.normal name] := by
        rw [List.filterMap_append, List.filterMap_cons_some (hlast false), List.filterMap_nil]
      simp only [List.cons_append] at hmap
      simp [parseSegments, FsPath.child, hmap]

/-- **A file path** is its directory and its name. -/
theorem parsePath_file {text : String} (h : isFilePath text = true) :
    parsePath text = (dirOf text).child (baseName text) :=
  parsePath_of_segments (splitAt_eq '/' text) (isFilePath_iff.mp h)

theorem ne_dots_of_append {name t : String} (h : name ≠ "") (ht : 2 ≤ t.length) :
    name ++ t ≠ "" ∧ name ++ t ≠ "." ∧ name ++ t ≠ ".." := by
  have hlen : 3 ≤ (name ++ t).length := by
    have hpos : name.length ≠ 0 := by simpa using h
    rw [String.length_append]
    omega
  refine ⟨?_, ?_, ?_⟩
  · rintro heq
    rw [heq] at hlen
    exact absurd hlen (by decide)
  · rintro heq
    rw [heq] at hlen
    exact absurd hlen (by decide)
  · rintro heq
    rw [heq] at hlen
    exact absurd hlen (by decide)

theorem parsePath_file_append {text t : String} (h : isFilePath text = true)
    (hslash : '/' ∉ t.toList) (ht : 2 ≤ t.length) :
    parsePath (text ++ t) = (dirOf text).child (baseName text ++ t) :=
  parsePath_of_segments (splitAt_append text hslash)
    (ne_dots_of_append (isFilePath_iff.mp h).1 ht)

theorem dirOf_isEmpty (text : String) : (dirOf text).isEmpty = !text.toList.contains '/' := by
  have hlength : ∀ l : List Char, (l.splitOn '/').dropLast = [] ↔ '/' ∉ l := by
    intro l
    induction l with
    | nil => simp
    | cons x l ih =>
      rw [List.splitOn_cons_eq_if_modifyHead]
      by_cases hx : (x == '/') = true
      · rw [if_pos hx]
        have hne := List.splitOn_ne_nil '/' l
        cases hsplit : l.splitOn '/' with
        | nil => exact absurd hsplit hne
        | cons first rest => simp [beq_iff_eq.mp hx]
      · rw [if_neg hx]
        have hx' : '/' ≠ x := fun heq => hx (beq_iff_eq.mpr heq.symm)
        cases hsplit : l.splitOn '/' with
        | nil => exact absurd hsplit (List.splitOn_ne_nil '/' l)
        | cons first rest =>
          rw [hsplit] at ih
          cases rest with
          | nil => simpa [hx'] using ih
          | cons second rest => simpa [hx'] using ih
  have hdrop : (splitAt '/' text).dropLast = [] ↔ '/' ∉ text.toList := by
    rw [splitAt, ← List.map_dropLast, List.map_eq_nil_iff]
    exact hlength text.toList
  rw [dirOf]
  by_cases hslash : '/' ∈ text.toList
  · have hne : (splitAt '/' text).dropLast ≠ [] := fun hnil => hdrop.mp hnil hslash
    cases hsegments : (splitAt '/' text).dropLast with
    | nil => exact absurd hsegments hne
    | cons first rest =>
      by_cases hfirst : first = ""
      · simp [parseSegments, FsPath.isEmpty, hfirst, hslash]
      · have hsome : ∃ c, PathComponent.ofSegment true first = some c := by
          unfold PathComponent.ofSegment
          rw [if_neg hfirst]
          by_cases hdot : first = "."
          · exact ⟨.curDir, by simp [hdot]⟩
          · by_cases hdots : first = ".."
            · exact ⟨.parentDir, by simp [hdots]⟩
            · exact ⟨.normal first, by simp [hdot, hdots]⟩
        obtain ⟨c, hc⟩ := hsome
        simp [parseSegments, FsPath.isEmpty, hc, hslash]
  · rw [hdrop.mpr hslash]
    simp [parseSegments, FsPath.isEmpty, hslash]

end Peanut
