/-
# A folder of files

A host in memory: the files under a working directory, each with the path that leads to it.  A
directory is there if a file lies in it; the working directory is always there.  Of what lies
outside nothing is known but that directories are directories.

* `read`, `write`: reading a file as text, and replacing or making one.
* `read_eq_ok_iff`, `write_eq_ok_iff`: where a text can be read, and where it can be written.
* `host`: the steps of a run, made in a folder.
-/
import IntC.Command.Host

namespace IntC.Command

/-- The files under the working directory: the names that lead to each, and its bytes. -/
structure Folder where
  files : List (List String × ByteArray)

/-- What is at a path. -/
inductive Place
  | file (bytes : ByteArray)
  | directory
  | nothing

/-- Where a path leads: to names under the working directory, or out of it. -/
inductive Location
  | inside (names : List String)
  | outside
  deriving DecidableEq, Repr

namespace Folder

/-- The bytes of the file that the names lead to. -/
def contents? (f : Folder) (names : List String) : Option ByteArray := f.files.lookup names

/-- The names lead to a directory. -/
def isDirectory (f : Folder) (names : List String) : Bool :=
  names.isEmpty || f.files.any fun file => names.isPrefixOf file.1 && names != file.1

/-- What the names lead to. -/
def place (f : Folder) (names : List String) : Place :=
  match f.contents? names with
  | some bytes => .file bytes
  | none => if f.isDirectory names then .directory else .nothing

/-- Follows one name of a path, which has to start in a directory. -/
def follow (f : Folder) : Location → String → Except Fault Location
  | .outside, name =>
    if name = "." ∨ name = ".." then .ok .outside else .error .notFound
  | .inside names, name =>
    match f.place names with
    | .file _ => .error .notDirectory
    | .nothing => .error .notFound
    | .directory =>
      if name = "." then .ok (.inside names)
      else if name = ".." then .ok (if names = [] then .outside else .inside names.dropLast)
      else .ok (.inside (names ++ [name]))

/-- The names in a path. -/
def namesOf (path : String) : List String :=
  ((path.toList.splitOn '/').map String.ofList).filter fun name => name ≠ ""

/-- The path ends with a slash, and so can only lead to a directory. -/
def namesDirectory (path : String) : Bool := path.toList.getLast? == some '/'

/-- Follows a path from its start. -/
def locate (f : Folder) (path : String) : Except Fault Location :=
  if path = "" then .error .notFound
  else (namesOf path).foldlM f.follow
    (if path.toList.head? = some '/' then .outside else .inside [])

/-- The text of the file that a path leads to. -/
def read (f : Folder) (path : String) : Except Fault String := do
  match ← f.locate path with
  | .outside => .error .isDirectory
  | .inside names =>
    match f.place names with
    | .directory => .error .isDirectory
    | .nothing => .error .notFound
    | .file bytes =>
      if namesDirectory path then .error .notDirectory
      else match String.fromUTF8? bytes with
        | some text => .ok text
        | none => .error .notText

/-- The folder with the file at the names replaced or made. -/
def put (f : Folder) (names : List String) (bytes : ByteArray) : Folder :=
  ⟨(names, bytes) :: f.files.filter fun file => file.1 != names⟩

/-- Writes a text to the file that a path leads to. -/
def write (f : Folder) (path text : String) : Except Fault Folder := do
  match ← f.locate path with
  | .outside => .error .isDirectory
  | .inside names =>
    match f.place names with
    | .directory => .error .isDirectory
    | _ => if namesDirectory path then .error .isDirectory else .ok (f.put names text.toUTF8)

/-- One file has the bytes that were put there, and every other file has what it had. -/
theorem contents?_put (f : Folder) (names other : List String) (bytes : ByteArray) :
    (f.put names bytes).contents? other =
      if other = names then some bytes else f.contents? other := by
  unfold contents? put
  by_cases h : other = names
  · simp [h]
  · have hb : (other == names) = false := by simpa using h
    simp only [List.lookup_cons, hb, h, if_false]
    induction f.files with
    | nil => rfl
    | cons file files ih =>
      obtain ⟨name, bytes'⟩ := file
      by_cases hn : name = names
      · have ho : (other == name) = false := by simpa [hn] using h
        simp [hn, List.lookup_cons, hb, ih]
      · cases ho : other == name <;> simp [hn, List.lookup_cons, ho, ih]

/-- Bytes are the text that is written with them. -/
theorem fromUTF8?_eq_some_iff {bytes : ByteArray} {text : String} :
    String.fromUTF8? bytes = some text ↔ bytes = text.toUTF8 := by
  unfold String.fromUTF8?
  constructor
  · intro h
    split at h
    · cases h
      rfl
    · cases h
  · rintro rfl
    rw [dif_pos (show text.toUTF8.IsValidUTF8 from text.isValidUTF8)]
    rfl

/-- A text is read where the path leads to a file with the bytes of the text. -/
theorem read_eq_ok_iff {f : Folder} {path text : String} :
    f.read path = .ok text ↔ namesDirectory path = false ∧
      ∃ names, f.locate path = .ok (.inside names) ∧ f.contents? names = some text.toUTF8 := by
  unfold read place
  cases hl : f.locate path with
  | error fault => simp [bind, Except.bind]
  | ok location =>
    cases location with
    | outside => simp [bind, Except.bind]
    | inside names =>
      cases hbytes : f.contents? names with
      | none =>
        cases hdirectory : f.isDirectory names <;> simp [bind, Except.bind, hbytes, hdirectory]
      | some bytes =>
        cases hslash : namesDirectory path with
        | true => simp [bind, Except.bind, hbytes]
        | false =>
          have htext := @fromUTF8?_eq_some_iff bytes text
          cases hread : String.fromUTF8? bytes <;> rw [hread] at htext <;>
            simpa [bind, Except.bind, hbytes, hread] using htext

/-- A text is written by putting it where the path leads, unless that is a directory. -/
theorem write_eq_ok_iff {f changed : Folder} {path text : String} :
    f.write path text = .ok changed ↔ namesDirectory path = false ∧
      ∃ names, f.locate path = .ok (.inside names) ∧ f.place names ≠ .directory ∧
        changed = f.put names text.toUTF8 := by
  unfold write
  cases hl : f.locate path with
  | error fault => simp [bind, Except.bind]
  | ok location =>
    cases location with
    | outside => simp [bind, Except.bind]
    | inside names =>
      cases hplace : f.place names with
      | directory => simp [bind, Except.bind, hplace]
      | nothing =>
        cases hslash : namesDirectory path <;> simp [bind, Except.bind, hplace, eq_comm]
      | file bytes =>
        cases hslash : namesDirectory path <;> simp [bind, Except.bind, hplace, eq_comm]

end Folder

/-- A folder, with what has been printed and what has been reported so far. -/
structure Terminal where
  folder : Folder
  stdout : String := ""
  reported : String := ""

/-- The host that works in a folder. -/
def Folder.host : Host (StateM Terminal) where
  read path := return (← get).folder.read path
  write path text := do
    match (← get).folder.write path text with
    | .ok folder =>
      modify ({ · with folder })
      return .ok ()
    | .error fault => return .error fault
  print text := do
    modify fun t => { t with stdout := t.stdout ++ text }
    return .ok ()
  report text := modify fun t => { t with reported := t.reported ++ text }

end IntC.Command
