/-!
# Folders

A folder of text files, as a value.  It stands in other folders, which have nothing in them that a
command could know of; a path can go up to them with two dots.  The parts of a path are looked at
from left to right, and the first one that leads nowhere decides the error.

`read_of_write` says that a file reads back as it was written.
-/

set_option autoImplicit false

namespace TernaryMachine

/-- Why a file cannot be read or written. -/
inductive FileError where
  /-- There is no such file, or no folder for it. -/
  | notFound
  /-- A file stands where the path needs a folder. -/
  | notFolder
  /-- The path leads to a folder. -/
  | isFolder
  /-- The path, or a name in it, has too many bytes. -/
  | nameTooLong
  /-- The file does not hold UTF-8 text. -/
  | notText
  /-- Another reason, in the system's own words. -/
  | other (text : String)
  deriving DecidableEq, Repr

/-- The system's wording of a file error. -/
def FileError.message : FileError → String
  | notFound => "No such file or directory (os error 2)"
  | notFolder => "Not a directory (os error 20)"
  | isFolder => "Is a directory (os error 21)"
  | nameTooLong => "File name too long (os error 36)"
  | notText => "stream did not contain valid UTF-8"
  | other text => text

/-- A path in its parts. -/
structure PathParts where
  /-- Whether the path starts in the folder at hand. -/
  isRelative : Bool
  /-- The folders to go through. -/
  folders : List String
  /-- The last part, empty if there is none. -/
  last : String
  /-- Whether a slash stands behind the last part. -/
  isSlashed : Bool
  deriving DecidableEq, Repr

namespace PathParts

/-- The parts of a path. -/
def ofPath (path : String) : PathParts :=
  let parts := (path.splitOn "/").filter fun part => !part.isEmpty
  ⟨!path.startsWith "/", parts.dropLast, parts.getLast?.getD "", path.endsWith "/"⟩

/-- Whether a part of a path leads to a folder wherever it stands: one dot to the same folder, two
to the folder above. -/
def isDots (part : String) : Bool := part.isEmpty || part == "." || part == ".."

end PathParts

/-- A folder of text files without folders in it. -/
structure Folder where
  /-- The names and contents of the files. -/
  files : List (String × String)
  deriving Repr

namespace Folder

/-- The most bytes of a name. -/
def nameLimit : Nat := 255

/-- The most bytes of a path. -/
def pathLimit : Nat := 4095

/-- The content of the file with a name, in the folder at hand or in one above it. -/
def find? (folder : Folder) (isHere : Bool) (name : String) : Option String :=
  if isHere then folder.files.lookup name else none

/-- Goes through folders and tells whether that ends in the folder at hand. -/
def enter (folder : Folder) : Bool → List String → Except FileError Bool
  | isHere, [] => .ok isHere
  | isHere, part :: rest =>
    if PathParts.isDots part then folder.enter (isHere && part != "..") rest
    else if nameLimit < part.utf8ByteSize then .error .nameTooLong
    else .error (if (folder.find? isHere part).isSome then .notFolder else .notFound)

/-- The parts of a path, and whether its last part is looked for in the folder at hand. -/
def locate (folder : Folder) (path : String) : Except FileError (Bool × PathParts) :=
  if path.isEmpty then .error .notFound
  else if pathLimit < path.utf8ByteSize then .error .nameTooLong
  else
    let parts := PathParts.ofPath path
    (folder.enter parts.isRelative parts.folders).map fun isHere => (isHere, parts)

/-- The content of the file at a path. -/
def read (folder : Folder) (path : String) : Except FileError String :=
  match folder.locate path with
  | .error e => .error e
  | .ok (isHere, parts) =>
    if PathParts.isDots parts.last then .error .isFolder
    else if nameLimit < parts.last.utf8ByteSize then .error .nameTooLong
    else
      match folder.find? isHere parts.last with
      | some text => if parts.isSlashed then .error .notFolder else .ok text
      | none => .error .notFound

/-- The folder with a text in the file at a path; a file in a folder above leaves it as it is. -/
def write (folder : Folder) (path text : String) : Except FileError Folder :=
  match folder.locate path with
  | .error e => .error e
  | .ok (isHere, parts) =>
    if PathParts.isDots parts.last || parts.isSlashed then .error .isFolder
    else if nameLimit < parts.last.utf8ByteSize then .error .nameTooLong
    else if isHere then
      .ok ⟨(parts.last, text) :: folder.files.filter fun file => file.1 != parts.last⟩
    else .ok folder

/-- Going through folders depends on the files only when it fails. -/
theorem enter_eq_of_ok {folder : Folder} (other : Folder) {isHere end_ : Bool}
    {parts : List String} (h : folder.enter isHere parts = .ok end_) :
    other.enter isHere parts = .ok end_ := by
  induction parts generalizing isHere with
  | nil => exact h
  | cons part rest ih =>
    unfold enter at h ⊢
    split at h
    · next hdots => rw [if_pos hdots]; exact ih h
    · split at h <;> simp at h

/-- A path that leads somewhere leads there in every folder: a folder without folders in it has no
say in the matter. -/
theorem locate_eq_of_ok {folder : Folder} (other : Folder) {path : String}
    {found : Bool × PathParts} (h : folder.locate path = .ok found) :
    other.locate path = .ok found := by
  unfold locate at h ⊢
  split at h
  · simp at h
  · next hempty =>
    rw [if_neg hempty]
    split at h
    · simp at h
    · next hlong =>
      rw [if_neg hlong]
      simp only at h ⊢
      cases he : folder.enter (PathParts.ofPath path).isRelative
        (PathParts.ofPath path).folders with
      | error e =>
        rw [he] at h
        simp [Except.map] at h
      | ok isHere =>
        rw [he] at h
        rw [enter_eq_of_ok other he]
        exact h

/-- A file that was written in the folder at hand reads back as it was written. -/
theorem read_of_write {folder after : Folder} {path text : String} {parts : PathParts}
    (hpath : folder.locate path = .ok (true, parts))
    (h : folder.write path text = .ok after) : after.read path = .ok text := by
  unfold write at h
  rw [hpath] at h
  simp only at h
  split at h
  · simp at h
  · next hfile =>
    split at h
    · simp at h
    · next hshort =>
      simp only [if_true, Except.ok.injEq] at h
      subst h
      have hparts : PathParts.isDots parts.last = false ∧ parts.isSlashed = false := by
        simpa using hfile
      unfold read
      rw [locate_eq_of_ok _ hpath]
      simp [hparts.1, hparts.2, hshort, find?]

end Folder

end TernaryMachine
