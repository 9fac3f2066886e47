/-!
# File names

The name of a file is the last part of its path.  Its extension is what stands behind the last
dot of the name, unless that dot is the first character: such a name has no extension.
-/

set_option autoImplicit false

namespace TernaryMachine.FileName

/-- A path without the slashes, and the dots on their own, at its end; reversed. -/
def trimmedReverse : List Char → List Char
  | '/' :: rest => trimmedReverse rest
  | '.' :: '/' :: rest => trimmedReverse ('/' :: rest)
  | path => path

/-- A path cut before its last part, with the folders reversed. -/
def parts (path : String) : List Char × List Char :=
  let reversed := trimmedReverse path.toList.reverse
  let name := (reversed.takeWhile (· != '/')).reverse
  (reversed.drop name.length, name)

/-- A name cut at the dot in front of its extension. -/
def divide (name : List Char) : List Char × Option (List Char) :=
  let extension := (name.reverse.takeWhile (· != '.')).reverse
  let stem := name.take (name.length - extension.length - 1)
  if stem.isEmpty then (name, none) else (stem, some extension)

/-- Whether a last part of a path is the name of a file. -/
def isName (name : List Char) : Bool := !name.isEmpty && name != ['.'] && name != ['.', '.']

/-- The extension of the file at a path. -/
def extension? (path : String) : Option String :=
  let name := (parts path).2
  if isName name then (divide name).2.map String.ofList else none

/-- A path without as many characters at its end as its extension has; the dot stays.  The slashes
behind a name count as well, which makes no difference to the part in front of the dot. -/
def withoutExtension (path : String) : String :=
  match extension? path with
  | none => path
  | some extension => String.ofList (path.toList.take (path.length - extension.length))

/-- A path with another extension; a path that names no file, or none any more without its
extension, gets none. -/
def withExtension (path extension : String) : String :=
  let kept := withoutExtension path
  let (folders, name) := parts kept
  if isName name then
    String.ofList (folders.reverse ++ (divide name).1) ++ "." ++ extension
  else kept

end TernaryMachine.FileName
