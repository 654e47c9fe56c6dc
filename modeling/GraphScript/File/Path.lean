/-!
# File.Path — names of files

- A path is a text of names with slashes between them. Repeated slashes, slashes at the end and
  `.` in places other than the first say nothing.
- `fileName?`, `extension?` and `stem?` look at the last name, `parent?` at what is before it.
-/

namespace GraphScript.Path

/-- The names of a path, the empty ones and those that say nothing left out. -/
def names (path : String) : List String :=
  let parts := ((path.toList.splitOn '/').map String.ofList).filter (· ≠ "")
  match parts with
  | "." :: rest => (if path.startsWith "/" then [] else ["."]) ++ rest.filter (· ≠ ".")
  | parts => parts.filter (· ≠ ".")

def isAbsolute (path : String) : Bool := path.startsWith "/"

/-- The last name, where it names something. -/
def fileName? (path : String) : Option String :=
  match (names path).getLast? with
  | some "." => none
  | some ".." => none
  | name => name

/-- Split a name at its last dot. A dot in front does not count. -/
def splitDot (name : String) : String × Option String :=
  let cs := name.toList.reverse
  let after := cs.takeWhile (· ≠ '.')
  match cs.dropWhile (· ≠ '.') with
  | [] => (name, none)
  | _ :: before =>
    if before.isEmpty then (name, none)
    else (String.ofList before.reverse, some (String.ofList after.reverse))

def extension? (path : String) : Option String := (fileName? path).bind fun n => (splitDot n).2

def stem? (path : String) : Option String := (fileName? path).map fun n => (splitDot n).1

/-- Drop what says nothing from the end of a reversed path. -/
def trimEnd : List Char → List Char
  | '/' :: rest => if rest.isEmpty then ['/'] else trimEnd rest
  | '.' :: '/' :: rest => if rest.isEmpty then ['/'] else trimEnd rest
  | cs => cs

def parent? (path : String) : Option String :=
  match trimEnd path.toList.reverse with
  | [] => none
  | ['/'] => none
  | cs =>
    match cs.dropWhile (· ≠ '/') with
    | [] => some ""
    | rest => some (String.ofList (trimEnd rest).reverse)

/-- A path seen from a directory. -/
def join (dir path : String) : String :=
  if isAbsolute path then path
  else if dir.isEmpty ∨ dir.endsWith "/" then dir ++ path
  else dir ++ "/" ++ path

end GraphScript.Path
