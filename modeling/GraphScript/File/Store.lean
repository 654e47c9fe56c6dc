/-!
# File.Store — where files are read from

- A `Store m` reads the bytes behind a path, by whatever means `m` offers.
- A `FileTree` is a working directory held in memory; `FileTree.store` reads from it.
- `Store.readText` refuses what is no text.
-/

namespace GraphScript

inductive ReadError where
  | notFound
  | notDirectory
  | isDirectory
  /-- A name on the path, or the path itself, is too long. -/
  | tooLong
  /-- The path holds a character that no path may hold. -/
  | notPath
  /-- The bytes spell no text. -/
  | notText
  | other (message : String)
  deriving DecidableEq

def ReadError.message : ReadError → String
  | notFound => "No such file or directory (os error 2)"
  | notDirectory => "Not a directory (os error 20)"
  | isDirectory => "Is a directory (os error 21)"
  | tooLong => "File name too long (os error 36)"
  | notPath => "file name contained an unexpected NUL byte"
  | notText => "stream did not contain valid UTF-8"
  | other message => message

structure Store (m : Type → Type) where
  read : String → m (Except ReadError ByteArray)

def Store.readText {m : Type → Type} [Monad m] (s : Store m) (path : String) :
    m (Except ReadError String) := do
  match ← s.read path with
  | .error e => pure (.error e)
  | .ok bytes =>
    match String.fromUTF8? bytes with
    | some text => pure (.ok text)
    | none => pure (.error .notText)

/-! ## Directories in memory -/

/-- Files and directories by the names that lead to them. Directories that lead to an entry need no
entry of their own. -/
structure FileTree where
  files : List (List String × ByteArray) := []
  directories : List (List String) := []

namespace FileTree

def hasDirectory (t : FileTree) (names : List String) : Bool :=
  names.isEmpty || t.directories.any (names.isPrefixOf ·)
    || t.files.any fun (file, _) => names.isPrefixOf file && file.length ≠ names.length

def file? (t : FileTree) (names : List String) : Option ByteArray :=
  (t.files.find? (·.1 = names)).map Prod.snd

/-- The number of bytes that a name may have. -/
def maxName : Nat := 255

/-- The number of bytes that a path may have. -/
def maxPath : Nat := 4095

/-- Walk from a directory along further names. `mustBeDirectory`: the path ended in a slash. -/
def walk (t : FileTree) (mustBeDirectory : Bool) (here : List String) :
    List String → Except ReadError ByteArray
  | [] => .error .isDirectory
  | "." :: rest => walk t mustBeDirectory here rest
  | ".." :: rest =>
    if here.isEmpty then .error .notFound else walk t mustBeDirectory here.dropLast rest
  | name :: rest =>
    let there := here ++ [name]
    if maxName < name.utf8ByteSize then .error .tooLong
    else match t.file? there with
      | some bytes => if mustBeDirectory ∨ ¬ rest.isEmpty then .error .notDirectory else .ok bytes
      | none => if t.hasDirectory there then walk t mustBeDirectory there rest else .error .notFound

/-- Read from the working directory. Nothing is found outside of it. -/
def read (t : FileTree) (path : String) : Except ReadError ByteArray :=
  if path.contains '\x00' then .error .notPath
  else if maxPath < path.utf8ByteSize then .error .tooLong
  else if path.isEmpty ∨ path.startsWith "/" then .error .notFound
  else t.walk (path.endsWith "/") [] ((path.splitOn "/").filter (· ≠ ""))

def store (t : FileTree) : Store Id := ⟨t.read⟩

end FileTree

end GraphScript
