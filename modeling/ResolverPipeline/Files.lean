namespace ResolverPipeline

inductive FileError
  | notFound
  | notDirectory
  | isDirectory
  | nameTooLong
  | zeroInName
  | notText
  | other (message : String)
  deriving DecidableEq

def FileError.message : FileError → String
  | .notFound => "No such file or directory (os error 2)"
  | .notDirectory => "Not a directory (os error 20)"
  | .isDirectory => "Is a directory (os error 21)"
  | .nameTooLong => "File name too long (os error 36)"
  | .zeroInName => "file name contained an unexpected NUL byte"
  | .notText => "stream did not contain valid UTF-8"
  | .other message => message

class FileAccess (m : Type → Type) where
  readText (path : String) : m (Except FileError String)
  writeText (path text : String) : m (Except FileError Unit)

export FileAccess (readText writeText)

inductive FileEntry
  | file (content : ByteArray)
  | directory

/-- All files below the root.  A place is given by the names on the way to it. -/
structure FileTree where
  entries : List (List String × FileEntry)

namespace FileTree

/-- What stands at a place.  The directories on the way to an entry need no entries of their own. -/
def entry? (t : FileTree) (place : List String) : Option FileEntry :=
  match t.entries.lookup place with
  | some e => some e
  | none =>
    if place.isEmpty || t.entries.any (fun e => place.isPrefixOf e.1) then some .directory else none

def put (t : FileTree) (place : List String) (e : FileEntry) : FileTree :=
  ⟨(place, e) :: t.entries.filter (·.1 ≠ place)⟩

def maxName : Nat := 255

def maxPath : Nat := 4095

def names (path : String) : List String :=
  ((path.toList.splitOn '/').filter (· ≠ [])).map String.ofList

def enter (t : FileTree) (place : List String) (name : String) : Except FileError (List String) :=
  if maxName < name.utf8ByteSize then .error .nameTooLong
  else if name = "." then .ok place
  else if name = ".." then .ok place.dropLast
  else
    match t.entry? (place ++ [name]) with
    | none => .error .notFound
    | some (.file _) => .error .notDirectory
    | some .directory => .ok (place ++ [name])

def start (base : List String) (path : String) : List String :=
  if path.toList.head? = some '/' then [] else base

/-- The place that a path names, if it ends in a name of its own; none stands for a directory. -/
def locate (t : FileTree) (base : List String) (path : String) :
    Except FileError (Option (List String)) :=
  if '\x00' ∈ path.toList then .error .zeroInName
  else if maxPath < path.utf8ByteSize then .error .nameTooLong
  else
    match (names path).reverse with
    | [] => if path.isEmpty then .error .notFound else .ok none
    | last :: before => do
      -- A path that does not begin at the root goes on from the working directory, if that is there.
      let parent ← (start base path ++ before.reverse).foldlM t.enter []
      if last = "." || last = ".." then .ok none
      else if maxName < last.utf8ByteSize then .error .nameTooLong
      else .ok (some (parent ++ [last]))

def namesDirectory (path : String) : Bool := path.toList.getLast? == some '/'

def read (t : FileTree) (base : List String) (path : String) : Except FileError String := do
  match (← t.locate base path).map t.entry? with
  | none | some (some .directory) => .error .isDirectory
  | some none => .error .notFound
  | some (some (.file content)) =>
    if namesDirectory path then .error .notDirectory
    else
      match String.fromUTF8? content with
      | some text => .ok text
      | none => .error .notText

def write (t : FileTree) (base : List String) (path text : String) : Except FileError FileTree := do
  match ← t.locate base path with
  | none => .error .isDirectory
  | some place =>
    match t.entry? place with
    | some .directory => .error .isDirectory
    | none | some (.file _) =>
      if namesDirectory path then .error .isDirectory
      else .ok (t.put place (.file text.toUTF8))

@[reducible] def accessFrom (base : List String) : FileAccess (StateM FileTree) where
  readText path := return (← get).read base path
  writeText path text := do
    match (← get).write base path text with
    | .ok t =>
      set t
      return .ok ()
    | .error e => return .error e

end FileTree

instance : FileAccess (StateM FileTree) := FileTree.accessFrom []

end ResolverPipeline
