namespace ResolverPipeline

inductive Format
  | json
  | yaml
  deriving DecidableEq

def Format.label : Format → String
  | .json => "Json"
  | .yaml => "Yaml"

namespace Path

/-- The parts of a path between slashes, without empty ones and single dots.  A leading dot counts as a
part of its own only where nothing else is left. -/
def components (path : List Char) : List (List Char) :=
  (path.splitOn '/').filter fun c => c != [] && c != ['.']

def extensionOf (name : List Char) : Option (List Char) :=
  if name = ['.', '.'] then none
  else
    let suffix := name.reverse.takeWhile (· != '.')
    if suffix.length + 1 < name.length then some suffix.reverse else none

def extension (path : String) : Option String :=
  ((components path.toList).getLast?.bind extensionOf).map String.ofList

end Path

def Format.ofPath? (path : String) : Option Format :=
  match (Path.extension path).map fun e => e.map Char.toLower with
  | some "json" => some .json
  | some "yaml" | some "yml" => some .yaml
  | _ => none

end ResolverPipeline
