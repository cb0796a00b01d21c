import ResolverPipeline.Yaml.Place

namespace ResolverPipeline.Yaml

inductive Style
  | plain
  | quoted
  deriving DecidableEq

inductive Token
  | version (major minor : Nat)
  | handle (name text : String)
  | documentStart
  | documentEnd
  | blockSequence
  | blockMapping
  | blockEnd
  | openBracket
  | closeBracket
  | openBrace
  | closeBrace
  | entry
  | comma
  | key
  | value
  | alias (name : String)
  | anchor (name : String)
  | tag (handle text : String)
  | scalar (style : Style) (text : String)
  | streamEnd
  deriving DecidableEq

def startsWith (c : Char) (cs : List Char) : Bool := cs.head? == some c

/-- The line breaks met between two words.  The first one is told apart, since alone it reads as a
blank. -/
structure Breaks where
  first : List Char := []
  more : List Char := []

def Breaks.fold (b : Breaks) : List Char :=
  if b.first.head? == some '\n' then (if b.more.isEmpty then [' '] else b.more)
  else b.first ++ b.more

end ResolverPipeline.Yaml
