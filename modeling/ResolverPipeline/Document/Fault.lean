import ResolverPipeline.Decimal.Notation
import ResolverPipeline.Text.Quoted

namespace ResolverPipeline.Document

inductive Found
  | null
  | nothing
  | boolean (b : Bool)
  | integer (n : Int)
  | wideInteger (n : Int)
  | float (x : Decimal.Binary64)
  | string (s : String)
  | sequence
  | map
  | tagged
  deriving DecidableEq

inductive Fault
  | wrongType (found : Found) (expected : String)
  | wrongValue (found : Found) (expected : String)
  | wrongLength (length : Nat) (expected : String)
  | unknownVariant (name : String) (known : List String)
  | missingField (name : String)
  | duplicateField (name : String)
  | taggedContent
  deriving DecidableEq

structure Wording where
  null : String
  float : Decimal.Binary64 → String

def Found.describe (w : Wording) : Found → String
  | .null => w.null
  | .nothing => "Option value"
  | .boolean b => "boolean `" ++ toString b ++ "`"
  | .integer n => "integer `" ++ toString n ++ "`"
  | .wideInteger n => "integer `" ++ toString n ++ "` as " ++ (if n < 0 then "i128" else "u128")
  | .float x => "floating point `" ++ w.float x ++ "`"
  | .string s => "string " ++ Text.quoted s
  | .sequence => "sequence"
  | .map => "map"
  | .tagged => "enum"

def choice (names : List String) : String :=
  match names.map fun n => "`" ++ n ++ "`" with
  | [a] => a
  | [a, b] => a ++ " or " ++ b
  | quoted => "one of " ++ ", ".intercalate quoted

def Fault.message (w : Wording) : Fault → String
  | .wrongType found expected => "invalid type: " ++ found.describe w ++ ", expected " ++ expected
  | .wrongValue found expected => "invalid value: " ++ found.describe w ++ ", expected " ++ expected
  | .wrongLength n expected => "invalid length " ++ toString n ++ ", expected " ++ expected
  | .unknownVariant name known => "unknown variant `" ++ name ++ "`, expected " ++ choice known
  | .missingField name => "missing field `" ++ name ++ "`"
  | .duplicateField name => "duplicate field `" ++ name ++ "`"
  | .taggedContent => "untagged and internally tagged enums do not support enum input"

inductive Path
  | root
  | index (parent : Path) (i : Nat)
  | key (parent : Path) (name : String)
  | unnamed (parent : Path)
  | alias (parent : Path)
  deriving DecidableEq

namespace Path

mutual

def render : Path → String
  | .root => "."
  | .index p i => p.render ++ "[" ++ toString i ++ "]"
  | .key p name => p.renderParent ++ name
  | .unnamed p => p.renderParent ++ "?"
  | .alias p => p.render

def renderParent : Path → String
  | .root => ""
  | .index p i => p.render ++ "[" ++ toString i ++ "]."
  | .key p name => p.renderParent ++ name ++ "."
  | .unnamed p => p.renderParent ++ "?."
  | .alias p => p.render ++ "."

end

end Path

inductive Problem
  | malformed
  | fault (path : Option Path) (fault : Fault)
  deriving DecidableEq

namespace Problem

def locate (path : Path) : Problem → Problem
  | .fault none f => .fault (some path) f
  | p => p

def message (w : Wording) : Problem → Option String
  | .malformed => none
  | .fault path f =>
    match path.map Path.render with
    | none | some "." => some (f.message w)
    | some p => some (p ++ ": " ++ f.message w)

end Problem

end ResolverPipeline.Document
