import ResolverPipeline.Text.Quoted
import ResolverPipeline.Tree

namespace ResolverPipeline.Json

def escapedChar (c : Char) : String :=
  match c with
  | '"' => "\\\""
  | '\\' => "\\\\"
  | '\x08' => "\\b"
  | '\x0c' => "\\f"
  | '\n' => "\\n"
  | '\r' => "\\r"
  | '\t' => "\\t"
  | c => if c.toNat < 0x20 then "\\u" ++ Text.hexPadded 4 c.toNat else String.singleton c

def string (s : String) : String := "\"" ++ String.join (s.toList.map escapedChar) ++ "\""

mutual

def compact : Tree → String
  | .text s => string s
  | .list items => "[" ++ ",".intercalate (compactItems items) ++ "]"
  | .record members => "\x7b" ++ ",".intercalate (compactMembers members) ++ "\x7d"

def compactItems : List Tree → List String
  | [] => []
  | t :: rest => compact t :: compactItems rest

def compactMembers : List (String × Tree) → List String
  | [] => []
  | (name, t) :: rest => (string name ++ ":" ++ compact t) :: compactMembers rest

end

def block (opening closing : String) (indent : Nat) (items : List String) : String :=
  if items.isEmpty then opening ++ closing
  else
    let inner := "\n" ++ String.ofList (List.replicate (indent + 2) ' ')
    opening ++ inner ++ ("," ++ inner).intercalate items ++
      "\n" ++ String.ofList (List.replicate indent ' ') ++ closing

mutual

def indented (indent : Nat) : Tree → String
  | .text s => string s
  | .list items => block "[" "]" indent (indentedItems (indent + 2) items)
  | .record members => block "\x7b" "\x7d" indent (indentedMembers (indent + 2) members)

def indentedItems (indent : Nat) : List Tree → List String
  | [] => []
  | t :: rest => indented indent t :: indentedItems indent rest

def indentedMembers (indent : Nat) : List (String × Tree) → List String
  | [] => []
  | (name, t) :: rest => (string name ++ ": " ++ indented indent t) :: indentedMembers indent rest

end

end ResolverPipeline.Json
