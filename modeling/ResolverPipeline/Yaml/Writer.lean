import ResolverPipeline.Tree
import ResolverPipeline.Yaml.Scalar

/-!
YAML texts in block style.  A text is written plainly where it reads back as itself, and otherwise in the
simplest style that can hold it.
-/

namespace ResolverPipeline.Yaml

inductive Layout
  | plain
  | singleQuoted
  | doubleQuoted
  | literal
  deriving DecidableEq

namespace Layout

def isPrintable (c : Char) : Bool :=
  let n := c.toNat
  c == '\n' || (0x20 ≤ n && n ≤ 0x7E) || (0xA0 ≤ n && n ≤ 0xD7FF) ||
    (0xE000 ≤ n && n ≤ 0xFFFD && n ≠ 0xFEFF) || 0x10000 ≤ n

def opensWithIndicator : List Char → Bool
  | [] => false
  | c :: rest =>
    "#,[]{}&*!|>'\"%@`".toList.contains c || (c == '?' || c == ':' || c == '-') && endsWord rest

def hasIndicator : (before : Char) → List Char → Bool
  | _, [] => false
  | before, c :: rest =>
    c == ':' && endsWord rest || c == '#' && (isBlank before || isBreak before) || hasIndicator c rest

def startsLikeMarker : List Char → Bool
  | '-' :: '-' :: '-' :: _ | '.' :: '.' :: '.' :: _ => true
  | _ => false

def isIndicative (cs : List Char) : Bool :=
  startsLikeMarker cs || opensWithIndicator cs || cs.head?.any fun c => hasIndicator c cs.tail

def hasPair (f g : Char → Bool) : List Char → Bool
  | c :: d :: rest => f c && g d || hasPair f g (d :: rest)
  | _ => false

def isSpace (c : Char) : Bool := c == ' '

/-- Blanks at the end of a line, and characters to escape, fit only between double quotes. -/
def needsEscapes (cs : List Char) : Bool := cs.any (!isPrintable ·) || hasPair isSpace isBreak cs

def allowsSingleQuotes (cs : List Char) : Bool := !needsEscapes cs && !hasPair isBreak isSpace cs

def allowsLiteral (cs : List Char) : Bool := !needsEscapes cs && !cs.getLast?.any isSpace

def allowsPlain (cs : List Char) : Bool :=
  allowsSingleQuotes cs && !cs.head?.any isSpace && !cs.getLast?.any isSpace && !cs.any isBreak &&
    !isIndicative cs

def readsAsText (s : String) : Bool :=
  match Scalar.plain s with
  | .string _ => !Scalar.isZeroFilled s.toList
  | _ => false

def of (s : String) : Layout :=
  let cs := s.toList
  if '\n' ∈ cs then (if allowsLiteral cs then .literal else .doubleQuoted)
  else if readsAsText s && allowsPlain cs then .plain
  else if allowsSingleQuotes cs then .singleQuoted
  else .doubleQuoted

end Layout

def blanks (n : Nat) : List Char := List.replicate n ' '

def indentLines (indent : Nat) : (start : Bool) → List Char → List Char
  | _, [] => []
  | start, c :: cs =>
    if isBreak c then c :: indentLines indent true cs
    else (if start then blanks indent else []) ++ c :: indentLines indent false cs

def endsWithBreak (cs : List Char) : Bool := cs.getLast?.any isBreak

def singleQuoted (indent : Nat) (cs : List Char) : List Char :=
  let doubled := cs.flatMap fun c => if c == '\'' then ['\'', '\''] else [c]
  '\'' :: indentLines indent false doubled ++
    (if endsWithBreak cs then blanks indent else []) ++ ['\'']

def escapeLetter? : Char → Option Char
  | '\x00' => some '0'
  | '\x07' => some 'a'
  | '\x08' => some 'b'
  | '\t' => some 't'
  | '\n' => some 'n'
  | '\x0b' => some 'v'
  | '\x0c' => some 'f'
  | '\r' => some 'r'
  | '\x1b' => some 'e'
  | '"' => some '"'
  | '\\' => some '\\'
  | '\u0085' => some 'N'
  | '\u2028' => some 'L'
  | '\u2029' => some 'P'
  | _ => none

def escapeDigits (n : Nat) : List Char :=
  let (mark, width) := if n ≤ 0xFF then ('x', 2) else if n ≤ 0xFFFF then ('u', 4) else ('U', 8)
  mark :: (Text.hexPadded width n).toList.map Char.toUpper

def escaped (c : Char) : List Char :=
  match escapeLetter? c with
  | some letter => ['\\', letter]
  | none => if Layout.isPrintable c then [c] else '\\' :: escapeDigits c.toNat

/-- What a literal says about its own text: that it starts with a blank line or a blank, and how it ends. -/
def literalHints (cs : List Char) : List Char :=
  (if cs.head?.any fun c => Layout.isSpace c || isBreak c then ['2'] else []) ++
    match cs.reverse with
    | c :: d :: _ => if isBreak c then (if isBreak d then ['+'] else []) else ['-']
    | [c] => if isBreak c then ['+'] else ['-']
    | [] => ['-']

def writeScalar (indent : Nat) (s : String) : List Char :=
  let cs := s.toList
  match Layout.of s with
  | .plain => cs
  | .singleQuoted => singleQuoted indent cs
  | .doubleQuoted => '"' :: cs.flatMap escaped ++ ['"']
  | .literal => '|' :: literalHints cs ++ '\n' :: indentLines indent true cs

def maxSimpleKey : Nat := 128

def isSimpleKey (s : String) : Bool := !s.toList.any isBreak && s.utf8ByteSize ≤ maxSimpleKey

def newLine (indent : Nat) (before : List Char) : List Char :=
  (if endsWithBreak before then [] else ['\n']) ++ blanks indent

def joinLines (indent : Nat) : List (List Char) → List Char
  | [] => []
  | [e] => e
  | e :: rest => e ++ newLine indent e ++ joinLines indent rest

mutual

def inlined (indent : Nat) : Tree → List Char
  | .text s => ' ' :: writeScalar (indent + 2) s
  | .list [] => " []".toList
  | .record [] => " \x7b\x7d".toList
  | .list items => ' ' :: joinLines (indent + 2) (writtenItems (indent + 2) items)
  | .record members => ' ' :: joinLines (indent + 2) (writtenMembers (indent + 2) members)

/-- A tree behind its key.  Collections start on a new line; lists keep to the column of the key. -/
def valued (indent : Nat) : Tree → List Char
  | .text s => ' ' :: writeScalar (indent + 2) s
  | .list [] => " []".toList
  | .record [] => " \x7b\x7d".toList
  | .list items => '\n' :: blanks indent ++ joinLines indent (writtenItems indent items)
  | .record members =>
    '\n' :: blanks (indent + 2) ++ joinLines (indent + 2) (writtenMembers (indent + 2) members)

def writtenItems (indent : Nat) : List Tree → List (List Char)
  | [] => []
  | t :: rest => ('-' :: inlined indent t) :: writtenItems indent rest

def writtenMembers (indent : Nat) : List (String × Tree) → List (List Char)
  | [] => []
  | (name, t) :: rest =>
    let key := writeScalar (indent + 2) name
    (if isSimpleKey name then key ++ ':' :: valued indent t
      else "? ".toList ++ key ++ newLine indent key ++ ':' :: inlined indent t) ::
      writtenMembers indent rest

end

def written (t : Tree) : String :=
  let cs := match t with
    | .text s => writeScalar 2 s
    | .list [] => "[]".toList
    | .record [] => "\x7b\x7d".toList
    | .list items => joinLines 0 (writtenItems 0 items)
    | .record members => joinLines 0 (writtenMembers 0 members)
  String.ofList (cs ++ newLine 0 cs)

end ResolverPipeline.Yaml
