import ResolverPipeline.Step

namespace ResolverPipeline.Cli

inductive OutputFormat
  | json
  | yaml
  deriving DecidableEq

structure Target where
  definition : String
  handles : Handles
  deriving DecidableEq

inductive Command
  | greet
  | compile (target : Target) (format : OutputFormat) (output : Option String)
  | check (target : Target)
  deriving DecidableEq

inductive Name
  | root
  | compile
  | check
  deriving DecidableEq

inductive Request
  | run (verbosity : Nat) (command : Command)
  | help (name : Name)
  | version
  | invalid
  deriving DecidableEq

inductive Flag
  | verbose
  | help
  | version
  | format
  | output
  | schemaHandle
  | storeHandle
  | busHandle
  deriving DecidableEq

namespace Flag

def long : Flag → String
  | .verbose => "verbose"
  | .help => "help"
  | .version => "version"
  | .format => "format"
  | .output => "output"
  | .schemaHandle => "schema-handle"
  | .storeHandle => "store-handle"
  | .busHandle => "bus-handle"

def short? : Flag → Option Char
  | .verbose => some 'v'
  | .help => some 'h'
  | .version => some 'V'
  | .output => some 'o'
  | _ => none

def takesValue : Flag → Bool
  | .verbose | .help | .version => false
  | _ => true

def accepts (value : String) : Flag → Bool
  | .format => value == "json" || value == "yaml"
  | .output => !value.isEmpty
  | _ => true

end Flag

namespace Name

def flags : Name → List Flag
  | .root => [.verbose, .help, .version]
  | .compile =>
    [.format, .verbose, .output, .schemaHandle, .storeHandle, .busHandle, .help]
  | .check => [.verbose, .schemaHandle, .storeHandle, .busHandle, .help]

def ofArgument? : String → Option Name
  | "compile" => some .compile
  | "check" => some .check
  | _ => none

def longFlag? (n : Name) (name : String) : Option Flag := n.flags.find? (·.long == name)

def shortFlag? (n : Name) (c : Char) : Option Flag := n.flags.find? (·.short? == some c)

end Name

structure Given where
  verbosity : Nat := 0
  values : List (Flag × String) := []
  definition : Option String := none

def looksLikeFlag (argument : String) : Bool :=
  match argument.toList with
  | '-' :: _ :: _ => true
  | _ => false

namespace Given

def value (g : Given) (f : Flag) (value : String) : Except Request Given :=
  if (g.values.lookup f).isSome || !f.accepts value then .error .invalid
  else .ok { g with values := (f, value) :: g.values }

def flag (name : Name) (g : Given) : Flag → Except Request Given
  | .verbose => .ok { g with verbosity := g.verbosity + 1 }
  | .help => .error (.help name)
  | .version => .error .version
  | _ => .error .invalid

def argument (g : Given) (a : String) : Except Request Given :=
  if g.definition.isSome || a.isEmpty then .error .invalid else .ok { g with definition := some a }

end Given

inductive Argument
  | escape
  | long (name : String) (value : Option String)
  | short (letters : List Char)
  | positional

def Argument.of (a : String) : Argument :=
  match a.toList with
  | ['-', '-'] => .escape
  | '-' :: '-' :: cs =>
    .long (String.ofList (cs.takeWhile (· != '=')))
      (match cs.dropWhile (· != '=') with
        | _ :: value => some (String.ofList value)
        | [] => none)
  | '-' :: c :: cs => .short (c :: cs)
  | _ => .positional

/-- Takes a flag, whose value is attached to it or else is the next argument; gives the arguments left. -/
def takeFlag (name : Name) (g : Given) (f : Flag) (attached : Option String) (rest : List String) :
    Except Request (Given × List String) := do
  if f.takesValue then
    match attached, rest with
    | some v, rest => return (← g.value f v, rest)
    | none, v :: rest => if looksLikeFlag v then throw .invalid else return (← g.value f v, rest)
    | none, [] => throw .invalid
  else if attached.isSome then throw .invalid
  else return (← Given.flag name g f, rest)

def takeShort (name : Name) (g : Given) (rest : List String) :
    List Char → Except Request (Given × List String)
  | [] => .ok (g, rest)
  | c :: cs => do
    match name.shortFlag? c with
    | none => throw .invalid
    | some f =>
      if f.takesValue then
        let attached := match cs with
          | [] => none
          | '=' :: value => some value
          | value => some value
        takeFlag name g f (attached.map String.ofList) rest
      else
        let (g, rest) ← takeFlag name g f none rest
        takeShort name g rest cs

def takeLong (name : Name) (g : Given) (flag : String) (value : Option String) (rest : List String) :
    Except Request (Given × List String) :=
  match name.longFlag? flag with
  | none => throw .invalid
  | some f => takeFlag name g f value rest

/-- Takes all arguments of a command.  Every step uses up one of them at least. -/
def takeAll (name : Name) : Nat → Given → List String → Except Request Given
  | 0, g, _ | _, g, [] => .ok g
  | fuel + 1, g, a :: rest => do
    match Argument.of a with
    | .escape => rest.foldlM Given.argument g
    | .long flag value =>
      let (g, rest) ← takeLong name g flag value rest
      takeAll name fuel g rest
    | .short letters =>
      let (g, rest) ← takeShort name g rest letters
      takeAll name fuel g rest
    | .positional => takeAll name fuel (← g.argument a) rest

namespace Given

def handles (g : Given) : Handles :=
  let standard : Handles := {}
  { schema := (g.values.lookup .schemaHandle).getD standard.schema
    store := (g.values.lookup .storeHandle).getD standard.store
    bus := (g.values.lookup .busHandle).getD standard.bus }

def format (g : Given) : OutputFormat :=
  if g.values.lookup .format = some "yaml" then .yaml else .json

def command (g : Given) (name : Name) : Except Request Command :=
  match name, g.definition with
  | .root, none => .ok .greet
  | .compile, some path => .ok (.compile ⟨path, g.handles⟩ g.format (g.values.lookup .output))
  | .check, some path => .ok (.check ⟨path, g.handles⟩)
  | _, _ => .error .invalid

end Given

def readCommand (name : Name) (verbosity : Nat) (arguments : List String) : Except Request Request := do
  let g ← takeAll name arguments.length { verbosity } arguments
  return .run g.verbosity (← g.command name)

def readTopic : List String → Request
  | [] | ["help"] => .help .root
  | [a] => (Name.ofArgument? a).elim .invalid .help
  | _ => .invalid

def readRoot : Nat → Given → List String → Except Request Request
  | 0, g, _ | _, g, [] => do return .run g.verbosity (← g.command .root)
  | fuel + 1, g, a :: rest => do
    match Argument.of a with
    | .escape =>
      if rest.isEmpty then return .run g.verbosity (← g.command .root) else throw .invalid
    | .long flag value =>
      let (g, rest) ← takeLong .root g flag value rest
      readRoot fuel g rest
    | .short letters =>
      let (g, rest) ← takeShort .root g rest letters
      readRoot fuel g rest
    | .positional =>
      match Name.ofArgument? a with
      | some name => readCommand name g.verbosity rest
      | none => if a = "help" then return readTopic rest else throw .invalid

def Request.ofArguments (arguments : List String) : Request :=
  match readRoot arguments.length {} arguments with
  | .ok r | .error r => r

end ResolverPipeline.Cli
