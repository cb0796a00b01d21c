import ResolverPipeline.Json.Token

namespace ResolverPipeline.Json

inductive Node
  | null
  | boolean (b : Bool)
  | number (value : Option Number)
  | string (value : Option String)
  | array (items : List Node) (closed : Bool)
  | object (members : List (Option String × Node)) (closed : Bool)
  | broken

namespace Node

mutual

def parse : Nat → List Token → Node × List Token
  | 0, _ | _, [] => (.broken, [])
  | fuel + 1, t :: ts =>
    match t, ts with
    | .null, ts => (.null, ts)
    | .boolean b, ts => (.boolean b, ts)
    | .number n, ts => (.number n, ts)
    | .string s, ts => (.string s, ts)
    | .openBracket, .closeBracket :: ts => (.array [] true, ts)
    | .openBracket, ts =>
      let (items, closed, ts) := parseItems fuel ts
      (.array items closed, ts)
    | .openBrace, .closeBrace :: ts => (.object [] true, ts)
    | .openBrace, ts =>
      let (members, closed, ts) := parseMembers fuel ts
      (.object members closed, ts)
    | _, _ => (.broken, [])

def parseItems : Nat → List Token → List Node × Bool × List Token
  | 0, _ => ([], false, [])
  | fuel + 1, ts =>
    match parse fuel ts with
    | (x, .comma :: ts) =>
      let (xs, closed, ts) := parseItems fuel ts
      (x :: xs, closed, ts)
    | (x, .closeBracket :: ts) => ([x], true, ts)
    | (x, _) => ([x], false, [])

def parseMembers : Nat → List Token → List (Option String × Node) × Bool × List Token
  | 0, _ => ([], false, [])
  | fuel + 1, ts =>
    match ts with
    | .string key :: .colon :: ts =>
      match parse fuel ts with
      | (x, .comma :: ts) =>
        let (xs, closed, ts) := parseMembers fuel ts
        ((key, x) :: xs, closed, ts)
      | (x, .closeBrace :: ts) => ([(key, x)], true, ts)
      | (x, _) => ([(key, x)], false, [])
    | .string key :: _ => ([(key, .broken)], false, [])
    | _ => ([], false, [])

end

end Node

structure Parsed where
  root : Node
  complete : Bool

def Parsed.ofText (text : String) : Parsed :=
  let ts := Token.scan text.toList
  let (root, rest) := Node.parse (2 * ts.length) ts
  ⟨root, rest.isEmpty⟩

end ResolverPipeline.Json
