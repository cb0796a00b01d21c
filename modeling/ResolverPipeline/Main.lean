import ResolverPipeline.Cli.Run

namespace ResolverPipeline

def FileError.ofSystem : IO.Error → FileError
  | .noFileOrDirectory .. => .notFound
  | .inappropriateType _ code details =>
    if code = 20 then .notDirectory else if code = 21 then .isDirectory else .other details
  | e => .other (toString e)

def FileError.catching {α : Type} (action : IO α) : IO (Except FileError α) := do
  try
    return .ok (← action)
  catch e =>
    return .error (.ofSystem e)

instance : FileAccess IO where
  readText path := do
    let content ← FileError.catching (IO.FS.readBinFile path)
    return content.bind fun bytes => (String.fromUTF8? bytes).elim (.error .notText) .ok
  writeText path text := FileError.catching (IO.FS.writeFile path text)

end ResolverPipeline

open ResolverPipeline

def main (arguments : List String) : IO UInt32 := do
  let request := Cli.Request.ofArguments arguments
  let outcome : Cli.Outcome ← Cli.runRequest request
  for e in outcome.log do
    if request.shows e then IO.eprintln (Cli.eventLine e)
  IO.print outcome.stdout
  IO.eprint outcome.stderr
  return outcome.code
