import ResolverPipeline.Format
import ResolverPipeline.Json.Source
import ResolverPipeline.Yaml.Source

namespace ResolverPipeline

open Document

abbrev Document.Reader (α : Type) : Type 1 :=
  ∀ {ν : Type} {m : Type → Type} [Monad m] [MonadExceptOf Problem m] [Source ν m], ν → m α

namespace Format

def wording : Format → Wording
  | .json => Json.wording
  | .yaml => Yaml.wording

def read {α : Type} (f : Format) (value : Reader α) (text : String) : Except Problem α :=
  match f with
  | .json => Json.read value text
  | .yaml => Yaml.read value text

end Format

end ResolverPipeline
