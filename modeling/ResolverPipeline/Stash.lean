/-!
The per-invocation stash, as far as a compile needs to know it: which named slots there are, and which
of them have been written at a point of a pipeline.
-/

namespace ResolverPipeline

inductive Slot
  | input
  | dbResult
  | eventResult
  deriving DecidableEq

namespace Slot

def all : List Slot := [.input, .dbResult, .eventResult]

def name : Slot → String
  | .input => "input"
  | .dbResult => "db_result"
  | .eventResult => "event_result"

def key : Slot → String
  | .input => "input"
  | .dbResult => "dbresult"
  | .eventResult => "eventresult"

def path (s : Slot) : String := "$ctx.stash." ++ s.key

end Slot

structure Stash where
  input : Bool
  dbResult : Bool
  eventResult : Bool
  deriving DecidableEq

namespace Stash

def seeded : Stash := ⟨true, false, false⟩

def has (s : Stash) : Slot → Bool
  | .input => s.input
  | .dbResult => s.dbResult
  | .eventResult => s.eventResult

def write (s : Stash) : Slot → Stash
  | .input => { s with input := true }
  | .dbResult => { s with dbResult := true }
  | .eventResult => { s with eventResult := true }

@[simp] theorem has_seeded (x : Slot) : seeded.has x = decide (x = .input) := by
  cases x <;> rfl

@[simp] theorem has_write (s : Stash) (x y : Slot) :
    (s.write x).has y = (decide (y = x) || s.has y) := by
  cases x <;> cases y <;> simp [write, has]

end Stash

end ResolverPipeline
