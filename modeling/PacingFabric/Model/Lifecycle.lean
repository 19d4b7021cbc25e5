import PacingFabric.Model.System

/-!
# The life of a coordinator object

`shutdown` closes an object and leaves it constructed, so `initialize` may open it again, over
the tables it was left with. Here `initialize` is a call of the interface that may run beside
any other, a `shutdown` that has not returned included. Replacing the process constructs an
object over the same files, which nobody has initialized yet.
-/

namespace Pacing

open Interleaving

/-- The public interface of an object that is initialized by its callers. -/
inductive ObjectRequest
  | initializeFabric
  | call (request : Request)

/-- A call in flight. `initialize` samples the clock, then takes its one locked section. -/
inductive ObjectCall
  | sample
  | initializeLocked
  | call (call : Call)

namespace ObjectCall

def begin : ObjectRequest → ObjectCall
  | .initializeFabric => .sample
  | .call request => .call (Call.begin request)

def step (f : Fabric) (a : Answers) : ObjectCall → Fabric × Option ObjectCall
  | .sample => (f.sample a.now, some .initializeLocked)
  | .initializeLocked => ((f.initializeLocked a).2, none)
  | .call k => ((Call.step f a k).1, (Call.step f a k).2.map .call)

/-- The call of the coordinator, unless it is `initialize`. -/
def inner : ObjectCall → Option Call
  | .call k => some k
  | _ => none

end ObjectCall

/-- One coordinator object at a time, and its callers. -/
def coordinatorObject : Program Fabric ObjectCall ObjectRequest Answers where
  begin := ObjectCall.begin
  step := ObjectCall.step
  restarts f f' := ∃ config, f' = Fabric.construct config f.storage.disk

/-- A configuration of an object and its callers. -/
abbrev ObjectWorld := Config Fabric ObjectCall

/-- The world before the first object over an empty directory. -/
def ObjectWorld.initial : ObjectWorld := .idle (Fabric.construct {} {})

end Pacing
