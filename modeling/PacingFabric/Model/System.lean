import PacingFabric.Concurrency.Interleaving
import PacingFabric.Model.Call
import PacingFabric.Model.Recovery

/-!
# The coordinator as an interleaved program

Calls of the public interface interleave over the guarded state. A restart ends the
process at any point: a new coordinator object is initialized over the files the old one
left, with any configuration and any answers. Nobody initializes an object again here;
`coordinatorObject` has `initialize` among its calls.
-/

namespace Pacing

open Interleaving

/-- The coordinator and its callers. -/
def coordinator : Program Fabric Call Request Answers where
  begin := Call.begin
  step := Call.step
  restarts f f' := ∃ config a, f' = ((Fabric.construct config f.storage.disk).initializeFabric a).2

/-- A configuration of the coordinator. -/
abbrev World := Config Fabric Call

/-- The world before the first start over an empty directory. -/
def World.initial : World := .idle (Fabric.construct {} {})

/-- A world some run over any number of restarts leads to. -/
def World.Reachable (w : World) : Prop := ∃ n, Run coordinator anyStep World.initial n w

end Pacing
