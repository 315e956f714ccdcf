import AwkNames.Resolution.Calls
import AwkNames.Resolution.Kinds
import AwkNames.Resolution.Slots

/-!
# Resolution

`Builder.resolveIn` runs the phases in order: check the calls, infer kinds, bind call nodes to
their callees' ordinals, give globals and parameters their slots, and write slots into every
recorded use. A failing check leaves everything as it was; a divergence keeps the kinds set
so far but writes nothing into the tree or the program. `Builder.resolve` visits names in
table order.
-/

namespace AwkNames

namespace Builder

/-- Resolves every name and call of the program, visiting names in the order `v` gives. -/
def resolveIn (v : VisitOrder) (b : Builder) : Except Error Unit × Builder :=
  match b.resolveCalls with
  | (.error e, b) => (.error e, b)
  | (.ok (), b) =>
    match b.inferKindsIn v with
    | (.error e, b) => (.error e, b)
    | (.ok (), b) =>
      let b := b.bindCalls
      (.ok (), (b.assignGlobalSlotsIn (v.globals b.resolver.symbols)).assignLocalSlots.patch)

/-- Resolves every name and call of the program, in table order. -/
def resolve (b : Builder) : Except Error Unit × Builder := b.resolveIn .sorted

end Builder

end AwkNames
