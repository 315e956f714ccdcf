import AwkNames.SymbolTable

/-!
# Visiting orders

Two phases of resolution visit names one at a time, and what they compute may depend on the
order: each kind-inference pass visits the pending names, and slot assignment visits the
globals. A `VisitOrder` fixes both orders. `VisitOrder.sorted` visits names in table order;
it is the order every operation of the builder uses.
-/

namespace AwkNames

/-- The orders in which resolution visits names. -/
structure VisitOrder where
  /-- The names an inference pass visits, given the table at the start of the pass: the
  pending names, each once, in some order. -/
  worklist : SymbolTable → List (Option String × String)
  /-- The global names, in the order they are given slots. -/
  globals : SymbolTable → List String

/-- Table order: a pass visits the pending names, and slots go to every global by name. -/
def VisitOrder.sorted : VisitOrder := ⟨SymbolTable.pending, fun t => t.globals.keys⟩

end AwkNames
