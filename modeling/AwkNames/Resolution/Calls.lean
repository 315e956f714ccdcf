import AwkNames.Builder
import AwkNames.Error

/-!
# Checking calls

Once every function is declared, each recorded call is checked in the order it was written:
its callee must be declared, and must declare at least as many parameters as the call passes.
The first call that fails gives the error; when all pass, each call node is bound to the
ordinal of its callee.

* `Resolver.checkCall` checks one call;
* `Builder.resolveCalls` checks them all and stores the bindings;
* `Builder.bindCalls` writes the stored ordinals into the call nodes.
-/

namespace AwkNames

namespace Resolver

/-- Checks one call against the declared functions; its binding when it passes. -/
def checkCall (r : Resolver) (p : Program) (c : CallSite) : Except Error (NodeId × Nat) :=
  match r.functions.get? c.callee with
  | none => .error ⟨.undefinedFunction c.callee, c.position⟩
  | some k =>
    if p.arity k < c.argCount then
      .error ⟨.tooManyArguments c.callee (p.arity k) c.argCount, c.position⟩
    else .ok (c.node, k)

/-- Checks every call in order; the first failure wins. -/
def checkCalls (r : Resolver) (p : Program) : Except Error (List (NodeId × Nat)) :=
  r.calls.mapM (r.checkCall p)

end Resolver

namespace Builder

/-- Checks every call and stores the bindings; on failure nothing changes. -/
def resolveCalls (b : Builder) : Except Error Unit × Builder :=
  match b.resolver.checkCalls b.program with
  | .error e => (.error e, b)
  | .ok bs => (.ok (), { b with resolver := { b.resolver with bindings := bs } })

/-- Writes an ordinal into a call node; a node that is not a call is left alone. -/
def setOrdinal (b : Builder) (node : NodeId) (k : Nat) : Builder :=
  match b.ast.get? node with
  | some (.call c) => { b with ast := b.ast.set node (.call { c with ordinal := some k }) }
  | _ => b

/-- Writes every stored binding into its call node. -/
def bindCalls (b : Builder) : Builder :=
  b.resolver.bindings.foldl (fun b e => b.setOrdinal e.1 e.2) b

end Builder

end AwkNames
