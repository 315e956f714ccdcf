import AwkNames.Builder
import AwkNames.Error
import AwkNames.Resolution.Order

/-!
# Inferring kinds

A name whose first scalar use is an argument of a call is pending: its kind waits for the
kind of the parameter it was passed to. A pass visits the names of a worklist (the pending
names, in the order a `VisitOrder` gives) and gives each the kind of its parameter when that
kind is known; kinds set earlier in a pass are seen later in the same pass. Passes run until
one sets nothing. A pass that sets something after the configured number of passes is a
divergence, reported at no position; the kinds set so far stay.

* `Resolver.paramKind` is the current kind of the parameter a name waits on;
* `Resolver.passOver` is one pass over a worklist;
* `Resolver.inferIn` runs the passes; it ends because each pass that sets something makes
  the list of pending names shorter.
-/

namespace AwkNames

namespace Resolver

/-- The current kind of a parameter; unknown when the function, its ordinal or the parameter
is missing. -/
def paramKind (r : Resolver) (p : Program) (d : Deferral) : Kind :=
  match (r.functions.get? d.callee).bind (p.param? · d.arg) with
  | some param => r.symbols.kind (some d.callee) param
  | none => .unknown

/-- Gives one name the kind of the parameter it waits on, when that kind is known. -/
def settle (r : Resolver) (p : Program) (entry : Option String × String) : Resolver :=
  match r.symbols.get? entry.1 entry.2 with
  | some s =>
    match s.waitsOn with
    | some d =>
      let k := r.paramKind p d
      if k = .unknown then r
      else { r with symbols := r.symbols.insert entry.1 entry.2 { s with kind := k } }
    | none => r
  | none => r

/-- One pass over a worklist, in order. -/
def passOver (r : Resolver) (p : Program) (work : List (Option String × String)) : Resolver :=
  work.foldl (fun r e => r.settle p e) r

/-- The number of pending names. -/
def pendingCount (r : Resolver) : Nat := r.symbols.pending.length

/-- Runs passes, each over the worklist `v` gives for the table at its start, after `done`
passes have set something, until one sets nothing. -/
def inferIn (v : VisitOrder) (r : Resolver) (p : Program) (done : Nat) :
    Except Error Unit × Resolver :=
  let r' := r.passOver p (v.worklist r.symbols)
  if r'.pendingCount < r.pendingCount then
    if r.config.maxPasses < done + 1 then (.error ⟨.divergence r.config.maxPasses, .null⟩, r')
    else r'.inferIn v p (done + 1)
  else (.ok (), r')
termination_by r.pendingCount

end Resolver

namespace Builder

/-- Infers the kinds of the pending names, visiting them in the order `v` gives. -/
def inferKindsIn (v : VisitOrder) (b : Builder) : Except Error Unit × Builder :=
  let (out, r) := b.resolver.inferIn v b.program 0
  (out, { b with resolver := r })

/-- Infers the kinds of the pending names in table order. -/
def inferKinds (b : Builder) : Except Error Unit × Builder := b.inferKindsIn .sorted

end Builder

end AwkNames
