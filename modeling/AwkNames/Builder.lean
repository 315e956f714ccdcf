import AwkNames.Resolver
import AwkNames.Syntax.Ast
import AwkNames.Syntax.Program

/-!
# Building a program

A `Builder` holds the node arena, the program assembled so far and the resolver's records.
Every operation here makes nodes and records them in the order a parser meets them.

* `Builder.varRef` and `Builder.arrayRef` make a node for a scalar or an array use and
  record it; the name's symbol takes that kind unless its kind is already known;
* `Builder.call` makes a call node after its arguments, and makes each argument that is the
  first scalar use of its name wait for the kind of the matching parameter;
* `Builder.openFunction`, `closeFunction` and `register` bracket a function body.
-/

namespace AwkNames

/-- A program under construction with the resolver's records. -/
structure Builder where
  /-- The node arena. -/
  ast : Ast := {}
  /-- The program assembled so far. -/
  program : Program := {}
  /-- The resolver's records. -/
  resolver : Resolver
deriving Inhabited

namespace Builder

/-- Appends a node. -/
def alloc (b : Builder) (e : Expr) : NodeId × Builder :=
  (b.ast.nextId, { b with ast := b.ast.push e })

/-- Records a scalar use of a name and returns its node. The name's symbol becomes a scalar
first used here, unless its kind is already known. -/
def varRef (b : Builder) (name : String) : NodeId × Builder :=
  let scope := b.resolver.scopeOf name
  let id := b.ast.nextId
  let r := b.resolver
  let symbols :=
    if r.symbols.kind scope.owner name = .unknown then
      r.symbols.insert scope.owner name { kind := .scalar, firstUse := some id, scope }
    else r.symbols
  (id, { b with
    ast := b.ast.push (.var { name, scope })
    resolver := { r with symbols, scalarRefs := r.scalarRefs ++ [⟨scope.owner, id⟩] } })

/-- Records an array use of a name and returns its node. The name's symbol becomes an array,
unless its kind is already known. -/
def arrayRef (b : Builder) (name : String) : NodeId × Builder :=
  let scope := b.resolver.scopeOf name
  let id := b.ast.nextId
  let r := b.resolver
  let symbols :=
    if r.symbols.kind scope.owner name = .unknown then
      r.symbols.insert scope.owner name { kind := .array, scope }
    else r.symbols
  (id, { b with
    ast := b.ast.push (.array { name, scope })
    resolver := { r with symbols, arrayRefs := r.arrayRefs ++ [⟨scope.owner, id⟩] } })

/-- A scalar argument passed to a function says nothing about its own kind: when the node is
the first scalar use of its name, the name's kind becomes unknown and waits for the kind of
parameter `i` of `callee`. Any other node changes nothing. -/
def deferArg (b : Builder) (callee : String) (arg : NodeId) (i : Nat) : Builder :=
  match b.ast.get? arg with
  | some (.var u) =>
    match b.resolver.symbols.get? u.scope.owner u.name with
    | some s =>
      if s.firstUse = some arg then
        { b with resolver := { b.resolver with
          symbols := b.resolver.symbols.insert u.scope.owner u.name
            { s with kind := .unknown, waitsOn := some ⟨callee, i⟩ } } }
      else b
    | none => b
  | _ => b

/-- `deferArg` for the arguments of a call, numbered from `i`. -/
def deferArgs (b : Builder) (callee : String) : Nat → List NodeId → Builder
  | _, [] => b
  | i, a :: rest => (b.deferArg callee a i).deferArgs callee (i + 1) rest

/-- Records the call at a node; a node that is not a call changes nothing. -/
def recordCall (b : Builder) (node : NodeId) (pos : Position) : Builder :=
  match b.ast.get? node with
  | some (.call c) =>
    { b with resolver := { b.resolver with
      calls := b.resolver.calls ++ [⟨c.callee, c.args.length, pos, node⟩] } }
  | _ => b

/-- A call of a user function, which may be declared later. -/
def call (b : Builder) (callee : String) (args : List NodeId) (pos : Position) :
    NodeId × Builder :=
  let (id, b) := (b.deferArgs callee 0 args).alloc (.call { callee, args })
  (id, b.recordCall id pos)

/-- Opens the body of a function: its table is emptied and its parameters shadow every other
name until `closeFunction`. -/
def openFunction (b : Builder) (name : String) (params : List String) : Builder :=
  { b with resolver := { b.resolver with
    symbols := b.resolver.symbols.addFunction name, frame := some ⟨name, params⟩ } }

/-- Closes the open function body. -/
def closeFunction (b : Builder) : Builder :=
  { b with resolver := { b.resolver with frame := none } }

/-- Gives a function name an ordinal. -/
def addFunction (b : Builder) (name : String) (ordinal : Nat) : Builder :=
  { b with resolver := { b.resolver with functions := b.resolver.functions.insert name ordinal } }

/-- Appends a function with no array parameters to the program. -/
def pushFunction (b : Builder) (name : String) (params : List String) (body : List Stmt) :
    Builder :=
  { b with program := { b.program with
    functions := b.program.functions ++ [⟨name, params, params.map fun _ => false, body⟩] } }

/-- Registers a finished function: appends it to the program and gives its name the next
ordinal. -/
def register (b : Builder) (name : String) (params : List String) (body : List Stmt) :
    Builder :=
  (b.pushFunction name params body).addFunction name b.program.functions.length

/-- A fresh builder; `ARGV` is always present, as the first node, an array. -/
def new (config : Config) : Builder :=
  (({ resolver := { config } } : Builder).arrayRef "ARGV").2

theorem alloc_fst (b : Builder) (e : Expr) : (b.alloc e).1 = b.ast.nextId := rfl

theorem varRef_fst (b : Builder) (name : String) : (b.varRef name).1 = b.ast.nextId := rfl

theorem arrayRef_fst (b : Builder) (name : String) : (b.arrayRef name).1 = b.ast.nextId := rfl

end Builder

end AwkNames
