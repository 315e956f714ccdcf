import AwkNames.Build.Source
import AwkNames.Resolution.Resolve

/-!
# Building a program step by step

A `Step` is one thing a parser asks of the builder at the top level: declare a function, add
a `BEGIN` block, a pattern-action pair or an `END` block, make a free-standing expression,
ask a name's scope or whether a function is declared, or resolve. `Builder.step` performs one
and gives its `Answer`; a failed step leaves the builder as the failure left it, and later
steps go on from there. `Builder.stepIn` is the same with resolution visiting names in a
given order.
-/

namespace AwkNames

/-- One request to the builder. -/
inductive Step where
  /-- Declare a function. -/
  | declare (name : String) (params : List String) (pos : Position) (body : List StmtSource)
  /-- Add a `BEGIN` block. -/
  | begin (body : List StmtSource)
  /-- Add a pattern-action pair; the pattern is built before the body. -/
  | action (pattern : Option Source) (body : List StmtSource)
  /-- Add an `END` block. -/
  | final (body : List StmtSource)
  /-- Make an expression that belongs to no statement. -/
  | expr (e : Source)
  /-- The scope of a name at the top level. -/
  | scopeOf (name : String)
  /-- Whether a function is declared. -/
  | hasFunction (name : String)
  /-- Resolve the program. -/
  | resolve
deriving Repr, Inhabited

/-- What a step gives back. -/
inductive Answer where
  /-- A declaration or a block: success, or why it failed. -/
  | done (result : Except Error Unit)
  /-- The id of a new expression. -/
  | node (id : NodeId)
  /-- A scope. -/
  | scope (s : Scope)
  /-- Whether a function is declared. -/
  | found (b : Bool)
  /-- The outcome of resolution. -/
  | resolved (result : Except Error Unit)

namespace Builder

/-- Makes a block's statements and adds them with `add`, if they are made without failure. -/
def addBlock (b : Builder) (body : List StmtSource) (add : List Stmt → Program → Program) :
    Answer × Builder :=
  match StmtSource.runList body b with
  | (.error e, b) => (.done (.error e), b)
  | (.ok stmts, b) => (.done (.ok ()), { b with program := add stmts b.program })

/-- Performs one step, resolving in the order `v` gives. -/
def stepIn (v : VisitOrder) (b : Builder) : Step → Answer × Builder
  | .declare name params pos body =>
    match (StmtSource.declare name params pos body).run b with
    | (.error e, b) => (.done (.error e), b)
    | (.ok _, b) => (.done (.ok ()), b)
  | .begin body => b.addBlock body fun stmts p => { p with begins := p.begins ++ [stmts] }
  | .action none body =>
    b.addBlock body fun stmts p => { p with actions := p.actions ++ [⟨none, stmts⟩] }
  | .action (some e) body =>
    let (i, b) := e.build b
    b.addBlock body fun stmts p => { p with actions := p.actions ++ [⟨some i, stmts⟩] }
  | .final body => b.addBlock body fun stmts p => { p with ends := p.ends ++ [stmts] }
  | .expr e =>
    let (i, b) := e.build b
    (.node i, b)
  | .scopeOf name => (.scope (b.resolver.scopeOf name), b)
  | .hasFunction name => (.found (b.resolver.hasFunction name), b)
  | .resolve =>
    let (out, b) := b.resolveIn v
    (.resolved out, b)

@[simp]
theorem stepIn_scopeOf (v : VisitOrder) (b : Builder) (name : String) :
    b.stepIn v (.scopeOf name) = (.scope (b.resolver.scopeOf name), b) := rfl

@[simp]
theorem stepIn_hasFunction (v : VisitOrder) (b : Builder) (name : String) :
    b.stepIn v (.hasFunction name) = (.found (b.resolver.hasFunction name), b) := rfl

/-- Performs one step, resolving in table order. -/
def step (b : Builder) (s : Step) : Answer × Builder := b.stepIn .sorted s

/-- Performs steps in order, resolving in the order `v` gives; the answers in the same
order. -/
def stepsIn (v : VisitOrder) (b : Builder) : List Step → List Answer × Builder
  | [] => ([], b)
  | s :: rest =>
    let (a, b) := b.stepIn v s
    let (as, b) := b.stepsIn v rest
    (a :: as, b)

/-- Performs steps in order, resolving in table order. -/
def steps (b : Builder) (ss : List Step) : List Answer × Builder := b.stepsIn .sorted ss

end Builder

end AwkNames
