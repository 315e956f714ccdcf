import AwkNames.Builder
import AwkNames.Error

/-!
# Expressions and statements as a parser reports them

A `Source` is an expression tree as the parser meets it; building it makes its nodes children
first, left to right, then the node itself. A `StmtSource` is a statement, or a function
declaration met inside a body.

* `Source.build` makes the nodes of an expression;
* `StmtSource.run` makes a statement, or declares a function: a declaration inside an open
  body, of a name already registered, or with a repeated parameter is refused; otherwise the
  body is built with the parameters in scope and the function is registered. A failure inside
  a body stops the body: the nodes and records made so far stay, and nothing is registered.
-/

namespace AwkNames

/-- An expression as the parser reports it. -/
inductive Source where
  /-- A number literal. -/
  | num (value : Double)
  /-- A string literal. -/
  | str (value : String)
  /-- A field reference. -/
  | field (arg : Source)
  /-- A scalar use of a name. -/
  | var (name : String)
  /-- An array use of a name. -/
  | array (name : String)
  /-- An element of the named array. -/
  | subscript (name : String) (subs : List Source)
  /-- A membership test in the named array. -/
  | member (subs : List Source) (name : String)
  /-- An assignment. -/
  | assign (left right : Source)
  /-- A binary operation. -/
  | binary (op : BinOp) (left right : Source)
  /-- A call of a user function. -/
  | call (callee : String) (args : List Source) (pos : Position)
  /-- A node made earlier, by its id; nothing new is made. -/
  | node (id : NodeId)
deriving Repr, Inhabited

/-- A statement as the parser reports it. -/
inductive StmtSource where
  /-- An expression statement. -/
  | expr (e : Source)
  /-- `print`. -/
  | print (args : List Source)
  /-- `delete`; the array is built before the subscripts. -/
  | delete (array : Source) (subs : List Source)
  /-- `return`. -/
  | ret (value : Option Source)
  /-- A function declaration. -/
  | declare (name : String) (params : List String) (pos : Position) (body : List StmtSource)
deriving Repr, Inhabited

mutual

/-- Makes the nodes of an expression; the id of its root. -/
def Source.build : Source → Builder → NodeId × Builder
  | .num x, b => b.alloc (.num x)
  | .str s, b => b.alloc (.str s)
  | .field e, b =>
    let (a, b) := e.build b
    b.alloc (.field a)
  | .var n, b => b.varRef n
  | .array n, b => b.arrayRef n
  | .subscript n subs, b =>
    let (ids, b) := Source.buildList subs b
    let (a, b) := b.arrayRef n
    b.alloc (.subscript a ids)
  | .member subs n, b =>
    let (ids, b) := Source.buildList subs b
    let (a, b) := b.arrayRef n
    b.alloc (.member ids a)
  | .assign l r, b =>
    let (i, b) := l.build b
    let (j, b) := r.build b
    b.alloc (.assign i j)
  | .binary op l r, b =>
    let (i, b) := l.build b
    let (j, b) := r.build b
    b.alloc (.binary op i j)
  | .call f args pos, b =>
    let (ids, b) := Source.buildList args b
    b.call f ids pos
  | .node id, b => (id, b)

/-- Makes the nodes of a list of expressions, left to right. -/
def Source.buildList : List Source → Builder → List NodeId × Builder
  | [], b => ([], b)
  | e :: es, b =>
    let (i, b) := e.build b
    let (is, b) := Source.buildList es b
    (i :: is, b)

end

/-- The first name of a list that occurs earlier in it. -/
def firstRepeat : List String → Option String :=
  go []
where
  /-- `firstRepeat` after the names `seen`. -/
  go (seen : List String) : List String → Option String
    | [] => none
    | p :: ps => if p ∈ seen then some p else go (p :: seen) ps

namespace Builder

/-- Why a declaration is refused, if it is: inside an open body, then a registered name,
then the first repeated parameter. -/
def declarationFault (b : Builder) (name : String) (params : List String) (pos : Position) :
    Option Error :=
  if b.resolver.frame.isSome then some ⟨.nestedFunction name, pos⟩
  else if b.resolver.hasFunction name then some ⟨.alreadyDeclared name, pos⟩
  else (firstRepeat params).map fun p => ⟨.duplicateParameter name p, pos⟩

end Builder

mutual

/-- Makes one statement; a declaration makes none. -/
def StmtSource.run : StmtSource → Builder → Except Error (Option Stmt) × Builder
  | .expr e, b =>
    let (i, b) := e.build b
    (.ok (some (.expr i)), b)
  | .print es, b =>
    let (ids, b) := Source.buildList es b
    (.ok (some (.print ids)), b)
  | .delete a subs, b =>
    let (i, b) := a.build b
    let (ids, b) := Source.buildList subs b
    (.ok (some (.delete i ids)), b)
  | .ret none, b => (.ok (some (.ret none)), b)
  | .ret (some e), b =>
    let (i, b) := e.build b
    (.ok (some (.ret (some i))), b)
  | .declare name params pos body, b =>
    match b.declarationFault name params pos with
    | some e => (.error e, b)
    | none =>
      match StmtSource.runList body (b.openFunction name params) with
      | (.error e, b) => (.error e, b.closeFunction)
      | (.ok stmts, b) => (.ok none, b.closeFunction.register name params stmts)

/-- Makes the statements of a body in order, stopping at the first failure. -/
def StmtSource.runList : List StmtSource → Builder → Except Error (List Stmt) × Builder
  | [], b => (.ok [], b)
  | s :: rest, b =>
    match s.run b with
    | (.error e, b) => (.error e, b)
    | (.ok o, b) =>
      match StmtSource.runList rest b with
      | (.error e, b) => (.error e, b)
      | (.ok stmts, b) => (.ok (o.toList ++ stmts), b)

end

end AwkNames
