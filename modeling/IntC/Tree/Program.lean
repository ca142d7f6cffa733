/-
# Statements, functions and programs

A program is what one source file comes to: the prototypes it declares and the functions it defines,
each in the order of the source.  The text of a program is source text again, with all prototypes
before all functions.

* `Program.addAll_eq_foldl`: adding declarations together is adding them one by one.
-/
import IntC.Tree.Expr

namespace IntC

/-! ## 1. Statements and declarations -/

/-- A statement: an expression, or a return with its value. -/
inductive Stmt
  | expr (value : Expr)
  | ret (value : Expr)
  deriving DecidableEq, Repr, Inhabited

/-- A function's name and the names of its parameters, all of which are integers. -/
structure Prototype where
  name : String
  params : List String
  deriving DecidableEq, Repr, Inhabited

/-- How a function comes to have a variable. -/
inductive VarDecl.Role
  | parameter
  | inBody
  deriving DecidableEq, Repr, Inhabited

/-- A variable of a function. -/
structure VarDecl where
  name : String
  role : VarDecl.Role
  deriving DecidableEq, Repr, Inhabited

/-- The inside of a function: its variables, parameters first, and its statements. -/
structure Body where
  decls : List VarDecl := []
  stmts : List Stmt := []
  deriving DecidableEq, Repr, Inhabited

/-- A function with its body. -/
structure FunctionDef where
  prototype : Prototype
  body : Body
  deriving DecidableEq, Repr, Inhabited

/-- A declaration at the top of a source file. -/
inductive External
  | prototype (p : Prototype)
  | function (f : FunctionDef)
  deriving DecidableEq, Repr, Inhabited

/-- What one source file declares and defines. -/
structure Program where
  prototypes : List Prototype := []
  functions : List FunctionDef := []
  deriving DecidableEq, Repr, Inhabited

namespace Stmt

/-- The statement is a return. -/
def isReturn : Stmt → Bool
  | ret _ => true
  | expr _ => false

/-- A statement as source text. -/
def text : Stmt → String
  | expr value => value.text ++ ";"
  | ret value => "return " ++ value.text ++ ";"

end Stmt

namespace Prototype

/-- The number of parameters. -/
def arity (p : Prototype) : Nat := p.params.length

/-- A parameter list as source text, without its parentheses. -/
def paramsText : List String → String
  | [] => ""
  | [param] => "int " ++ param
  | param :: more => "int " ++ param ++ ", " ++ paramsText more

/-- A signature as source text, without what follows it. -/
def text (p : Prototype) : String := "int " ++ p.name ++ "(" ++ paramsText p.params ++ ")"

end Prototype

namespace Body

/-- The variables that the body declares itself. -/
def locals (b : Body) : List VarDecl := b.decls.filter fun decl => decl.role == .inBody

/-- The body with one more variable. -/
def addDecl (b : Body) (decl : VarDecl) : Body := { b with decls := b.decls ++ [decl] }

/-- The body with one more statement. -/
def addStmt (b : Body) (stmt : Stmt) : Body := { b with stmts := b.stmts ++ [stmt] }

end Body

namespace FunctionDef

/-- The name of the function. -/
def name (f : FunctionDef) : String := f.prototype.name

/-- The lines of a body as source text: its own variables, then its statements. -/
def bodyText (b : Body) : String :=
  String.join (b.locals.map fun decl => "    int " ++ decl.name ++ ";\n") ++
    String.join (b.stmts.map fun stmt => "    " ++ stmt.text ++ "\n")

/-- A function as source text. -/
def text (f : FunctionDef) : String := f.prototype.text ++ " \x7b\n" ++ bodyText f.body ++ "\x7d"

end FunctionDef

/-! ## 2. Programs -/

namespace External

/-- The prototype that is declared, if it is one. -/
def prototype? : External → Option Prototype
  | .prototype p => some p
  | .function _ => none

/-- The function that is defined, if it is one. -/
def function? : External → Option FunctionDef
  | .prototype _ => none
  | .function f => some f

end External

namespace Program

/-- The program declares and defines nothing. -/
def isEmpty (u : Program) : Bool := u.prototypes.isEmpty && u.functions.isEmpty

/-- The program with one more prototype. -/
def addPrototype (u : Program) (p : Prototype) : Program :=
  { u with prototypes := u.prototypes ++ [p] }

/-- The program with one more function. -/
def addFunction (u : Program) (f : FunctionDef) : Program :=
  { u with functions := u.functions ++ [f] }

/-- The program with one more declaration. -/
def add (u : Program) : External → Program
  | .prototype p => u.addPrototype p
  | .function f => u.addFunction f

/-- The program with more declarations, in their order. -/
def addAll (u : Program) (ds : List External) : Program :=
  { prototypes := u.prototypes ++ ds.filterMap External.prototype?
    functions := u.functions ++ ds.filterMap External.function? }

theorem addAll_eq_foldl (u : Program) (ds : List External) :
    u.addAll ds = ds.foldl add u := by
  induction ds generalizing u with
  | nil => simp [addAll]
  | cons d ds ih =>
    rw [List.foldl_cons, ← ih]
    cases d <;> simp [addAll, add, addPrototype, addFunction, External.prototype?,
      External.function?, List.filterMap_cons]

/-- A program as source text, one declaration after the other. -/
def text (u : Program) : String :=
  String.join (u.prototypes.map fun p => p.text ++ ";\n") ++
    String.join (u.functions.map fun f => f.text ++ "\n")

end Program

end IntC
