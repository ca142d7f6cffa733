/-
# What is in scope

While a source is read, three tables say which names mean something: the functions declared so far
with their number of parameters, the functions defined so far, likewise, and the variables of the
body being read.  A later entry for a function stands before an earlier one.

* `arity?_declare`, `arity?_define`: what one more entry does to look-up.
* `checkPrototype_eq_ok_iff`: when a signature agrees with the tables.
* `mem_declareVariable`: a variable is added only under a name that is free.
-/
import IntC.Diagnostic
import IntC.Tree.Program

namespace IntC

/-- Function names with the number of their parameters. -/
abbrev ArityTable := List (String × Nat)

/-- The names that mean something at a place of a source. -/
structure Scope where
  prototypes : ArityTable := []
  functions : ArityTable := []
  vars : List String := []
  deriving DecidableEq, Repr, Inhabited

/-- The prototypes every source starts with: a function that prints a number. -/
def predeclared : List Prototype := [⟨"printnum", ["i"]⟩]

namespace Scope

/-! ## 1. Functions -/

/-- The scope with a function declared. -/
def declare (s : Scope) (p : Prototype) : Scope :=
  { s with prototypes := (p.name, p.arity) :: s.prototypes }

/-- The scope with a function defined. -/
def define (s : Scope) (p : Prototype) : Scope :=
  { s with functions := (p.name, p.arity) :: s.functions }

/-- The scope a source starts in. -/
def initial : Scope := predeclared.foldl declare {}

/-- The function has been declared. -/
def isDeclared (s : Scope) (name : String) : Bool := (s.prototypes.lookup name).isSome

/-- The function has been defined. -/
def isDefined (s : Scope) (name : String) : Bool := (s.functions.lookup name).isSome

/-- The number of parameters of a function, from its declaration or else its definition. -/
def arity? (s : Scope) (name : String) : Option Nat :=
  s.prototypes.lookup name <|> s.functions.lookup name

/-- A signature is refused for a function that is defined, and for one that is declared with another
number of parameters. -/
def checkPrototype (s : Scope) (p : Prototype) : Except Cause Unit :=
  if s.isDefined p.name then .error (.repeatedDefinition p.name)
  else match s.prototypes.lookup p.name with
    | some declared =>
      if declared = p.arity then .ok () else .error (.arityConflict p.name declared p.arity)
    | none => .ok ()

theorem checkPrototype_eq_ok_iff {s : Scope} {p : Prototype} :
    s.checkPrototype p = .ok () ↔
      s.isDefined p.name = false ∧ ∀ n, s.prototypes.lookup p.name = some n → n = p.arity := by
  unfold checkPrototype
  split
  · next h => simp [h]
  · next h =>
    cases hd : s.prototypes.lookup p.name with
    | none => simp [h]
    | some declared => by_cases hn : declared = p.arity <;> simp [h, hn]

@[simp] theorem lookup_declare (s : Scope) (p : Prototype) (name : String) :
    (s.declare p).prototypes.lookup name =
      if name = p.name then some p.arity else s.prototypes.lookup name := by
  by_cases h : name = p.name
  · simp [declare, h]
  · have hb : (name == p.name) = false := by simpa using h
    simp [declare, List.lookup_cons, h, hb]

@[simp] theorem lookup_define (s : Scope) (p : Prototype) (name : String) :
    (s.define p).functions.lookup name =
      if name = p.name then some p.arity else s.functions.lookup name := by
  by_cases h : name = p.name
  · simp [define, h]
  · have hb : (name == p.name) = false := by simpa using h
    simp [define, List.lookup_cons, h, hb]

theorem arity?_declare (s : Scope) (p : Prototype) (name : String) :
    (s.declare p).arity? name = if name = p.name then some p.arity else s.arity? name := by
  unfold arity?
  rw [lookup_declare]
  by_cases h : name = p.name <;> simp [h, declare]

theorem arity?_define (s : Scope) (p : Prototype) (name : String) :
    (s.define p).arity? name =
      if name = p.name then s.prototypes.lookup name <|> some p.arity else s.arity? name := by
  unfold arity?
  rw [lookup_define]
  by_cases h : name = p.name <;> simp [h, define]

/-! ## 2. Variables -/

/-- The scope at the start of a body: of the variables, only its parameters. -/
def enter (s : Scope) (p : Prototype) : Scope := { s with vars := p.params }

/-- The name is a variable. -/
def isVariable (s : Scope) (name : String) : Bool := s.vars.contains name

/-- The scope with one more variable, if its name is free. -/
def declareVariable (s : Scope) (name : String) : Except Cause Scope :=
  if s.isVariable name then .error (.repeatedVariable name)
  else .ok { s with vars := s.vars ++ [name] }

theorem isVariable_iff {s : Scope} {name : String} :
    s.isVariable name = true ↔ name ∈ s.vars := by simp [isVariable]

theorem mem_declareVariable {s s' : Scope} {name : String} (h : s.declareVariable name = .ok s') :
    name ∉ s.vars ∧ s' = { s with vars := s.vars ++ [name] } := by
  unfold declareVariable at h
  split at h
  · cases h
  · next hfree =>
    cases h
    exact ⟨fun hmem => hfree (isVariable_iff.mpr hmem), rfl⟩

end Scope

end IntC
