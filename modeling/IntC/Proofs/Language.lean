/-
# The language, said without a parser

Which sources are programs can be said from the trees alone.  A tree has a *yield*, the lexemes it
is written with, and a tree is *valid* in a scope if the names in it mean something there.  Neither
mentions a cursor or an order of trying things.

* `Expr.yield` up to `External.yield`: the lexemes of a tree, in their order.  A lexeme fixes a
  token except for the spelling of a number, which counts by its value (`Lexeme.Matches`).
* `Expr.nodes`: all parts of an expression, for statements about every variable or call in it.
* `Expr.shaped`: an expression that can be written without parentheses.  `Expr.callHeight` counts
  the argument lists inside one another.
* `Expr.Admissible`: an expression that can stand in a scope, with the `admissible_*_iff` lemmas for
  its parts.  `admissible_tier_iff` is the step from one strength of binding to the next.
* `ValidFrom`: declarations that are valid one after the other.
-/
import IntC.Grammar.Program

namespace IntC

/-! ## 1. Lexemes -/

/-- What one token has to say: a name, a number, or only its kind. -/
inductive Lexeme
  | word (name : String)
  | number (value : Int)
  | mark (kind : Token.Kind)
  deriving DecidableEq, Repr

namespace Lexeme

/-- The kind of token that can say it. -/
def kind : Lexeme → Token.Kind
  | word _ => .identifier
  | number _ => .number
  | mark kind => kind

/-- The token says it. -/
def Matches : Lexeme → Token → Prop
  | word name, t => t.kind = .identifier ∧ t.value = name
  | number value, t => t.kind = .number ∧ Literal.read t.value = .ok value
  | mark kind, t => t.kind = kind

theorem Matches.kind_eq {l : Lexeme} {t : Token} (h : l.Matches t) : t.kind = l.kind := by
  cases l with
  | word name => exact h.1
  | number value => exact h.1
  | mark kind => exact h

end Lexeme

/-- The kind of an operator's mark. -/
def Operator.kind : Operator → Token.Kind
  | assign => .assignment
  | add => .plus
  | subtract => .dash
  | multiply => .star
  | divide => .slash

theorem Operator.kind_ne_assignment {op : Operator} (h : op ≠ .assign) :
    op.kind ≠ .assignment := by
  cases op with
  | assign => exact absurd rfl h
  | _ => decide

theorem Operator.additive?_eq_some_iff {kind : Token.Kind} {op : Operator} :
    additive? kind = some op ↔ op.kind = kind ∧ op.strength = 1 := by
  cases kind <;> cases op <;> decide

theorem Operator.multiplicative?_eq_some_iff {kind : Token.Kind} {op : Operator} :
    multiplicative? kind = some op ↔ op.kind = kind ∧ op.strength = 2 := by
  cases kind <;> cases op <;> decide

theorem Operator.multiplicative?_of_additive? {kind : Token.Kind} {op : Operator}
    (h : additive? kind = some op) : multiplicative? kind = none := by
  cases kind <;> simp_all [additive?, multiplicative?]

/-! ## 2. Yields -/

namespace Expr

mutual

/-- The lexemes of an expression that needs no parentheses. -/
def yield : Expr → List Lexeme
  | .num value => [.number value]
  | .var name => [.word name]
  | .call callee args =>
    .word callee :: .mark .openParen :: (argsYield args ++ [.mark .closeParen])
  | .binary op left right => left.yield ++ .mark op.kind :: right.yield
  | .empty => []

/-- The lexemes of an argument list without its parentheses. -/
def argsYield : List Expr → List Lexeme
  | [] => []
  | [arg] => arg.yield
  | arg :: more => arg.yield ++ .mark .comma :: argsYield more

end

end Expr

/-- The lexemes of a statement. -/
def Stmt.yield : Stmt → List Lexeme
  | expr value => value.yield ++ [.mark .semicolon]
  | ret value => .mark .ret :: (value.yield ++ [.mark .semicolon])

namespace Prototype

/-- The lexemes of a parameter list without its parentheses. -/
def paramsYield : List String → List Lexeme
  | [] => []
  | [param] => [.mark .int, .word param]
  | param :: more => .mark .int :: .word param :: .mark .comma :: paramsYield more

/-- The lexemes of a signature. -/
def yield (p : Prototype) : List Lexeme :=
  .mark .int :: .word p.name :: .mark .openParen :: (paramsYield p.params ++ [.mark .closeParen])

end Prototype

/-- The lexemes of a variable's declaration. -/
def VarDecl.yield (decl : VarDecl) : List Lexeme :=
  [.mark .int, .word decl.name, .mark .semicolon]

/-- The lexemes of a body: its own variables, then its statements. -/
def Body.yield (b : Body) : List Lexeme :=
  .mark .openCurly ::
    (b.locals.flatMap VarDecl.yield ++ b.stmts.flatMap Stmt.yield ++ [.mark .closeCurly])

/-- Behind the parameters stand the variables of the body itself. -/
theorem Body.locals_eq {b : Body} {params : List String} {decls : List VarDecl}
    (hb : b.decls = params.map (⟨·, .parameter⟩) ++ decls)
    (hroles : ∀ decl ∈ decls, decl.role = .inBody) : b.locals = decls := by
  have hparams : (params.map (VarDecl.mk · .parameter)).filter (fun decl => decl.role == .inBody) =
      [] := by
    rw [List.filter_eq_nil_iff]
    intro decl hdecl
    obtain ⟨x, -, rfl⟩ := List.mem_map.mp hdecl
    simp
  have hdecls : decls.filter (fun decl => decl.role == .inBody) = decls := by
    rw [List.filter_eq_self]
    intro decl hdecl
    rw [hroles decl hdecl]
    decide
  rw [Body.locals, hb, List.filter_append, hparams, hdecls, List.nil_append]

/-- The lexemes of a declaration or definition. -/
def External.yield : External → List Lexeme
  | .prototype p => p.yield ++ [.mark .semicolon]
  | .function f => f.prototype.yield ++ f.body.yield

/-- The expression of a statement. -/
def Stmt.value : Stmt → Expr
  | expr value => value
  | ret value => value

/-- The expressions of a definition; a declaration has none. -/
def External.exprs : External → List Expr
  | .prototype _ => []
  | .function f => f.body.stmts.map Stmt.value

/-! ## 3. Parts and shapes of expressions -/

namespace Expr

mutual

/-- The expression itself and everything inside it. -/
def nodes : Expr → List Expr
  | .num value => [.num value]
  | .var name => [.var name]
  | .call callee args => .call callee args :: argsNodes args
  | .binary op left right => .binary op left right :: (left.nodes ++ right.nodes)
  | .empty => [.empty]

/-- Everything inside the arguments. -/
def argsNodes : List Expr → List Expr
  | [] => []
  | arg :: more => arg.nodes ++ argsNodes more

end

mutual

/-- The expression needs no parentheses where an operator of strength `least` or more may stand:
sums nest to the left over products, products to the left over numbers, variables and calls, and
only a variable is assigned to. -/
def shaped : Nat → Expr → Bool
  | _, .num _ => true
  | _, .var _ => true
  | _, .call _ args => argsShaped args
  | least, .binary .assign (.var _) right => least == 0 && right.shaped 1
  | _, .binary .assign _ _ => false
  | least, .binary op left right =>
    decide (least ≤ op.strength) && left.shaped op.strength && right.shaped (op.strength + 1)
  | _, .empty => false

/-- Every argument is an assignment or a sum. -/
def argsShaped : List Expr → Bool
  | [] => true
  | arg :: more => arg.shaped 0 && argsShaped more

end

mutual

/-- The largest number of argument lists inside one another. -/
def callHeight : Expr → Nat
  | .num _ => 0
  | .var _ => 0
  | .call _ args => argsCallHeight args + 1
  | .binary _ left right => max left.callHeight right.callHeight
  | .empty => 0

/-- The largest call height of an argument. -/
def argsCallHeight : List Expr → Nat
  | [] => 0
  | arg :: more => max arg.callHeight (argsCallHeight more)

end

theorem mem_argsNodes {n : Expr} {args : List Expr} :
    n ∈ argsNodes args ↔ ∃ arg ∈ args, n ∈ arg.nodes := by
  induction args with
  | nil => simp [argsNodes]
  | cons arg more ih => simp [argsNodes, ih]

theorem argsShaped_iff {args : List Expr} :
    argsShaped args = true ↔ ∀ arg ∈ args, arg.shaped 0 = true := by
  induction args with
  | nil => simp [argsShaped]
  | cons arg more ih => simp [argsShaped, ih]

theorem argsCallHeight_le_iff {args : List Expr} {levels : Nat} :
    argsCallHeight args ≤ levels ↔ ∀ arg ∈ args, arg.callHeight ≤ levels := by
  induction args with
  | nil => simp [argsCallHeight]
  | cons arg more ih => rw [argsCallHeight, Nat.max_le, ih, List.forall_mem_cons]

mutual

/-- The numbers in a yield are those in the tree. -/
theorem number_mem_yield_iff {v : Int} : ∀ {e : Expr}, .number v ∈ e.yield ↔ .num v ∈ e.nodes
  | .num value => by simp [yield, nodes]
  | .var name => by simp [yield, nodes]
  | .call callee args => by simp [yield, nodes, number_mem_argsYield_iff]
  | .binary op left right => by
    simp [yield, nodes, @number_mem_yield_iff v left, @number_mem_yield_iff v right]
  | .empty => by simp [yield, nodes]

theorem number_mem_argsYield_iff {v : Int} :
    ∀ {args : List Expr}, .number v ∈ argsYield args ↔ .num v ∈ argsNodes args
  | [] => by simp [argsYield, argsNodes]
  | [arg] => by simp [argsYield, argsNodes, @number_mem_yield_iff v arg]
  | arg :: arg' :: more => by
    rw [argsYield, argsNodes, List.mem_append, List.mem_append, List.mem_cons,
      @number_mem_yield_iff v arg, @number_mem_argsYield_iff v (arg' :: more)]
    · simp
    · exact List.cons_ne_nil _ _

end

/-- An expression is one of its own parts. -/
theorem self_mem_nodes (e : Expr) : e ∈ e.nodes := by
  cases e <;> simp [nodes]

/-- An operator other than `=` holds the left operand to its own strength and the right one to the
next. -/
theorem shaped_binary {op : Operator} (hop : op ≠ .assign) (least : Nat) (left right : Expr) :
    (binary op left right).shaped least = true ↔
      least ≤ op.strength ∧ left.shaped op.strength = true ∧
        right.shaped (op.strength + 1) = true := by
  cases op with
  | assign => exact absurd rfl hop
  | _ => simp [shaped, and_assoc]

theorem shaped_assign (least : Nat) (left right : Expr) :
    (binary .assign left right).shaped least = true ↔
      least = 0 ∧ (∃ x, left = .var x) ∧ right.shaped 1 = true := by
  cases left <;> simp [shaped]

/-- The operands of a shaped expression are shaped. -/
theorem shaped_operands {op : Operator} {left right : Expr} {least : Nat}
    (h : (binary op left right).shaped least = true) :
    (∃ k, left.shaped k = true) ∧ ∃ k, right.shaped k = true := by
  by_cases hop : op = .assign
  · subst hop
    obtain ⟨-, ⟨x, rfl⟩, hright⟩ := (shaped_assign _ _ _).mp h
    exact ⟨⟨0, rfl⟩, _, hright⟩
  · obtain ⟨-, hleft, hright⟩ := (shaped_binary hop _ _ _).mp h
    exact ⟨⟨_, hleft⟩, _, hright⟩

/-- What needs no parentheses next to a strong operator needs none next to a weak one. -/
theorem shaped_mono {least least' : Nat} (hle : least' ≤ least) {e : Expr}
    (h : e.shaped least = true) : e.shaped least' = true := by
  cases e with
  | num | var => rfl
  | empty => cases h
  | call callee args => simpa [shaped] using h
  | binary op left right =>
    by_cases hop : op = .assign
    · subst hop
      obtain ⟨rfl, hparts⟩ := (shaped_assign _ _ _).mp h
      exact (shaped_assign _ _ _).mpr ⟨Nat.le_zero.mp hle, hparts⟩
    · obtain ⟨hs, hparts⟩ := (shaped_binary hop _ _ _).mp h
      exact (shaped_binary hop _ _ _).mpr ⟨Nat.le_trans hle hs, hparts⟩

mutual

/-- Every part of a shaped expression is a shaped one. -/
theorem shaped_of_mem_nodes : ∀ {e : Expr} {least : Nat} {n : Expr}, e.shaped least = true →
    n ∈ e.nodes → n.shaped 0 = true
  | .num value, _, n, _, hn => by
    obtain rfl : n = .num value := by simpa [nodes] using hn
    rfl
  | .var x, _, n, _, hn => by
    obtain rfl : n = .var x := by simpa [nodes] using hn
    rfl
  | .call f args, _, n, h, hn => by
    rcases List.mem_cons.mp hn with rfl | hin
    · simpa [shaped] using h
    · exact shaped_of_mem_argsNodes (by simpa [shaped] using h) hin
  | .binary op left right, _, n, h, hn => by
    rcases List.mem_cons.mp hn with rfl | hin
    · exact shaped_mono (Nat.zero_le _) h
    · obtain ⟨⟨_, hleft⟩, _, hright⟩ := shaped_operands h
      rcases List.mem_append.mp hin with hl | hr
      · exact shaped_of_mem_nodes hleft hl
      · exact shaped_of_mem_nodes hright hr

theorem shaped_of_mem_argsNodes : ∀ {args : List Expr} {n : Expr}, argsShaped args = true →
    n ∈ argsNodes args → n.shaped 0 = true
  | arg :: more, n, h, hn => by
    obtain ⟨harg, hmore⟩ := Bool.and_eq_true_iff.mp h
    rcases List.mem_append.mp hn with hfirst | hrest
    · exact shaped_of_mem_nodes harg hfirst
    · exact shaped_of_mem_argsNodes hmore hrest

end

/-- A shaped expression binds at least as strongly as it is held to. -/
theorem le_strength_of_shaped {least : Nat} {e : Expr} (hle : least ≤ 3)
    (h : e.shaped least = true) : least ≤ e.strength := by
  cases e with
  | num | var | call => exact hle
  | empty => cases h
  | binary op left right =>
    by_cases hop : op = .assign
    · subst hop
      obtain ⟨rfl, -⟩ := (shaped_assign _ _ _).mp h
      exact Nat.zero_le _
    · exact ((shaped_binary hop _ _ _).mp h).1

/-- An expression that stands for something starts with a name or a number. -/
theorem exists_yield_eq_cons : ∀ {e : Expr} {least : Nat}, e.shaped least = true →
    ∃ l ls, e.yield = l :: ls ∧ (l.kind = .identifier ∨ l.kind = .number)
  | .num value, _, _ => ⟨.number value, [], rfl, .inr rfl⟩
  | .var x, _, _ => ⟨.word x, [], rfl, .inl rfl⟩
  | .call f args, _, _ => ⟨.word f, _, rfl, .inl rfl⟩
  | .binary op left right, least, h => by
    obtain ⟨⟨_, hleft⟩, -⟩ := shaped_operands h
    obtain ⟨l, ls, hl, hkind⟩ := exists_yield_eq_cons hleft
    exact ⟨l, ls ++ .mark op.kind :: right.yield, by rw [yield, hl]; rfl, hkind⟩

/-- A sum has no `=` after its first lexeme. -/
theorem getElem?_one_yield_ne : ∀ {e : Expr} {least : Nat}, 0 < least → e.shaped least = true →
    e.yield[1]? ≠ some (.mark .assignment)
  | .num value, _, _, _ => by simp [yield]
  | .var x, _, _, _ => by simp [yield]
  | .call f args, _, _, _ => by simp [yield]
  | .binary op left right, least, hpos, h => by
    have hop : op ≠ .assign := by
      rintro rfl
      exact absurd ((shaped_assign _ _ _).mp h).1 (Nat.ne_of_gt hpos)
    obtain ⟨hle, hleft, -⟩ := (shaped_binary hop _ _ _).mp h
    have ih : left.yield[1]? ≠ some (.mark .assignment) :=
      getElem?_one_yield_ne (Nat.lt_of_lt_of_le hpos hle) hleft
    obtain ⟨l, ls, hl, -⟩ := exists_yield_eq_cons hleft
    rw [hl] at ih
    rw [yield, hl]
    cases ls with
    | nil => simpa using Operator.kind_ne_assignment hop
    | cons l' ls => simpa using ih

/-! ## 4. Expressions that can stand in a scope -/

/-- Every variable is in scope, and every call is one of a known function, whose name no variable
takes, with as many arguments as the function has parameters. -/
structure KnownIn (scope : Scope) (e : Expr) : Prop where
  vars : ∀ x, .var x ∈ e.nodes → x ∈ scope.vars
  calls : ∀ f args, .call f args ∈ e.nodes →
    f ∉ scope.vars ∧ scope.arity? f = some args.length

/-- The expression can be read in a scope, next to operators of strength `least` or more, with
`levels` more argument lists to open. -/
structure Admissible (scope : Scope) (levels least : Nat) (e : Expr) : Prop where
  shape : e.shaped least = true
  known : e.KnownIn scope
  height : e.callHeight ≤ levels

variable {scope : Scope} {levels least : Nat}

theorem admissible_num (value : Int) : (num value).Admissible scope levels least :=
  ⟨rfl, ⟨by simp [nodes], by simp [nodes]⟩, Nat.zero_le _⟩

theorem admissible_var_iff {x : String} :
    (var x).Admissible scope levels least ↔ x ∈ scope.vars := by
  constructor
  · intro h
    exact h.known.vars x (self_mem_nodes _)
  · intro h
    exact ⟨rfl, ⟨by simpa [nodes] using h, by simp [nodes]⟩, Nat.zero_le _⟩

theorem knownIn_call_iff {f : String} {args : List Expr} :
    (call f args).KnownIn scope ↔
      f ∉ scope.vars ∧ scope.arity? f = some args.length ∧ ∀ arg ∈ args, arg.KnownIn scope := by
  constructor
  · rintro ⟨hvars, hcalls⟩
    obtain ⟨hf, harity⟩ := hcalls f args (self_mem_nodes _)
    refine ⟨hf, harity, fun arg harg => ⟨fun x hx => hvars x ?_, fun g bs hg => hcalls g bs ?_⟩⟩
    · exact List.mem_cons_of_mem _ (mem_argsNodes.mpr ⟨arg, harg, hx⟩)
    · exact List.mem_cons_of_mem _ (mem_argsNodes.mpr ⟨arg, harg, hg⟩)
  · rintro ⟨hf, harity, hargs⟩
    refine ⟨fun x hx => ?_, fun g bs hg => ?_⟩
    · simp only [nodes, List.mem_cons, reduceCtorEq, false_or] at hx
      obtain ⟨arg, harg, hx⟩ := mem_argsNodes.mp hx
      exact (hargs arg harg).vars x hx
    · simp only [nodes, List.mem_cons, call.injEq] at hg
      rcases hg with ⟨rfl, rfl⟩ | hg
      · exact ⟨hf, harity⟩
      · obtain ⟨arg, harg, hg⟩ := mem_argsNodes.mp hg
        exact (hargs arg harg).calls g bs hg

theorem knownIn_binary_iff {op : Operator} {left right : Expr} :
    (binary op left right).KnownIn scope ↔ left.KnownIn scope ∧ right.KnownIn scope := by
  constructor
  · rintro ⟨hvars, hcalls⟩
    have hleft : ∀ n ∈ left.nodes, n ∈ (binary op left right).nodes := by
      intro n hn
      simp [nodes, hn]
    have hright : ∀ n ∈ right.nodes, n ∈ (binary op left right).nodes := by
      intro n hn
      simp [nodes, hn]
    exact ⟨⟨fun x hx => hvars x (hleft _ hx), fun g bs hg => hcalls g bs (hleft _ hg)⟩,
      ⟨fun x hx => hvars x (hright _ hx), fun g bs hg => hcalls g bs (hright _ hg)⟩⟩
  · rintro ⟨hl, hr⟩
    refine ⟨fun x hx => ?_, fun g bs hg => ?_⟩
    · simp only [nodes, List.mem_cons, reduceCtorEq, false_or, List.mem_append] at hx
      exact hx.elim (hl.vars x) (hr.vars x)
    · simp only [nodes, List.mem_cons, reduceCtorEq, false_or, List.mem_append] at hg
      exact hg.elim (hl.calls g bs) (hr.calls g bs)

/-- A call opens one argument list, and what is inside has one less to open. -/
theorem admissible_call_iff {f : String} {args : List Expr} :
    (call f args).Admissible scope (levels + 1) least ↔
      f ∉ scope.vars ∧ scope.arity? f = some args.length ∧
        ∀ arg ∈ args, arg.Admissible scope levels 0 := by
  constructor
  · rintro ⟨hshape, hknown, hheight⟩
    obtain ⟨hf, harity, hargs⟩ := knownIn_call_iff.mp hknown
    have hshapes : ∀ arg ∈ args, arg.shaped 0 = true :=
      argsShaped_iff.mp (by simpa [shaped] using hshape)
    have hheights : ∀ arg ∈ args, arg.callHeight ≤ levels :=
      argsCallHeight_le_iff.mp (Nat.le_of_succ_le_succ hheight)
    exact ⟨hf, harity, fun arg harg => ⟨hshapes arg harg, hargs arg harg, hheights arg harg⟩⟩
  · rintro ⟨hf, harity, hargs⟩
    refine ⟨?_, knownIn_call_iff.mpr ⟨hf, harity, fun arg harg => (hargs arg harg).known⟩, ?_⟩
    · exact argsShaped_iff.mpr fun arg harg => (hargs arg harg).shape
    · exact Nat.succ_le_succ (argsCallHeight_le_iff.mpr fun arg harg => (hargs arg harg).height)

theorem not_admissible_call_zero {f : String} {args : List Expr} :
    ¬ (call f args).Admissible scope 0 least := fun h => absurd h.height (Nat.not_succ_le_zero _)

theorem admissible_binary_iff {op : Operator} (hop : op ≠ .assign) {left right : Expr} :
    (binary op left right).Admissible scope levels least ↔
      least ≤ op.strength ∧ left.Admissible scope levels op.strength ∧
        right.Admissible scope levels (op.strength + 1) := by
  constructor
  · rintro ⟨hshape, hknown, hheight⟩
    obtain ⟨hle, hl, hr⟩ := (shaped_binary hop _ _ _).mp hshape
    obtain ⟨hkl, hkr⟩ := knownIn_binary_iff.mp hknown
    obtain ⟨hhl, hhr⟩ := Nat.max_le.mp hheight
    exact ⟨hle, ⟨hl, hkl, hhl⟩, ⟨hr, hkr, hhr⟩⟩
  · rintro ⟨hle, hl, hr⟩
    exact ⟨(shaped_binary hop _ _ _).mpr ⟨hle, hl.shape, hr.shape⟩,
      knownIn_binary_iff.mpr ⟨hl.known, hr.known⟩, Nat.max_le.mpr ⟨hl.height, hr.height⟩⟩

theorem admissible_assign_iff {left right : Expr} :
    (binary .assign left right).Admissible scope levels least ↔
      least = 0 ∧ (∃ x, left = .var x ∧ x ∈ scope.vars) ∧ right.Admissible scope levels 1 := by
  constructor
  · rintro ⟨hshape, hknown, hheight⟩
    obtain ⟨rfl, ⟨x, rfl⟩, hr⟩ := (shaped_assign _ _ _).mp hshape
    obtain ⟨hkl, hkr⟩ := knownIn_binary_iff.mp hknown
    exact ⟨rfl, ⟨x, rfl, hkl.vars x (self_mem_nodes _)⟩, hr, hkr, (Nat.max_le.mp hheight).2⟩
  · rintro ⟨rfl, ⟨x, rfl, hx⟩, hr⟩
    have hl : (var x).Admissible scope levels 0 := admissible_var_iff.mpr hx
    exact ⟨(shaped_assign _ _ _).mpr ⟨rfl, ⟨x, rfl⟩, hr.shape⟩,
      knownIn_binary_iff.mpr ⟨hl.known, hr.known⟩, Nat.max_le.mpr ⟨hl.height, hr.height⟩⟩

theorem not_admissible_empty : ¬ empty.Admissible scope levels least := fun h => nomatch h.shape

/-- No operator binds as strongly as a name or a number holds together. -/
theorem not_admissible_binary {op : Operator} {left right : Expr} :
    ¬ (binary op left right).Admissible scope levels 3 := by
  intro h
  have hle : 3 ≤ op.strength := le_strength_of_shaped (Nat.le_refl 3) h.shape
  cases op <;> simp [Operator.strength] at hle

theorem Admissible.mono {least' : Nat} (hle : least' ≤ least) {e : Expr}
    (h : e.Admissible scope levels least) : e.Admissible scope levels least' :=
  ⟨shaped_mono hle h.shape, h.known, h.height⟩

/-- **One tier down.**  What may stand next to operators of strength `k` is what may stand next to
stronger ones, or two operands with an operator of strength `k` between them. -/
theorem admissible_tier_iff {k : Nat} (hk : 0 < k) {e : Expr} :
    e.Admissible scope levels k ↔ e.Admissible scope levels (k + 1) ∨
      ∃ op left right, e = .binary op left right ∧ op.strength = k ∧
        left.Admissible scope levels k ∧ right.Admissible scope levels (k + 1) := by
  constructor
  · intro h
    cases e with
    | num value => exact .inl (admissible_num value)
    | var x => exact .inl (admissible_var_iff.mpr (admissible_var_iff.mp h))
    | call f args => exact .inl ⟨h.shape, h.known, h.height⟩
    | empty => exact absurd h not_admissible_empty
    | binary op left right =>
      by_cases hop : op = .assign
      · subst hop
        obtain ⟨rfl, -⟩ := admissible_assign_iff.mp h
        exact absurd hk (Nat.lt_irrefl 0)
      · obtain ⟨hle, hl, hr⟩ := (admissible_binary_iff hop).mp h
        rcases Nat.lt_or_eq_of_le hle with hlt | rfl
        · exact .inl ((admissible_binary_iff hop).mpr ⟨hlt, hl, hr⟩)
        · exact .inr ⟨op, left, right, rfl, rfl, hl, hr⟩
  · rintro (h | ⟨op, left, right, rfl, rfl, hl, hr⟩)
    · exact h.mono (Nat.le_succ k)
    · have hop : op ≠ .assign := by
        rintro rfl
        exact absurd hk (Nat.lt_irrefl 0)
      exact (admissible_binary_iff hop).mpr ⟨Nat.le_refl _, hl, hr⟩

/-- The lowest tier: an assignment of a sum to a variable, or a sum. -/
theorem admissible_zero_iff {e : Expr} :
    e.Admissible scope levels 0 ↔ e.Admissible scope levels 1 ∨
      ∃ x value, e = .binary .assign (.var x) value ∧ x ∈ scope.vars ∧
        value.Admissible scope levels 1 := by
  constructor
  · intro h
    cases e with
    | num value => exact .inl (admissible_num value)
    | var x => exact .inl (admissible_var_iff.mpr (admissible_var_iff.mp h))
    | call f args => exact .inl ⟨h.shape, h.known, h.height⟩
    | empty => exact absurd h not_admissible_empty
    | binary op left right =>
      by_cases hop : op = .assign
      · subst hop
        obtain ⟨-, ⟨x, rfl, hx⟩, hright⟩ := admissible_assign_iff.mp h
        exact .inr ⟨x, right, rfl, hx, hright⟩
      · obtain ⟨-, hparts⟩ := (admissible_binary_iff hop).mp h
        have hpos : 1 ≤ op.strength := by cases op <;> simp_all [Operator.strength]
        exact .inl ((admissible_binary_iff hop).mpr ⟨hpos, hparts⟩)
  · rintro (h | ⟨x, value, rfl, hx, hvalue⟩)
    · exact h.mono (Nat.zero_le 1)
    · exact admissible_assign_iff.mpr ⟨rfl, ⟨x, rfl, hx⟩, hvalue⟩

end Expr

/-! ## 5. Statements, bodies and declarations that can stand in a scope -/

/-- The statement can be read in a scope; of expression statements, one can be empty. -/
def Stmt.ValidIn (scope : Scope) : Stmt → Prop
  | expr value => value = .empty ∨ value.Admissible scope maxNesting 0
  | ret value => value.Admissible scope maxNesting 0

/-- The statement can be written down: an expression statement may be empty, and every other
expression has a shape without parentheses and not too many argument lists inside one another. -/
def Stmt.Shaped : Stmt → Prop
  | expr value => value = .empty ∨ value.shaped 0 = true ∧ value.callHeight ≤ maxNesting
  | ret value => value.shaped 0 = true ∧ value.callHeight ≤ maxNesting

theorem Expr.knownIn_empty (scope : Scope) : Expr.empty.KnownIn scope :=
  ⟨by simp [Expr.nodes], by simp [Expr.nodes]⟩

/-- What is valid in a scope is a question of shape and one of names. -/
theorem Stmt.validIn_iff {scope : Scope} {a : Stmt} :
    a.ValidIn scope ↔ a.Shaped ∧ a.value.KnownIn scope := by
  cases a with
  | ret value =>
    constructor
    · intro h
      exact ⟨⟨h.shape, h.height⟩, h.known⟩
    · intro h
      exact ⟨h.1.1, h.2, h.1.2⟩
  | expr value =>
    constructor
    · intro h
      rcases h with rfl | h
      · exact ⟨.inl rfl, Expr.knownIn_empty scope⟩
      · exact ⟨.inr ⟨h.shape, h.height⟩, h.known⟩
    · intro h
      rcases h with ⟨rfl | hshape, hknown⟩
      · exact .inl rfl
      · exact .inr ⟨hshape.1, hknown, hshape.2⟩

/-- The parameters are different, the function has no body yet, and if it has been declared, then
with as many parameters. -/
structure Prototype.AllowedIn (scope : Scope) (p : Prototype) : Prop where
  nodup : p.params.Nodup
  undefined : scope.isDefined p.name = false
  agrees : ∀ n, scope.prototypes.lookup p.name = some n → n = p.arity

/-- The body can follow a signature: its variables are the parameters and then its own, all with
different names, its statements are valid with these variables, and the last one is a return. -/
structure Body.ValidIn (scope : Scope) (p : Prototype) (b : Body) : Prop where
  decls : b.decls = p.params.map (⟨·, .parameter⟩) ++ b.locals
  nodup : (b.decls.map VarDecl.name).Nodup
  stmts : ∀ stmt ∈ b.stmts, stmt.ValidIn { scope with vars := b.decls.map VarDecl.name }
  last : ∃ value, b.stmts.getLast? = some (.ret value)

/-- The declaration or definition can follow what the scope holds. -/
def External.ValidIn (scope : Scope) : External → Prop
  | .prototype p => p.AllowedIn scope
  | .function f => f.prototype.AllowedIn scope ∧ f.body.ValidIn scope f.prototype

/-- The scope with one more function, declared or defined. -/
def Scope.after (scope : Scope) : External → Scope
  | .prototype p => scope.declare p
  | .function f => scope.define f.prototype

/-- Each declaration can follow the scope and the ones before it. -/
def ValidFrom : Scope → List External → Prop
  | _, [] => True
  | scope, d :: ds => d.ValidIn scope ∧ ValidFrom (scope.after d) ds

theorem Prototype.allowedIn_iff {scope : Scope} {p : Prototype} :
    p.AllowedIn scope ↔ p.params.Nodup ∧ scope.checkPrototype p = .ok () := by
  rw [Scope.checkPrototype_eq_ok_iff]
  exact ⟨fun h => ⟨h.nodup, h.undefined, h.agrees⟩, fun h => ⟨h.1, h.2.1, h.2.2⟩⟩

theorem Prototype.allowedIn_vars {scope : Scope} {vars : List String} {p : Prototype} :
    p.AllowedIn { scope with vars } ↔ p.AllowedIn scope := by
  constructor
  · rintro ⟨hnodup, hundefined, hagrees⟩
    exact ⟨hnodup, hundefined, hagrees⟩
  · rintro ⟨hnodup, hundefined, hagrees⟩
    exact ⟨hnodup, hundefined, hagrees⟩

theorem Body.validIn_vars {scope : Scope} {vars : List String} {p : Prototype} {b : Body} :
    b.ValidIn { scope with vars } p ↔ b.ValidIn scope p := by
  constructor
  · rintro ⟨hdecls, hnodup, hstmts, hlast⟩
    exact ⟨hdecls, hnodup, hstmts, hlast⟩
  · rintro ⟨hdecls, hnodup, hstmts, hlast⟩
    exact ⟨hdecls, hnodup, hstmts, hlast⟩

/-- The variables in scope are no matter for what stands at the top. -/
theorem External.validIn_vars {scope : Scope} {vars : List String} {d : External} :
    d.ValidIn { scope with vars } ↔ d.ValidIn scope := by
  cases d with
  | prototype p => exact Prototype.allowedIn_vars
  | function f => exact and_congr Prototype.allowedIn_vars Body.validIn_vars

theorem validFrom_vars {vars : List String} :
    ∀ {scope : Scope} {ds : List External}, ValidFrom { scope with vars } ds ↔ ValidFrom scope ds
  | _, [] => Iff.rfl
  | scope, d :: ds => by
    have hafter : Scope.after { scope with vars } d = { scope.after d with vars } := by
      cases d <;> rfl
    rw [ValidFrom, ValidFrom, External.validIn_vars, hafter, validFrom_vars]

theorem validFrom_append {scope : Scope} {ds es : List External} :
    ValidFrom scope (ds ++ es) ↔
      ValidFrom scope ds ∧ ValidFrom (ds.foldl Scope.after scope) es := by
  induction ds generalizing scope with
  | nil => simp [ValidFrom]
  | cons d ds ih => simp [ValidFrom, ih, and_assoc]

end IntC
