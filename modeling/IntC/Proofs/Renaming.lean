/-
# Renamed sources

Take two token lists of the same kinds, where the names of the second are those of the first under
an injective map, and where the tokens may stand anywhere.  A parse of the one and a parse of the
other go the same way: the parser compares names with each other and nothing else, and a position
is only ever handed on to a diagnostic.

* `Renaming`, and `rename` for trees, tokens, scopes and causes: what becomes of them.
* `Scope.arity?_rename`, `Scope.checkPrototype_rename` and so on: look-up sees only which names are
  equal.
* `Alike`: what the states of the two parses have in common, at every step.
* `SameFault`: what their diagnostics have in common.
* `ofTokens_alike`: what the outcomes have in common.
-/
import Mathlib
import IntC.Grammar.Program
import IntC.Proofs.TwoRuns

namespace IntC

/-! ## 1. Renamings -/

/-- An injective map on names that keeps the names in predeclared signatures. -/
structure Renaming where
  toFun : String → String
  injective : ∀ {x y : String}, toFun x = toFun y → x = y
  fixed : ∀ p ∈ predeclared, toFun p.name = p.name ∧ p.params.map toFun = p.params

namespace Renaming

instance : CoeFun Renaming fun _ => String → String := ⟨toFun⟩

/-- The renaming that changes no name. -/
protected def id : Renaming := ⟨fun x => x, fun h => h, fun _ _ => ⟨rfl, List.map_id' _⟩⟩

@[simp] theorem toFun_id : Renaming.id.toFun = fun x => x := rfl

@[simp] theorem apply_eq_apply (ρ : Renaming) {x y : String} : ρ x = ρ y ↔ x = y :=
  ⟨ρ.injective, congrArg ρ⟩

@[simp] theorem contains_map (ρ : Renaming) (names : List String) (x : String) :
    (names.map ρ).contains (ρ x) = names.contains x := by
  simp

end Renaming

mutual

/-- An expression with other names for variables and callees. -/
def Expr.rename (ρ : Renaming) : Expr → Expr
  | .num value => .num value
  | .var name => .var (ρ name)
  | .call callee args => .call (ρ callee) (Expr.renameArgs ρ args)
  | .binary op left right => .binary op (left.rename ρ) (right.rename ρ)
  | .empty => .empty

/-- Arguments with other names in them. -/
def Expr.renameArgs (ρ : Renaming) : List Expr → List Expr
  | [] => []
  | arg :: more => arg.rename ρ :: Expr.renameArgs ρ more

end

@[simp] theorem Expr.length_renameArgs (ρ : Renaming) (args : List Expr) :
    (Expr.renameArgs ρ args).length = args.length := by
  induction args with
  | nil => rfl
  | cons arg more ih => simp [Expr.renameArgs, ih]

/-- A statement with other names in its expression. -/
def Stmt.rename (ρ : Renaming) : Stmt → Stmt
  | expr value => .expr (value.rename ρ)
  | ret value => .ret (value.rename ρ)

@[simp] theorem Stmt.isReturn_rename (ρ : Renaming) (stmt : Stmt) :
    (stmt.rename ρ).isReturn = stmt.isReturn := by
  cases stmt <;> rfl

/-- A signature with other names for the function and its parameters. -/
def Prototype.rename (ρ : Renaming) (p : Prototype) : Prototype := ⟨ρ p.name, p.params.map ρ⟩

@[simp] theorem Prototype.arity_rename (ρ : Renaming) (p : Prototype) :
    (p.rename ρ).arity = p.arity := by
  simp [Prototype.rename, Prototype.arity]

/-- A variable with another name. -/
def VarDecl.rename (ρ : Renaming) (decl : VarDecl) : VarDecl := ⟨ρ decl.name, decl.role⟩

/-- A body with other names in it. -/
def Body.rename (ρ : Renaming) (b : Body) : Body :=
  ⟨b.decls.map (VarDecl.rename ρ), b.stmts.map (Stmt.rename ρ)⟩

/-- A function with other names in its signature and its body. -/
def FunctionDef.rename (ρ : Renaming) (f : FunctionDef) : FunctionDef :=
  ⟨f.prototype.rename ρ, f.body.rename ρ⟩

/-- A declaration with other names in it. -/
def External.rename (ρ : Renaming) : External → External
  | .prototype p => .prototype (p.rename ρ)
  | .function f => .function (f.rename ρ)

/-- A program with other names in it. -/
def Program.rename (ρ : Renaming) (u : Program) : Program :=
  ⟨u.prototypes.map (Prototype.rename ρ), u.functions.map (FunctionDef.rename ρ)⟩

theorem Program.addAll_rename (ρ : Renaming) (u : Program) (ds : List External) :
    (u.addAll ds).rename ρ = (u.rename ρ).addAll (ds.map (External.rename ρ)) := by
  simp only [addAll_eq_foldl]
  induction ds generalizing u with
  | nil => rfl
  | cons d ds ih =>
    have hadd : (u.add d).rename ρ = (u.rename ρ).add (d.rename ρ) := by
      cases d <;> simp [add, addPrototype, addFunction, External.rename, rename]
    simp [ih, hadd]

/-- The kind of a token, and its text with other names: only identifiers have one. -/
def Token.renamed (ρ : Renaming) (t : Token) : Token.Kind × String :=
  (t.kind, if t.kind = .identifier then ρ t.value else t.value)

/-- A cause with other names.  The texts of tokens stay as they are. -/
def Cause.rename (ρ : Renaming) : Cause → Cause
  | repeatedParameter name => repeatedParameter (ρ name)
  | repeatedVariable name => repeatedVariable (ρ name)
  | unknownVariable name => unknownVariable (ρ name)
  | arityConflict function declared found => arityConflict (ρ function) declared found
  | repeatedDefinition function => repeatedDefinition (ρ function)
  | unknownFunction function => unknownFunction (ρ function)
  | argumentCount function expected received => argumentCount (ρ function) expected received
  | missingReturn function => missingReturn (ρ function)
  | cause => cause

mutual

@[simp] theorem Expr.rename_id : (e : Expr) → e.rename .id = e
  | .num _ => rfl
  | .var _ => rfl
  | .call callee args => by rw [Expr.rename, Expr.renameArgs_id args, Renaming.toFun_id]
  | .binary op left right => by rw [Expr.rename, left.rename_id, right.rename_id]
  | .empty => rfl

theorem Expr.renameArgs_id : (args : List Expr) → Expr.renameArgs .id args = args
  | [] => rfl
  | arg :: more => by rw [Expr.renameArgs, arg.rename_id, Expr.renameArgs_id more]

end

theorem Stmt.rename_id (stmt : Stmt) : stmt.rename .id = stmt := by
  cases stmt <;> simp [Stmt.rename]

theorem Prototype.rename_id (p : Prototype) : p.rename .id = p := by
  simp [Prototype.rename]

theorem Body.rename_id (b : Body) : b.rename .id = b := by
  have hdecl (decl : VarDecl) : decl.rename .id = decl := rfl
  rw [Body.rename, List.map_id'' hdecl, List.map_id'' Stmt.rename_id]

/-- Without a change of names nothing changes. -/
theorem Program.rename_id (u : Program) : u.rename .id = u := by
  have hfunction (f : FunctionDef) : f.rename .id = f := by
    rw [FunctionDef.rename, Prototype.rename_id, Body.rename_id]
  rw [Program.rename, List.map_id'' Prototype.rename_id, List.map_id'' hfunction]

theorem Cause.rename_id (cause : Cause) : cause.rename .id = cause := by
  cases cause <;> rfl

theorem Token.renamed_id (t : Token) : t.renamed .id = (t.kind, t.value) := by
  simp [Token.renamed]

/-! ## 2. Scopes -/

/-- A table with other names. -/
def ArityTable.rename (ρ : Renaming) (table : ArityTable) : ArityTable :=
  table.map fun entry => (ρ entry.1, entry.2)

@[simp] theorem ArityTable.lookup_rename (ρ : Renaming) (table : ArityTable) (name : String) :
    (table.rename ρ).lookup (ρ name) = table.lookup name := by
  induction table with
  | nil => rfl
  | cons entry table ih =>
    obtain ⟨function, arity⟩ := entry
    have hsame : (ρ name == ρ function) = (name == function) := by
      rw [Bool.eq_iff_iff, beq_iff_eq, beq_iff_eq, Renaming.apply_eq_apply]
    simp only [rename] at ih
    simp only [rename, List.map_cons, List.lookup_cons, hsame, ih]

namespace Scope

/-- A scope with other names. -/
def rename (ρ : Renaming) (s : Scope) : Scope :=
  ⟨s.prototypes.rename ρ, s.functions.rename ρ, s.vars.map ρ⟩

@[simp] theorem arity?_rename (ρ : Renaming) (s : Scope) (name : String) :
    (s.rename ρ).arity? (ρ name) = s.arity? name := by
  simp [arity?, rename]

@[simp] theorem isVariable_rename (ρ : Renaming) (s : Scope) (name : String) :
    (s.rename ρ).isVariable (ρ name) = s.isVariable name := by
  simp only [isVariable, rename, Renaming.contains_map]

theorem checkPrototype_rename (ρ : Renaming) (s : Scope) (p : Prototype) :
    (s.rename ρ).checkPrototype (p.rename ρ) =
      (s.checkPrototype p).mapError (Cause.rename ρ) := by
  have hdefined : (s.rename ρ).isDefined (p.rename ρ).name = s.isDefined p.name := by
    simp [isDefined, rename, Prototype.rename]
  have hdeclared : (s.rename ρ).prototypes.lookup (p.rename ρ).name =
      s.prototypes.lookup p.name := by
    simp [rename, Prototype.rename]
  unfold checkPrototype
  rw [hdefined, hdeclared]
  split
  · rfl
  split
  · split
    · next h => rw [if_pos (by simpa using h)]; rfl
    · next h => rw [if_neg (by simpa using h), Prototype.arity_rename]; rfl
  · rfl

theorem declareVariable_rename (ρ : Renaming) (s : Scope) (name : String) :
    (s.rename ρ).declareVariable (ρ name) =
      ((s.declareVariable name).mapError (Cause.rename ρ)).map (rename ρ) := by
  unfold declareVariable
  rw [isVariable_rename]
  split
  · rfl
  · simp [rename, Except.mapError, Except.map]

theorem rename_id (s : Scope) : s.rename .id = s := by
  simp [rename, ArityTable.rename]

theorem declare_rename (ρ : Renaming) (s : Scope) (p : Prototype) :
    (s.declare p).rename ρ = (s.rename ρ).declare (p.rename ρ) := by
  simp [declare, rename, ArityTable.rename, Prototype.rename, Prototype.arity]

theorem define_rename (ρ : Renaming) (s : Scope) (p : Prototype) :
    (s.define p).rename ρ = (s.rename ρ).define (p.rename ρ) := by
  simp [define, rename, ArityTable.rename, Prototype.rename, Prototype.arity]

theorem enter_rename (ρ : Renaming) (s : Scope) (p : Prototype) :
    (s.enter p).rename ρ = (s.rename ρ).enter (p.rename ρ) := rfl

theorem predeclared_rename (ρ : Renaming) : predeclared.map (Prototype.rename ρ) = predeclared := by
  refine (List.map_congr_left fun p hp => ?_).trans (List.map_id _)
  obtain ⟨hname, hparams⟩ := ρ.fixed p hp
  simp [Prototype.rename, hname, hparams]

theorem initial_rename (ρ : Renaming) : Scope.initial.rename ρ = .initial := by
  have hfold (ps : List Prototype) (s : Scope) :
      (ps.foldl declare s).rename ρ = (ps.map (Prototype.rename ρ)).foldl declare (s.rename ρ) := by
    induction ps generalizing s with
    | nil => rfl
    | cons p ps ih => simp [ih, declare_rename]
  rw [initial, hfold, predeclared_rename]
  rfl

end Scope

/-! ## 3. States -/

/-- The tokens stand at the same index of the two lists, and have the same kind and the same text
but for the names. -/
structure Twins (ρ : Renaming) (ts ts' : List Token) (t t' : Token) : Prop where
  place : ∃ i : Nat, ts[i]? = some t ∧ ts'[i]? = some t'
  kind : t'.kind = t.kind
  value : t'.value = (t.renamed ρ).2

/-- The two positions are those of tokens at the same index. -/
def SamePlace (ρ : Renaming) (ts ts' : List Token) (p p' : Position) : Prop :=
  ∃ t t', Twins ρ ts ts' t t' ∧ p = t.span.start ∧ p' = t'.span.start

/-- The two diagnostics are for tokens at the same index.  Their causes are the same but for the
names, and if they carry the text of the token, each carries its own. -/
inductive SameFault (ρ : Renaming) (ts ts' : List Token) : Diagnostic → Diagnostic → Prop
  | token {t t' : Token} (htwins : Twins ρ ts ts' t t') :
      SameFault ρ ts ts' ⟨.unexpectedToken t.value, t.span.start⟩
        ⟨.unexpectedToken t'.value, t'.span.start⟩
  | names {p p' : Position} (hplace : SamePlace ρ ts ts' p p') (cause : Cause) :
      SameFault ρ ts ts' ⟨cause, p⟩ ⟨cause.rename ρ, p'⟩

/-- The states are at the same index of two lists of the same kinds, with the same names but for the
renaming in the tokens and in scope. -/
structure Alike (ρ : Renaming) (ts ts' : List Token) (s s' : State) : Prop where
  tokens : s.cursor.toList = ts
  tokens' : s'.cursor.toList = ts'
  same : ts'.map (fun t => (t.kind, t.value)) = ts.map (Token.renamed ρ)
  pos : s'.cursor.pos = s.cursor.pos
  depth : s'.depth = s.depth
  scope : s'.scope = s.scope.rename ρ

section Lists

variable {ρ : Renaming} {ts ts' : List Token} {s s' : State}

namespace Alike

theorem size (h : Alike ρ ts ts' s s') : s'.cursor.body.size = s.cursor.body.size := by
  have hlength := congrArg List.length h.same
  rw [List.length_map, List.length_map, ← h.tokens, ← h.tokens', Cursor.length_toList,
    Cursor.length_toList] at hlength
  omega

/-- Whichever token is looked at, it is the other state's token of the same index. -/
theorem twins (h : Alike ρ ts ts' s s') (n : Nat) :
    Twins ρ ts ts' (s.cursor.peek n) (s'.cursor.peek n) := by
  have hleft := s.cursor.getElem?_toList_peek n
  have hright := s'.cursor.getElem?_toList_peek n
  rw [h.tokens] at hleft
  rw [h.tokens', h.pos, h.size] at hright
  have hsame := congrArg (fun l => l[min (s.cursor.pos + n) s.cursor.body.size]?) h.same
  simp only [List.getElem?_map, hleft, hright, Option.map_some, Option.some.injEq] at hsame
  exact ⟨⟨_, hleft, hright⟩, congrArg Prod.fst hsame, congrArg Prod.snd hsame⟩

theorem current (h : Alike ρ ts ts' s s') : Twins ρ ts ts' s.current s'.current := h.twins 0

theorem position (h : Alike ρ ts ts' s s') : SamePlace ρ ts ts' s.position s'.position :=
  ⟨_, _, h.current, rfl, rfl⟩

theorem setScope (h : Alike ρ ts ts' s s') {scope scope' : Scope} (hscope : scope' = scope.rename ρ) :
    Alike ρ ts ts' { s with scope := scope } { s' with scope := scope' } :=
  { h with scope := hscope }

end Alike

theorem Twins.value_of_identifier {t t' : Token} (h : Twins ρ ts ts' t t')
    (hkind : t.kind = .identifier) : t'.value = ρ t.value := by
  rw [h.value, Token.renamed, if_pos hkind]

theorem Twins.value_of_ne {t t' : Token} (h : Twins ρ ts ts' t t') (hkind : t.kind ≠ .identifier) :
    t'.value = t.value := by
  rw [h.value, Token.renamed, if_neg hkind]

instance : Lockstep (Alike ρ ts ts') (SameFault ρ ts ts') where
  pos h := h.pos
  left h := by rw [Cursor.tokensLeft, h.size, h.pos, Cursor.tokensLeft]
  kind n h := (h.twins n).kind
  depth h := h.depth
  advance {s s'} h := { h with
    tokens := by rw [← h.tokens]; exact s.cursor.toList_advance
    tokens' := by rw [← h.tokens']; exact s'.cursor.toList_advance
    pos := by
      show s'.cursor.advance.pos = s.cursor.advance.pos
      rw [Cursor.pos_advance, Cursor.pos_advance, h.pos, show s'.cursor.current.kind = _ from
        h.current.kind]
      rfl }
  seek {s s'} pos h := { h with
    pos := by
      show min pos s'.cursor.body.size = min pos s.cursor.body.size
      rw [h.size] }
  setDepth depth h := { h with depth := rfl }
  unexpected h := .token h.current
  tooDeep h := .names h.position _

/-- Both rules come out alike, and if they succeed, the second gives what the map makes of what the
first gives. -/
abbrev Renames (ρ : Renaming) (ts ts' : List Token) {α β : Type} (g : α → β) (r : Rule α)
    (r' : Rule β) : Prop :=
  Rule.Paired (Alike ρ ts ts') (SameFault ρ ts ts') (fun a b => b = g a) r r'

end Lists

/-! ## 4. Expressions -/

namespace Grammar

open Rule

variable {ρ : Renaming} {ts ts' : List Token}

theorem Renames.scope : Renames ρ ts ts' (Scope.rename ρ) scope scope :=
  .look fun h => h.scope

theorem Renames.expect {kind : Token.Kind} :
    Paired (Alike ρ ts ts') (SameFault ρ ts ts')
      (fun t t' => Twins ρ ts ts' t t' ∧ t.kind = kind) (expect kind) (expect kind) :=
  .expect fun h hkind => ⟨h.current, hkind⟩

theorem Renames.advance :
    Paired (Alike ρ ts ts') (SameFault ρ ts ts') (Twins ρ ts ts') advance advance :=
  .advance fun h => h.current

theorem Renames.fail {α β : Type} {g : α → β} (cause : Cause) :
    Renames ρ ts ts' g (fail cause) (fail (cause.rename ρ)) :=
  .fail fun h => .names h.position cause

theorem renames_primary : Renames ρ ts ts' (Expr.rename ρ) primary primary := by
  unfold primary
  refine .bind (.look fun h => h.current) fun t t' htwins => ?_
  rw [htwins.kind]
  cases hkind : t.kind with
  | identifier =>
    rw [htwins.value_of_identifier hkind]
    refine .bind_map Renames.scope fun names => ?_
    refine .ite (by simp) ?_ (Renames.fail _)
    exact .bind Renames.advance fun _ _ _ => .pure rfl
  | number =>
    rw [htwins.value_of_ne (by simp [hkind])]
    cases Literal.read t.value with
    | ok value => exact .bind Renames.advance fun _ _ _ => .pure rfl
    | error _ => exact Renames.fail _
  | dash => exact Renames.fail _
  | _ => exact .unexpected

section Circle

variable {arg : Rule Expr}

theorem renames_argumentsFrom (h : Renames ρ ts ts' (Expr.rename ρ) arg arg) :
    ∀ rounds, Renames ρ ts ts' (Expr.renameArgs ρ) (argumentsFrom arg rounds)
      (argumentsFrom arg rounds)
  | 0 => .unexpected
  | rounds + 1 => by
    unfold argumentsFrom
    refine .bind_map h fun first => .bind_map .currentKind fun kind => ?_
    refine .ite Iff.rfl ?_ (.pure rfl)
    refine .bind Renames.advance fun _ _ _ => ?_
    exact .bind_map (renames_argumentsFrom h rounds) fun more => .pure rfl

theorem renames_arguments (h : Renames ρ ts ts' (Expr.rename ρ) arg arg) :
    Renames ρ ts ts' (Expr.renameArgs ρ) (arguments arg) (arguments arg) := by
  unfold arguments
  refine .bind_map .currentKind fun kind => .ite Iff.rfl (.pure rfl) ?_
  exact .bind_map .tokensLeft fun rounds => renames_argumentsFrom h rounds

theorem renames_callWith (h : Renames ρ ts ts' (Expr.rename ρ) arg arg) :
    Renames ρ ts ts' (Expr.rename ρ) (callWith arg) (callWith arg) := by
  unfold callWith
  refine .backtrack (.bind (.look fun h => h.position) fun start start' hplace => ?_)
  refine .bind Renames.expect fun callee callee' ⟨htwins, hkind⟩ => ?_
  rw [htwins.value_of_identifier hkind]
  refine .bind_map Renames.scope fun names => ?_
  rw [Scope.arity?_rename]
  cases names.arity? callee.value with
  | none => exact .failAt (.names hplace (.unknownFunction callee.value))
  | some arity =>
    refine .bind Renames.expect fun _ _ _ => ?_
    refine .bind_map (.deeper (renames_arguments h)) fun args => ?_
    refine .bind Renames.expect fun _ _ _ => ?_
    rw [Expr.length_renameArgs]
    refine .ite Iff.rfl (.pure rfl) ?_
    exact .failAt (.names hplace (.argumentCount callee.value arity args.length))

theorem renames_operandWith (h : Renames ρ ts ts' (Expr.rename ρ) arg arg) :
    Renames ρ ts ts' (Expr.rename ρ) (operandWith arg) (operandWith arg) := by
  unfold operandWith
  refine .attempt_bind renames_primary ?_ fun noPrimary noPrimary' hprimary => ?_
  · rintro operand _ rfl
    exact .pure rfl
  refine .bind_map (.peekKind 1) fun kind => ?_
  refine .attempt_bind (renames_callWith h) ?_ fun noCall noCall' hcall => ?_
  · rintro operand _ rfl
    exact .pure rfl
  · refine .throw ?_
    split
    · exact hcall
    · exact hprimary

theorem renames_chain {operator? : Token.Kind → Option Operator}
    (h : Renames ρ ts ts' (Expr.rename ρ) arg arg) :
    ∀ rounds left, Renames ρ ts ts' (Expr.rename ρ) (chain operator? arg rounds left)
      (chain operator? arg rounds (left.rename ρ))
  | 0, left => .pure rfl
  | rounds + 1, left => by
    unfold chain
    refine .bind_map .currentKind fun kind => ?_
    cases operator? kind with
    | none => exact .pure rfl
    | some op =>
      refine .bind Renames.advance fun _ _ _ => .bind_map h fun right => ?_
      exact renames_chain h rounds (.binary op left right)

theorem renames_multiplicativeWith (h : Renames ρ ts ts' (Expr.rename ρ) arg arg) :
    Renames ρ ts ts' (Expr.rename ρ) (multiplicativeWith arg) (multiplicativeWith arg) :=
  .backtrack (.bind_map (renames_operandWith h) fun left => .bind_map .tokensLeft fun rounds =>
    renames_chain (renames_operandWith h) rounds left)

theorem renames_additiveWith (h : Renames ρ ts ts' (Expr.rename ρ) arg arg) :
    Renames ρ ts ts' (Expr.rename ρ) (additiveWith arg) (additiveWith arg) :=
  .backtrack (.bind_map (renames_multiplicativeWith h) fun left =>
    .bind_map .tokensLeft fun rounds => renames_chain (renames_multiplicativeWith h) rounds left)

/-- Whether a variable is assigned to is a matter of the kinds ahead and of which names are equal. -/
theorem atAssignment_of_alike {s s' : State} (h : Alike ρ ts ts' s s') :
    atAssignment s' = atAssignment s := by
  unfold Grammar.atAssignment
  rw [h.current.kind, (h.twins 1).kind, h.scope]
  by_cases hkind : s.current.kind = .identifier
  · rw [h.current.value_of_identifier hkind, Scope.isVariable_rename]
  · have hno : (s.current.kind == .identifier) = false := by simpa using hkind
    simp [hno]

theorem renames_assignmentWith (h : Renames ρ ts ts' (Expr.rename ρ) arg arg) :
    Renames ρ ts ts' (Expr.rename ρ) (assignmentWith arg) (assignmentWith arg) := by
  unfold assignmentWith
  refine .backtrack fun s s' hs => ?_
  -- The name that is assigned to is the current token's, so the first two steps are taken at the
  -- states themselves.
  simp only [look_bind_apply, atAssignment_of_alike hs]
  split
  · next here =>
    have hkind : s.current.kind = .identifier := by
      simp only [atAssignment, Bool.and_eq_true, beq_iff_eq] at here
      exact here.1.1
    have hvalue := hs.current.value_of_identifier hkind
    simp only [look_bind_apply, advance_bind_apply, hvalue, hs.pos]
    refine Paired.attempt_bind (renames_additiveWith h) ?_ ?_
      (Lockstep.advance (Lockstep.advance hs))
    · rintro value _ rfl
      exact .pure rfl
    · intro _ _ _
      exact .bind (.seek _) fun _ _ _ => renames_additiveWith h
  · exact renames_additiveWith h hs

end Circle

theorem renames_argument : ∀ levels, Renames ρ ts ts' (Expr.rename ρ) (argument levels)
    (argument levels)
  | 0 => Renames.fail (.nestedTooDeep maxNesting)
  | levels + 1 => renames_assignmentWith (renames_argument levels)

theorem renames_assignment : Renames ρ ts ts' (Expr.rename ρ) assignment assignment := by
  intro s s' hs
  unfold assignment atLevel
  rw [hs.depth]
  exact renames_assignmentWith (renames_argument _) hs

/-! ## 5. Statements and functions -/

theorem renames_expressionStmt : Renames ρ ts ts' (Stmt.rename ρ) expressionStmt expressionStmt := by
  unfold expressionStmt
  refine .backtrack (.bind_map .currentKind fun kind => .ite Iff.rfl ?_ ?_)
  · exact .bind Renames.advance fun _ _ _ => .pure rfl
  · refine .bind_map renames_assignment fun value => ?_
    exact .bind Renames.expect fun _ _ _ => .pure rfl

theorem renames_returnStmt : Renames ρ ts ts' (Stmt.rename ρ) returnStmt returnStmt := by
  unfold returnStmt
  refine .backtrack (.bind Renames.expect fun _ _ _ => ?_)
  refine .bind_map renames_assignment fun value => ?_
  exact .bind Renames.expect fun _ _ _ => .pure rfl

theorem renames_stmt : Renames ρ ts ts' (Stmt.rename ρ) stmt stmt :=
  .bind_map .currentKind fun _ => .ite Iff.rfl renames_returnStmt renames_expressionStmt

/-- The statements are renamed, and the failures that end them are the same fault. -/
theorem paired_stmtsFrom : ∀ rounds, Paired (Alike ρ ts ts') (SameFault ρ ts ts')
    (fun x y => y.1 = x.1.map (Stmt.rename ρ) ∧ SameFault ρ ts ts' x.2 y.2)
    (stmtsFrom rounds) (stmtsFrom rounds)
  | 0 => .bind (.look Lockstep.unexpected) fun _ _ hstop => .pure ⟨rfl, hstop⟩
  | rounds + 1 => by
    unfold stmtsFrom
    refine .attempt_bind renames_stmt ?_ fun stop stop' hstop => .pure ⟨rfl, hstop⟩
    rintro first _ rfl
    refine .bind (paired_stmtsFrom rounds) ?_
    rintro ⟨more, stop⟩ ⟨_, stop'⟩ ⟨rfl, hstop⟩
    exact .pure ⟨rfl, hstop⟩

theorem renames_paramsFrom : ∀ earlier rounds, Renames ρ ts ts' (List.map ρ)
    (paramsFrom earlier rounds) (paramsFrom (earlier.map ρ) rounds)
  | _, 0 => .unexpected
  | earlier, rounds + 1 => by
    unfold paramsFrom
    refine .bind Renames.expect fun _ _ _ => ?_
    refine .bind Renames.expect fun param param' ⟨htwins, hkind⟩ => ?_
    rw [htwins.value_of_identifier hkind, Renaming.contains_map]
    refine .ite Iff.rfl (.failAt (.names ⟨_, _, htwins, rfl, rfl⟩ (.repeatedParameter _))) ?_
    refine .bind_map .currentKind fun kind => .ite Iff.rfl ?_ (.pure rfl)
    refine .bind Renames.advance fun _ _ _ => ?_
    have hmore := renames_paramsFrom (earlier ++ [param.value]) rounds
    rw [List.map_append] at hmore
    exact .bind_map hmore fun more => .pure rfl

theorem renames_prototype : Renames ρ ts ts' (Prototype.rename ρ) prototype prototype := by
  unfold prototype
  refine .backtrack (.bind Renames.expect fun _ _ _ => ?_)
  refine .bind Renames.expect fun name name' ⟨htwins, hkind⟩ => ?_
  rw [htwins.value_of_identifier hkind]
  refine .bind Renames.expect fun _ _ _ => .bind_map .currentKind fun kind => ?_
  have hrest (params : List String) : Renames ρ ts ts' (Prototype.rename ρ)
      (do let _ ← expect .closeParen; return ⟨name.value, params⟩)
      (do let _ ← expect .closeParen; return ⟨ρ name.value, params.map ρ⟩) :=
    .bind Renames.expect fun _ _ _ => .pure rfl
  refine .ite Iff.rfl ?_ (.bind_map (g := List.map ρ) (.pure rfl) hrest)
  exact .bind_map .tokensLeft fun rounds => .bind_map (renames_paramsFrom [] rounds) hrest

theorem renames_varDecl : Renames ρ ts ts' (VarDecl.rename ρ) varDecl varDecl := by
  unfold varDecl
  refine .backtrack (.bind Renames.expect fun _ _ _ => ?_)
  refine .bind Renames.expect fun name name' ⟨htwins, hkind⟩ => ?_
  rw [htwins.value_of_identifier hkind]
  exact .bind Renames.expect fun _ _ _ => .pure rfl

theorem paired_enterVariable {start start' : Position} (hplace : SamePlace ρ ts ts' start start')
    (name : String) : Paired (Alike ρ ts ts') (SameFault ρ ts ts') (fun _ _ => True)
      (enterVariable start name) (enterVariable start' (ρ name)) := by
  unfold enterVariable
  refine .bind_map Renames.scope fun names => ?_
  rw [Scope.declareVariable_rename]
  cases names.declareVariable name with
  | ok changed => exact .update fun h => h.setScope rfl
  | error cause => exact .failAt (.names hplace cause)

theorem renames_varDeclsFrom : ∀ rounds, Renames ρ ts ts' (List.map (VarDecl.rename ρ))
    (varDeclsFrom rounds) (varDeclsFrom rounds)
  | 0 => .pure rfl
  | rounds + 1 => by
    unfold varDeclsFrom
    refine .bind_map .currentKind fun kind => .ite Iff.rfl ?_ (.pure rfl)
    refine .bind (.look fun h => h.position) fun start start' hplace => ?_
    refine .bind_map renames_varDecl fun decl => ?_
    refine .bind (paired_enterVariable hplace decl.name) fun _ _ _ => ?_
    exact .bind_map (renames_varDeclsFrom rounds) fun more => .pure rfl

theorem renames_body (p : Prototype) :
    Renames ρ ts ts' (Body.rename ρ) (body p) (body (p.rename ρ)) := by
  unfold body
  refine .backtrack (.bind Renames.expect fun _ _ _ => ?_)
  refine .bind (.update fun h => h.setScope ?_) fun _ _ _ => ?_
  · rw [h.scope, Scope.enter_rename]
  refine .bind_map .tokensLeft fun rounds => .bind_map (renames_varDeclsFrom rounds) fun decls => ?_
  refine .bind_map .tokensLeft fun rounds => .bind (paired_stmtsFrom rounds) ?_
  rintro ⟨stmts, stop⟩ ⟨_, stop'⟩ ⟨rfl, hstop⟩
  refine .bind_map .currentKind fun kind => .ite Iff.rfl ?_ (.throw hstop)
  refine .ite ?_ ?_ (Renames.fail (.missingReturn p.name))
  · rw [List.getLast?_map]
    cases stmts.getLast? <;> simp
  · refine .bind Renames.expect fun _ _ _ => .pure ?_
    simp [Body.rename, Prototype.rename, VarDecl.rename]

theorem renames_declaration (p : Prototype) :
    Renames ρ ts ts' (Prototype.rename ρ) (declaration p) (declaration (p.rename ρ)) := by
  unfold declaration
  refine .backtrack (.bind (.look fun h => h.position) fun start start' hplace => ?_)
  refine .bind Renames.expect fun _ _ _ => .bind_map Renames.scope fun names => ?_
  rw [Scope.checkPrototype_rename]
  cases names.checkPrototype p with
  | ok _ =>
    refine .bind (.update fun h => h.setScope ?_) fun _ _ _ => .pure rfl
    rw [h.scope, Scope.declare_rename]
  | error cause => exact .failAt (.names hplace cause)

theorem renames_definition (p : Prototype) :
    Renames ρ ts ts' (FunctionDef.rename ρ) (definition p) (definition (p.rename ρ)) := by
  unfold definition
  refine .backtrack (.bind_map Renames.scope fun names => ?_)
  rw [Scope.checkPrototype_rename]
  cases names.checkPrototype p with
  | ok _ =>
    refine .bind_map (renames_body p) fun body => ?_
    refine .bind (.update fun h => h.setScope ?_) fun _ _ _ => .pure rfl
    rw [h.scope, Scope.define_rename]
  | error cause => exact Renames.fail cause

/-! ## 6. Whole sources -/

theorem renames_external : Renames ρ ts ts' (External.rename ρ) external external := by
  unfold external
  refine .backtrack (.bind_map renames_prototype fun p => .bind_map .currentKind fun kind => ?_)
  cases kind with
  | semicolon => exact .bind_map (renames_declaration p) fun _ => .pure rfl
  | openCurly => exact .bind_map (renames_definition p) fun _ => .pure rfl
  | _ => exact .unexpected

theorem renames_externalsFrom : ∀ rounds, Renames ρ ts ts' (List.map (External.rename ρ))
    (externalsFrom rounds) (externalsFrom rounds)
  | 0 => .pure rfl
  | rounds + 1 => by
    unfold externalsFrom
    refine .bind_map .currentKind fun kind => .ite Iff.rfl (.pure rfl) ?_
    refine .bind_map renames_external fun first => ?_
    exact .bind_map (renames_externalsFrom rounds) fun more => .pure rfl

theorem initialProgram_rename (ρ : Renaming) : initialProgram.rename ρ = initialProgram := by
  simp [initialProgram, Program.rename, Scope.predeclared_rename]

theorem renames_externals : Renames ρ ts ts' (Program.rename ρ)
    (do return initialProgram.addAll (← externalsFrom (← tokensLeft)))
    (do return initialProgram.addAll (← externalsFrom (← tokensLeft))) := by
  refine .bind_map .tokensLeft fun rounds => .bind_map (renames_externalsFrom rounds) fun ds => ?_
  refine .pure ?_
  rw [Program.addAll_rename, initialProgram_rename]

/-- Both sources are read from states that are alike. -/
theorem alike_rewind (hsame : ts'.map (fun t => (t.kind, t.value)) = ts.map (Token.renamed ρ))
    (hend : ts.getLast?.map Token.kind = some .eof) (file file' : String) :
    Alike ρ ts ts' (rewind (.start ts file)) (rewind (.start ts' file')) := by
  have hend' : ts'.getLast?.map Token.kind = some .eof := by
    have hlast := congrArg (fun l => l.getLast?.map Prod.fst) hsame
    simp only [List.getLast?_map, Option.map_map] at hlast
    exact hlast.trans hend
  refine ⟨?_, ?_, hsame, ?_, rfl, (Scope.initial_rename ρ).symm⟩
  · exact (Cursor.toList_ofList ts).trans (if_pos hend)
  · exact (Cursor.toList_ofList ts').trans (if_pos hend')
  · exact (Nat.zero_min _).trans (Nat.zero_min _).symm

end Grammar

open Grammar in
/-- **Two parses of renamed tokens go the same way**, wherever the tokens stand: the programs are the
same but for the names, or there is the same fault in both. -/
theorem ofTokens_alike {ρ : Renaming} {ts ts' : List Token}
    (hsame : ts'.map (fun t => (t.kind, t.value)) = ts.map (Token.renamed ρ))
    (hend : ts.getLast?.map Token.kind = some .eof) (file file' : String) :
    (∃ u, Program.ofTokens ts file = .ok u ∧ Program.ofTokens ts' file' = .ok (u.rename ρ)) ∨
      ∃ e e', Program.ofTokens ts file = .error e ∧ Program.ofTokens ts' file' = .error e' ∧
        SameFault ρ ts ts' e e' := by
  have hruns := Rule.Paired.backtrack renames_externals (alike_rewind hsame hend file file')
  unfold Program.ofTokens program
  rcases hruns.cases with ⟨u, u', t, t', hr, hr', rfl, -⟩ | ⟨e, e', t, t', hr, hr', hfault, -⟩
  · rw [hr, hr']
    exact .inl ⟨u, rfl, rfl⟩
  · rw [hr, hr']
    exact .inr ⟨e, e', rfl, rfl, hfault⟩

end IntC
