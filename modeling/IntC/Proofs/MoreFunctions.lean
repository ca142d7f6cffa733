/-
# More functions in scope

What can be read with some functions in scope can be read with more.  For the trees this is clear:
a call of a known function stays one.  For the rules it is not, because they go on from failures.
An assignment whose value cannot be read is given up and its name read alone, and statements end at
the first one that fails.  With one more function the value, or one more statement, may be read
after all, and then the rule for assignments gives another tree.

Where a semicolon has to follow, and a closing brace in the end, this cannot happen.  A name that is
read alone has the `=` behind it and not the semicolon, and at a closing brace no statement starts.

* `Widens`: the second state has the functions of the first, and maybe more.
* `Carries`: what the rule reads from the first state, it reads from the second.
* `carries_stmts_closeCurly`, `carries_body`: the same for bodies, where the statements that fail at
  the brace need not fail in the same way.
* `rule_of_widens`: all rules but those for assignments and for declarations.
-/
import IntC.Proofs.Nesting

namespace IntC

variable {α β : Type}

/-! ## 1. States with more functions -/

/-- The states are at the same token, inside the same argument lists and with the same variables in
scope, and every function of the first is known in the second. -/
structure Widens (s s' : State) : Prop where
  cursor : s'.cursor = s.cursor
  depth : s'.depth = s.depth
  vars : s'.scope.vars = s.scope.vars
  arity? : ∀ name n, s.scope.arity? name = some n → s'.scope.arity? name = some n

namespace Widens

variable {s s' t : State}

theorem current (h : Widens s s') : s'.current = s.current := by
  rw [State.current, h.cursor, State.current]

theorem advance (h : Widens s s') : Widens s.advance s'.advance :=
  { h with cursor := congrArg Cursor.advance h.cursor }

/-- Other variables make no difference to the functions. -/
theorem withVars (h : Widens s s') (vars : List String) :
    Widens (s.withVars vars) (s'.withVars vars) :=
  { h with vars := rfl }

/-- The lexemes at the first state are at the second. -/
theorem reads {ls : List Lexeme} (h : Widens s s') (hreads : s.Reads ls t) :
    ∃ t', s'.Reads ls t' ∧ Widens t t' := by
  refine ⟨{ s' with cursor := t.cursor }, ⟨h.cursor ▸ hreads.1, rfl⟩, rfl, ?_, ?_, ?_⟩
  · exact h.depth.trans hreads.depth_eq.symm
  · rw [hreads.scope_eq]
    exact h.vars
  · rw [hreads.scope_eq]
    exact h.arity?

theorem knownIn {e : Expr} (h : Widens s s') (he : e.KnownIn s.scope) : e.KnownIn s'.scope := by
  refine ⟨fun x hx => ?_, fun f args hf => ?_⟩
  · rw [h.vars]
    exact he.vars x hx
  · obtain ⟨hfree, harity⟩ := he.calls f args hf
    rw [h.vars]
    exact ⟨hfree, h.arity? f _ harity⟩

theorem admissible {e : Expr} {levels least : Nat} (h : Widens s s')
    (he : e.Admissible s.scope levels least) : e.Admissible s'.scope levels least :=
  ⟨he.shape, h.knownIn he.known, he.height⟩

end Widens

namespace Rule

/-- What the rule reads from a state, it reads where more functions are in scope. -/
def Carries (r : Rule α) : Prop :=
  ∀ ⦃s s' : State⦄, Widens s s' → ∀ ⦃a : α⦄ ⦃t : State⦄, r s = .ok a t →
    ∃ t', r s' = .ok a t' ∧ Widens t t'

namespace Carries

variable {r : Rule α} {f : α → Rule β}

theorem bind (hr : Carries r) (hf : ∀ a, Carries (f a)) : Carries (r >>= f) := by
  intro s s' h b t hb
  obtain ⟨a, u, ha, hrest⟩ := bind_eq_ok_iff.mp hb
  obtain ⟨u', ha', hu⟩ := hr h ha
  obtain ⟨t', hrest', ht⟩ := hf a hu hrest
  exact ⟨t', bind_eq_ok_iff.mpr ⟨a, u', ha', hrest'⟩, ht⟩

theorem pure (a : α) : Carries (pure a : Rule α) := by
  rintro s s' h _ _ ⟨⟩
  exact ⟨s', rfl, h⟩

theorem map (g : α → β) (hr : Carries r) : Carries (g <$> r) := by
  rw [← bind_pure_comp]
  exact hr.bind fun a => .pure _

theorem look {g : State → α} (hg : ∀ {s s'}, Widens s s' → g s' = g s) : Carries (look g) := by
  rintro s s' h _ _ ⟨⟩
  exact ⟨s', by rw [Rule.look, hg h], h⟩

theorem currentKind : Carries currentKind := .look fun h => by rw [h.current]

theorem tokensLeft : Carries tokensLeft := .look fun h => by rw [h.cursor]

theorem position : Carries position :=
  .look fun h => by rw [State.position, h.current, State.position]

theorem advance : Carries advance := by
  rintro s s' h _ _ ⟨⟩
  exact ⟨s'.advance, by rw [Rule.advance, h.current], h.advance⟩

theorem expect (kind : Token.Kind) : Carries (expect kind) := by
  intro s s' h token t hr
  obtain ⟨hkind, rfl, rfl⟩ := expect_eq_ok_iff.mp hr
  have hcurrent := h.current
  exact ⟨s'.advance, expect_eq_ok_iff.mpr ⟨hcurrent ▸ hkind, hcurrent.symm, rfl⟩, h.advance⟩

theorem backtrack (hr : Carries r) : Carries (backtrack r) := by
  intro s s' h a t ha
  obtain ⟨t', ha', ht⟩ := hr h (backtrack_eq_ok_iff.mp ha)
  exact ⟨t', backtrack_eq_ok_iff.mpr ha', ht⟩

theorem fail (cause : Cause) : Carries (fail cause : Rule α) := fun _ _ _ _ _ hr => nomatch hr

/-- A rule that is known to read certain lexemes, under a condition that more functions and the same
place keep, reads them in both states. -/
theorem of_reads {yield : α → List Lexeme} {P : State → α → State → Prop}
    (hr : ∀ {s a t}, r s = .ok a t ↔ s.Reads (yield a) t ∧ P s a t)
    (hP : ∀ {s s' a t t'}, Widens s s' → Widens t t' → P s a t → P s' a t') : Carries r := by
  intro s s' h a t ha
  obtain ⟨hreads, hcond⟩ := hr.mp ha
  obtain ⟨t', hreads', ht⟩ := h.reads hreads
  exact ⟨t', hr.mpr ⟨hreads', hP h ht hcond⟩, ht⟩

end Carries

end Rule

namespace Grammar

open Rule

/-! ## 2. Expressions and statements -/

theorem carries_primary : Carries primary :=
  .of_reads primary_eq_ok_iff fun h _ hadm => h.admissible hadm

theorem carries_operand : Carries operand :=
  .of_reads operand_eq_ok_iff fun h _ hadm => h.depth ▸ h.admissible hadm

theorem carries_multiplicative : Carries multiplicative := by
  refine .of_reads multiplicative_eq_ok_iff ?_
  rintro s s' e t t' h ht ⟨hadm, hstop⟩
  rw [h.depth, ht.current]
  exact ⟨h.admissible hadm, hstop⟩

theorem carries_additive : Carries additive := by
  refine .of_reads additive_eq_ok_iff ?_
  rintro s s' e t t' h ht ⟨hadm, hstop⟩
  rw [h.depth, NoOperator, ht.current]
  exact ⟨h.admissible hadm, hstop⟩

theorem carries_call : Carries call := by
  intro s s' h e t hr
  obtain ⟨f, args, rfl, hreads, harity, hargs, hheight⟩ := call_eq_ok_iff.mp hr
  obtain ⟨t', hreads', ht⟩ := h.reads hreads
  refine ⟨t', call_eq_ok_iff.mpr ⟨f, args, rfl, hreads', h.arity? f _ harity, ?_, ?_⟩, ht⟩
  · intro arg harg
    exact ⟨(hargs arg harg).1, h.knownIn (hargs arg harg).2⟩
  · rw [h.depth]
    exact hheight

/-- In front of a semicolon no assignment has been given up. -/
theorem carries_assignment_semicolon (f : Expr → α) :
    Carries (do let value ← assignment
                let _ ← expect .semicolon
                return f value : Rule α) := by
  intro s s' h a t hr
  obtain ⟨value, rfl, hreads, hadm⟩ := assignment_semicolon_eq_ok_iff.mp hr
  obtain ⟨t', hreads', ht⟩ := h.reads hreads
  refine ⟨t', assignment_semicolon_eq_ok_iff.mpr ⟨value, rfl, hreads', ?_⟩, ht⟩
  rw [h.depth]
  exact h.admissible hadm

theorem carries_expressionStmt : Carries expressionStmt := by
  unfold expressionStmt
  refine .backtrack (.bind .currentKind fun kind => ?_)
  split
  · exact .bind .advance fun _ => .pure _
  · exact carries_assignment_semicolon _

theorem carries_returnStmt : Carries returnStmt :=
  .backtrack (.bind (.expect _) fun _ => carries_assignment_semicolon _)

theorem carries_stmt : Carries stmt := by
  unfold stmt
  refine .bind .currentKind fun kind => ?_
  split
  · exact carries_returnStmt
  · exact carries_expressionStmt

/-- Statements that end at a closing brace: there the next one fails in both states. -/
theorem stmtsFrom_of_widens : ∀ (rounds : Nat) {s s' t : State} {stmts : List Stmt}
    {stop : Diagnostic}, Widens s s' → stmtsFrom rounds s = .ok (stmts, stop) t →
      t.current.kind = .closeCurly →
      ∃ stop' t', stmtsFrom rounds s' = .ok (stmts, stop') t' ∧ Widens t t'
  | 0, s, s', t, stmts, stop, h, hr, ht => by
    rw [stmtsFrom, look_bind_eq_ok_iff, pure_eq_ok_iff] at hr
    obtain ⟨heq, rfl⟩ := hr
    obtain ⟨rfl, -⟩ := Prod.mk.inj heq
    exact ⟨s'.unexpected, s', rfl, h⟩
  | rounds + 1, s, s', t, stmts, stop, h, hr, ht => by
    rw [stmtsFrom, attempt_bind_eq_ok_iff] at hr
    simp only [stmtsFrom, attempt_bind_eq_ok_iff]
    rcases hr with ⟨first, u, hfirst, hrest⟩ | ⟨e, u, hfail, hend⟩
    · obtain ⟨⟨more, stop'⟩, v, hmore, hend⟩ := bind_eq_ok_iff.mp hrest
      obtain ⟨heq, rfl⟩ := pure_eq_ok_iff.mp hend
      obtain ⟨rfl, rfl⟩ := Prod.mk.inj heq
      obtain ⟨u', hfirst', hu⟩ := carries_stmt h hfirst
      obtain ⟨stop', t', hmore', ht'⟩ := stmtsFrom_of_widens rounds hu hmore ht
      exact ⟨stop', t', .inl ⟨first, u', hfirst', bind_eq_ok_iff.mpr ⟨_, t', hmore', rfl⟩⟩, ht'⟩
    · obtain ⟨heq, rfl⟩ := pure_eq_ok_iff.mp hend
      obtain ⟨rfl, -⟩ := Prod.mk.inj heq
      obtain rfl := within_stmt.eq_of_error undoes_stmt hfail
      have hclose : s'.current.kind = .closeCurly := by rw [h.current, ht]
      obtain ⟨stop', hstop⟩ := stmt_at_closeCurly hclose
      exact ⟨stop', s', .inr ⟨stop', s', hstop, rfl⟩, h⟩

/-! ## 3. Signatures and bodies -/

theorem carries_prototype : Carries prototype :=
  .of_reads prototype_eq_ok_iff fun _ _ hnodup => hnodup

theorem carries_varDecl : Carries varDecl := .of_reads varDecl_eq_ok_iff fun _ _ hrole => hrole

theorem carries_enterVariable (start : Position) (name : String) :
    Carries (enterVariable start name) := by
  rintro s s' h ⟨⟩ t hr
  obtain ⟨hfree, rfl⟩ := enterVariable_eq_ok_iff.mp hr
  refine ⟨_, enterVariable_eq_ok_iff.mpr ⟨?_, rfl⟩, ?_⟩
  · rwa [h.vars]
  · rw [h.vars]
    exact h.withVars _

theorem carries_varDeclsFrom : ∀ rounds, Carries (varDeclsFrom rounds)
  | 0 => .pure _
  | rounds + 1 => by
    unfold varDeclsFrom
    refine .bind .currentKind fun kind => ?_
    split
    · exact .bind .position fun start => .bind carries_varDecl fun decl =>
        .bind (carries_enterVariable _ _) fun _ =>
          .bind (carries_varDeclsFrom rounds) fun _ => .pure _
    · exact .pure _

/-- Up to the closing brace the statements are the same ones. -/
theorem carries_stmts_closeCurly (name : String) (decls : List VarDecl) :
    Carries (do let (stmts, stop) ← stmtsFrom (← tokensLeft)
                if (← currentKind) = .closeCurly then
                  if stmts.getLast?.any Stmt.isReturn then
                    let _ ← expect .closeCurly
                    return { decls, stmts }
                  else fail (.missingReturn name)
                else throw stop : Rule Body) := by
  refine .bind .tokensLeft fun rounds => ?_
  intro s s' h b t hr
  obtain ⟨⟨stmts, stop⟩, u, hstmts, hend⟩ := bind_eq_ok_iff.mp hr
  simp only [currentKind, look_bind_eq_ok_iff] at hend
  by_cases hclose : u.current.kind = .closeCurly
  · rw [if_pos hclose] at hend
    obtain ⟨stop', u', hstmts', hu⟩ := stmtsFrom_of_widens rounds h hstmts hclose
    have hreturn : Carries (if stmts.getLast?.any Stmt.isReturn then do
        let _ ← expect .closeCurly
        return { decls, stmts }
      else fail (.missingReturn name) : Rule Body) := by
      split
      · exact .bind (.expect _) fun _ => .pure _
      · exact .fail _
    obtain ⟨t', hend', ht⟩ := hreturn hu hend
    refine ⟨t', bind_eq_ok_iff.mpr ⟨(stmts, stop'), u', hstmts', ?_⟩, ht⟩
    simp only [currentKind, look_bind_eq_ok_iff]
    rwa [if_pos (by rw [hu.current, hclose])]
  · rw [if_neg hclose] at hend
    exact absurd hend throw_ne_ok

theorem carries_body (p : Prototype) : Carries (body p) := by
  have henter : Carries (update fun scope => scope.enter p) := by
    rintro s s' h _ _ ⟨⟩
    exact ⟨s'.withVars p.params, rfl, h.withVars _⟩
  unfold body
  exact .backtrack (.bind (.expect _) fun _ => .bind henter fun _ => .bind .tokensLeft fun rounds =>
    .bind (carries_varDeclsFrom rounds) fun decls => carries_stmts_closeCurly _ _)

end Grammar

namespace Session

open Rule Grammar

/-- The rule is one for signatures, bodies, variables, statements or expressions, but not the one
that gives an assignment up. -/
def Nonterminal.carries : Nonterminal → Bool
  | program | external | declaration _ | definition _ | assignment => false
  | body _ | prototype | varDecl | stmt | expressionStmt | returnStmt => true
  | additive | multiplicative | operand | call | primary => true

theorem Nonterminal.carries_rule {n : Nonterminal} (hn : n.carries = true) : Carries n.rule := by
  cases n with
  | program | external | declaration | definition | assignment => cases hn
  | body p => exact (carries_body p).map _
  | prototype => exact carries_prototype.map _
  | varDecl => exact carries_varDecl.map _
  | stmt => exact carries_stmt.map _
  | expressionStmt => exact carries_expressionStmt.map _
  | returnStmt => exact carries_returnStmt.map _
  | additive => exact carries_additive.map _
  | multiplicative => exact carries_multiplicative.map _
  | operand => exact carries_operand.map _
  | call => exact carries_call.map _
  | primary => exact carries_primary.map _

/-- **More functions break nothing.**  What the rule for a body, a statement, a sum, a product, an
operand or a call reads from a state, it reads from every state with the same variables and more
functions, as the same tree and up to the same token. -/
theorem rule_of_widens {n : Nonterminal} (hn : n.carries = true) {s s' : State} (h : Widens s s')
    {node : Node} {t : State} (hr : n.rule s = .ok node t) :
    ∃ t', n.rule s' = .ok node t' ∧ t'.cursor = t.cursor := by
  obtain ⟨t', hr', ht⟩ := Nonterminal.carries_rule hn h hr
  exact ⟨t', hr', ht.cursor⟩

/-- In front of `x = g(x);`, with the variable `x` and some functions in scope. -/
def assigned (functions : ArityTable) : State :=
  { State.ofTexts [(.identifier, "x"), (.assignment, "="), (.identifier, "g"), (.openParen, "("),
      (.identifier, "x"), (.closeParen, ")"), (.semicolon, ";")] with
    scope := { functions, vars := ["x"] } }

theorem widens_assigned (functions : ArityTable) :
    Widens (assigned functions) (assigned (functions ++ [("x", 0)])) := by
  refine ⟨rfl, rfl, rfl, ?_⟩
  intro name n hn
  have hlookup : functions.lookup name = some n := hn
  show (functions ++ [("x", 0)]).lookup name = some n
  rw [List.lookup_append, hlookup]
  rfl

/-- The statement stays what it is when a function gets the name of the variable.  Without the
function that is called, the rule for assignments would read the name of the variable alone. -/
theorem rule_of_widens_assigned :
    Widens (assigned [("g", 1)]) (assigned [("g", 1), ("x", 0)]) ∧
      (∃ t t', Nonterminal.expressionStmt.rule (assigned [("g", 1)]) =
          .ok (.stmt (.expr (.binary .assign (.var "x") (.call "g" [.var "x"])))) t ∧
        Nonterminal.expressionStmt.rule (assigned [("g", 1), ("x", 0)]) =
          .ok (.stmt (.expr (.binary .assign (.var "x") (.call "g" [.var "x"])))) t' ∧
        t'.cursor = t.cursor) ∧
      ∃ t, assignment (assigned []) = .ok (.var "x") t := by
  have hwidens := widens_assigned [("g", 1)]
  obtain ⟨t', ht', hcursor⟩ := rule_of_widens (n := .expressionStmt) rfl hwidens rfl
  exact ⟨hwidens, ⟨_, t', rfl, ht', hcursor⟩, _, rfl⟩

end Session

end IntC
