/-
# The rules for statements and declarations read exactly the valid ones

What `Expressions` does for the rules for expressions, this file does for the rest, up to whole
token lists.  Each rule succeeds exactly where the lexemes of its tree stand at the cursor and the
tree is valid in the scope.

* `stmt_eq_ok_iff`, `stmtsFrom_eq_ok_iff`: statements.  The rule for a body reads statements up to
  the first failure, so at the closing brace a statement has to fail (`stmt_at_closeCurly`).
* `prototype_eq_ok_iff`, `varDeclsFrom_eq_ok_iff`, `body_eq_ok_iff`: signatures and bodies.
* `external_eq_ok_iff`: one declaration or definition.  A definition leaves its variables in scope
  (`Scope.behind`), which nothing that can follow looks at (`validFrom_behind`).
* `externalsFrom_eq_ok_iff`, `ofTokens_eq_ok_iff`: declarations up to an end token.

All this is at the top of a parse, outside of any argument list (`s.depth = 0`).
-/
import IntC.Proofs.Expressions

namespace IntC

namespace State

/-- The state with other variables in scope. -/
def withVars (s : State) (vars : List String) : State := { s with scope := { s.scope with vars } }

@[simp] theorem vars_withVars (s : State) (vars : List String) :
    (s.withVars vars).scope.vars = vars := rfl

@[simp] theorem withVars_self (s : State) : s.withVars s.scope.vars = s := rfl

/-- The variables in scope are no matter for the tokens. -/
theorem reads_withVars_iff {s t : State} {ls : List Lexeme} {vars : List String} :
    (s.withVars vars).Reads ls (t.withVars vars) ↔ s.Reads ls (t.withVars s.scope.vars) := by
  obtain ⟨c, ⟨ps, fs, vs⟩, depth, file⟩ := s
  obtain ⟨c', ⟨ps', fs', vs'⟩, depth', file'⟩ := t
  simp [Reads, withVars]

theorem Reads.withVars {s t : State} {ls : List Lexeme} (h : s.Reads ls t) (vars : List String) :
    (s.withVars vars).Reads ls (t.withVars vars) := by
  rw [reads_withVars_iff, ← h.scope_eq]
  exact h

end State

/-- The scope behind a declaration or definition: with one more function, and with the variables of
the body that was read last. -/
def Scope.behind (scope : Scope) : External → Scope
  | .prototype p => scope.declare p
  | .function f => { scope.define f.prototype with vars := f.body.decls.map VarDecl.name }

theorem validFrom_behind {scope : Scope} {d : External} {ds : List External} :
    ValidFrom (scope.behind d) ds ↔ ValidFrom (scope.after d) ds := by
  cases d with
  | prototype p => exact Iff.rfl
  | function f => exact validFrom_vars

namespace Grammar

open Rule

variable {s t : State}

/-! ## 1. Statements -/

/-- An expression with its semicolon, and what is made of it. -/
theorem assignment_semicolon_eq_ok_iff {α : Type} {f : Expr → α} {a : α} :
    (do let value ← assignment
        let _ ← expect .semicolon
        return f value : Rule α) s = .ok a t ↔
      ∃ value, a = f value ∧ s.Reads (value.yield ++ [.mark .semicolon]) t ∧
        value.Admissible s.scope (maxNesting - s.depth) 0 := by
  rw [bind_eq_ok_iff]
  constructor
  · intro h
    obtain ⟨value, u, hvalue, hrest⟩ := h
    obtain ⟨hsemi, hend⟩ := expect_bind_eq_ok_iff.mp hrest
    obtain ⟨rfl, rfl⟩ := pure_eq_ok_iff.mp hend
    have hne : u.current.kind ≠ .assignment := (noOperator_of_closes (.inr (.inr hsemi))).2
    obtain ⟨hreads, hadm, -⟩ := (assignment_eq_ok_iff hne).mp hvalue
    exact ⟨value, rfl, (State.reads_append_mark (by decide)).mpr ⟨u, hreads, hsemi, rfl⟩, hadm⟩
  · intro h
    obtain ⟨value, rfl, hreads, hadm⟩ := h
    obtain ⟨u, hvalue, hsemi, rfl⟩ := (State.reads_append_mark (by decide)).mp hreads
    obtain ⟨hstop, hne⟩ := noOperator_of_closes (.inr (.inr hsemi))
    exact ⟨value, u, (assignment_eq_ok_iff hne).mpr ⟨hvalue, hadm, hstop⟩,
      expect_bind_eq_ok_iff.mpr ⟨hsemi, rfl⟩⟩

/-- A valid statement starts with a return, a semicolon, a name or a number. -/
theorem current_kind_of_reads_stmt {a : Stmt} {scope : Scope} {ls : List Lexeme}
    (h : s.Reads (a.yield ++ ls) t) (ha : a.ValidIn scope) :
    s.current.kind ≠ .int ∧ s.current.kind ≠ .closeCurly := by
  cases a with
  | ret value => rw [h.current_kind]; decide
  | expr value =>
    rcases ha with rfl | hadm
    · rw [h.current_kind]; decide
    · rw [Stmt.yield, List.append_assoc] at h
      rcases current_kind_of_reads h hadm with hkind | hkind
      · rw [hkind]; decide
      · rw [hkind]; decide

/-- **Statements.**  The first token tells a return from an expression. -/
theorem stmt_eq_ok_iff (hd : s.depth = 0) {a : Stmt} :
    stmt s = .ok a t ↔ s.Reads a.yield t ∧ a.ValidIn s.scope := by
  have hlevels : maxNesting - s.depth = maxNesting := by rw [hd]; rfl
  rw [stmt, currentKind, look_bind_eq_ok_iff]
  by_cases hret : s.current.kind = .ret
  · rw [if_pos hret, returnStmt, backtrack_eq_ok_iff, expect_bind_eq_ok_iff,
      assignment_semicolon_eq_ok_iff, show s.advance.depth = s.depth from rfl, hlevels]
    constructor
    · intro h
      obtain ⟨-, value, rfl, hreads, hadm⟩ := h
      exact ⟨(State.reads_mark_cons (by decide)).mpr ⟨hret, hreads⟩, hadm⟩
    · intro h
      obtain ⟨hreads, ha⟩ := h
      cases a with
      | ret value =>
        exact ⟨hret, value, rfl, ((State.reads_mark_cons (by decide)).mp hreads).2, ha⟩
      | expr value =>
        -- neither a bare semicolon nor an expression starts with a return
        rcases ha with rfl | hadm
        · have hkind : s.current.kind = .semicolon := hreads.current_kind
          rw [hret] at hkind
          cases hkind
        · have hkind := current_kind_of_reads hreads hadm
          simp [hret] at hkind
  · rw [if_neg hret, expressionStmt, backtrack_eq_ok_iff, currentKind, look_bind_eq_ok_iff]
    by_cases hsemi : s.current.kind = .semicolon
    · rw [if_pos hsemi, advance_bind_eq_ok_iff, pure_eq_ok_iff]
      constructor
      · intro h
        obtain ⟨rfl, rfl⟩ := h
        exact ⟨(State.reads_mark (by decide)).mpr ⟨hsemi, rfl⟩, .inl rfl⟩
      · intro h
        obtain ⟨hreads, ha⟩ := h
        cases a with
        | ret value => exact absurd hreads.current_kind hret
        | expr value =>
          rcases ha with rfl | hadm
          · exact ⟨rfl, ((State.reads_mark (by decide)).mp hreads).2⟩
          · have hkind := current_kind_of_reads hreads hadm
            simp [hsemi] at hkind
    · rw [if_neg hsemi, assignment_semicolon_eq_ok_iff, hlevels]
      constructor
      · intro h
        obtain ⟨value, rfl, hreads, hadm⟩ := h
        exact ⟨hreads, .inr hadm⟩
      · intro h
        obtain ⟨hreads, ha⟩ := h
        cases a with
        | ret value => exact absurd hreads.current_kind hret
        | expr value =>
          rcases ha with rfl | hadm
          · exact absurd hreads.current_kind hsemi
          · exact ⟨value, rfl, hreads, hadm⟩

/-- At a closing brace no statement is read, and nothing is changed in trying. -/
theorem stmt_at_closeCurly (hs : s.current.kind = .closeCurly) :
    ∃ stop, stmt s = .error stop s := by
  cases h : stmt s with
  | ok a u =>
    rw [stmt, currentKind, look_bind_eq_ok_iff, if_neg (by rw [hs]; decide), expressionStmt,
      backtrack_eq_ok_iff, currentKind, look_bind_eq_ok_iff, if_neg (by rw [hs]; decide),
      assignment_semicolon_eq_ok_iff] at h
    obtain ⟨value, -, hreads, hadm⟩ := h
    have hkind := current_kind_of_reads hreads hadm
    simp [hs] at hkind
  | error stop u =>
    obtain rfl := within_stmt.eq_of_error undoes_stmt h
    exact ⟨stop, rfl⟩

theorem length_yield_stmt_pos (a : Stmt) : 0 < a.yield.length := by
  cases a <;> simp [Stmt.yield]

/-- Statements up to the closing brace. -/
theorem stmtsFrom_eq_ok_iff (ht : t.current.kind = .closeCurly) :
    ∀ {rounds : Nat} {s : State} {stmts : List Stmt}, s.depth = 0 →
      s.cursor.tokensLeft ≤ rounds →
      ((∃ stop, stmtsFrom rounds s = .ok (stmts, stop) t) ↔
        s.Reads (stmts.flatMap Stmt.yield) t ∧ ∀ a ∈ stmts, a.ValidIn s.scope) := by
  intro rounds
  induction rounds with
  | zero =>
    intro s stmts hd hrounds
    -- with no token left, the brace cannot be reached
    have hleft : t.cursor.tokensLeft ≠ 0 := by
      intro h
      have heof : t.current.kind = .eof := Cursor.current_kind_of_tokensLeft h
      rw [ht] at heof
      cases heof
    constructor
    · intro h
      obtain ⟨stop, h⟩ := h
      rw [stmtsFrom, look_bind_eq_ok_iff, pure_eq_ok_iff] at h
      obtain ⟨-, rfl⟩ := h
      omega
    · intro h
      have hreads := h.1.tokensLeft
      omega
  | succ rounds ih =>
    intro s stmts hd hrounds
    have hstep {first : Stmt} {u : State} (h : s.Reads first.yield u) :
        u.depth = 0 ∧ u.cursor.tokensLeft ≤ rounds ∧ u.scope = s.scope := by
      have hleft := h.tokensLeft
      have hpos := length_yield_stmt_pos first
      exact ⟨by rw [h.depth_eq, hd], by omega, h.scope_eq⟩
    simp only [stmtsFrom, attempt_bind_eq_ok_iff]
    constructor
    · intro h
      rcases h with ⟨stop, ⟨first, u, hfirst, hrest⟩ | ⟨e, u, hfail, hend⟩⟩
      · obtain ⟨⟨more, stop'⟩, v, hmore, hend⟩ := bind_eq_ok_iff.mp hrest
        obtain ⟨heq, rfl⟩ := pure_eq_ok_iff.mp hend
        obtain ⟨rfl, rfl⟩ := Prod.mk.inj heq
        obtain ⟨hreads, ha⟩ := (stmt_eq_ok_iff hd).mp hfirst
        obtain ⟨hdu, hleft, hscope⟩ := hstep hreads
        obtain ⟨hreads', hmore'⟩ := (ih hdu hleft).mp ⟨_, hmore⟩
        rw [hscope] at hmore'
        exact ⟨State.reads_append.mpr ⟨u, hreads, hreads'⟩, List.forall_mem_cons.mpr ⟨ha, hmore'⟩⟩
      · obtain ⟨heq, rfl⟩ := pure_eq_ok_iff.mp hend
        obtain ⟨rfl, -⟩ := Prod.mk.inj heq
        obtain rfl := within_stmt.eq_of_error undoes_stmt hfail
        exact ⟨State.reads_nil.mpr rfl, by simp⟩
    · intro h
      obtain ⟨hreads, hall⟩ := h
      cases stmts with
      | nil =>
        obtain rfl := State.reads_nil.mp hreads
        obtain ⟨stop, hstop⟩ := stmt_at_closeCurly ht
        exact ⟨stop, .inr ⟨stop, _, hstop, rfl⟩⟩
      | cons first more =>
        obtain ⟨u, hfirst, hmore⟩ := State.reads_append.mp hreads
        obtain ⟨hvalid, hvalids⟩ := List.forall_mem_cons.mp hall
        obtain ⟨hdu, hleft, hscope⟩ := hstep hfirst
        rw [← hscope] at hvalids
        obtain ⟨stop, hstop⟩ := (ih hdu hleft).mpr ⟨hmore, hvalids⟩
        exact ⟨stop, .inl ⟨first, u, (stmt_eq_ok_iff hd).mpr ⟨hfirst, hvalid⟩,
          bind_eq_ok_iff.mpr ⟨_, t, hstop, rfl⟩⟩⟩

/-! ## 2. Signatures and variables -/

theorem paramsYield_cons {param : String} {more : List String} (h : more ≠ []) :
    Prototype.paramsYield (param :: more) =
      .mark .int :: .word param :: .mark .comma :: Prototype.paramsYield more := by
  cases more with
  | nil => exact absurd rfl h
  | cons param' more => rfl

/-- One parameter or more, up to the closing parenthesis: all different, and none of the names that
are taken. -/
theorem paramsFrom_eq_ok_iff (ht : t.current.kind = .closeParen) :
    ∀ {rounds : Nat} {earlier params : List String} {s : State}, s.cursor.tokensLeft ≤ rounds →
      (paramsFrom earlier rounds s = .ok params t ↔ params ≠ [] ∧
        s.Reads (Prototype.paramsYield params) t ∧ params.Nodup ∧ ∀ x ∈ params, x ∉ earlier) := by
  intro rounds
  induction rounds with
  | zero =>
    intro earlier params s hrounds
    refine iff_of_false unexpected_ne_ok ?_
    intro h
    have hreads := h.2.1.tokensLeft
    have heof : t.current.kind = .eof := Cursor.current_kind_of_tokensLeft (by omega)
    rw [ht] at heof
    cases heof
  | succ rounds ih =>
    intro earlier params s hrounds
    have hstep {u : State} (hint : s.current.kind = .int)
        (hname : s.advance.current.kind = .identifier) (hu : u = s.advance.advance)
        (hcomma : u.current.kind = .comma) : u.advance.cursor.tokensLeft ≤ rounds := by
      subst hu
      have h₁ := State.tokensLeft_advance (s := s) (by rw [hint]; decide)
      have h₂ := State.tokensLeft_advance (s := s.advance) (by rw [hname]; decide)
      have h₃ := State.tokensLeft_advance (s := s.advance.advance) (by rw [hcomma]; decide)
      omega
    rw [paramsFrom, expect_bind_eq_ok_iff, expect_bind_eq_ok_iff]
    constructor
    · intro h
      obtain ⟨hint, hname, h⟩ := h
      by_cases hfresh : earlier.contains s.advance.current.value = true
      · rw [if_pos hfresh] at h
        exact absurd h failAt_ne_ok
      have hnew : s.advance.current.value ∉ earlier := by simpa using hfresh
      rw [if_neg hfresh, currentKind, look_bind_eq_ok_iff] at h
      by_cases hcomma : s.advance.advance.current.kind = .comma
      · rw [if_pos hcomma, advance_bind_eq_ok_iff] at h
        obtain ⟨more, v, hmore, hend⟩ := bind_eq_ok_iff.mp h
        obtain ⟨rfl, rfl⟩ := pure_eq_ok_iff.mp hend
        obtain ⟨hne, hreads, hnodup, hapart⟩ := (ih (hstep hint hname rfl hcomma)).mp hmore
        refine ⟨List.cons_ne_nil _ _, ?_, ?_, ?_⟩
        · rw [paramsYield_cons hne]
          refine (State.reads_mark_cons (by decide)).mpr ⟨hint, ?_⟩
          refine State.reads_word_cons.mpr ⟨hname, rfl, ?_⟩
          exact (State.reads_mark_cons (by decide)).mpr ⟨hcomma, hreads⟩
        · refine List.nodup_cons.mpr ⟨fun hmem => hapart _ hmem ?_, hnodup⟩
          simp
        · refine List.forall_mem_cons.mpr ⟨hnew, fun x hx hx' => hapart x hx ?_⟩
          exact List.mem_append_left _ hx'
      · rw [if_neg hcomma] at h
        obtain ⟨rfl, rfl⟩ := pure_eq_ok_iff.mp h
        refine ⟨List.cons_ne_nil _ _, ?_, by simp, by simpa using hnew⟩
        refine (State.reads_mark_cons (by decide)).mpr ⟨hint, ?_⟩
        exact State.reads_word_cons.mpr ⟨hname, rfl, State.reads_nil.mpr rfl⟩
    · intro h
      obtain ⟨hne, hreads, hnodup, hapart⟩ := h
      obtain ⟨param, more, rfl⟩ := List.exists_cons_of_ne_nil hne
      obtain ⟨hparam, hmores⟩ := List.nodup_cons.mp hnodup
      obtain ⟨hnew, hmoreNew⟩ := List.forall_mem_cons.mp hapart
      by_cases hmore : more = []
      · subst hmore
        obtain ⟨hint, hword⟩ := (State.reads_mark_cons (by decide)).mp hreads
        obtain ⟨hname, rfl, hend⟩ := State.reads_word_cons.mp hword
        obtain rfl := State.reads_nil.mp hend
        refine ⟨hint, hname, ?_⟩
        rw [if_neg (by simpa using hnew), currentKind, look_bind_eq_ok_iff,
          if_neg (by rw [ht]; decide)]
        rfl
      · rw [paramsYield_cons hmore] at hreads
        obtain ⟨hint, hword⟩ := (State.reads_mark_cons (by decide)).mp hreads
        obtain ⟨hname, rfl, hrest⟩ := State.reads_word_cons.mp hword
        obtain ⟨hcomma, hreads'⟩ := (State.reads_mark_cons (by decide)).mp hrest
        refine ⟨hint, hname, ?_⟩
        rw [if_neg (by simpa using hnew), currentKind, look_bind_eq_ok_iff, if_pos hcomma,
          advance_bind_eq_ok_iff, bind_eq_ok_iff]
        refine ⟨more, t, (ih (hstep hint hname rfl hcomma)).mpr ⟨hmore, hreads', hmores, ?_⟩, rfl⟩
        intro x hx hx'
        rcases List.mem_append.mp hx' with hx' | hx'
        · exact hmoreNew x hx hx'
        · rw [List.mem_singleton] at hx'
          exact hparam (hx' ▸ hx)

/-- The parameters of a signature, which may have none. -/
theorem params_eq_ok_iff (ht : t.current.kind = .closeParen) {params : List String} :
    (if s.current.kind = .int then paramsFrom [] s.cursor.tokensLeft else pure [] :
        Rule (List String)) s = .ok params t ↔
      s.Reads (Prototype.paramsYield params) t ∧ params.Nodup := by
  by_cases hint : s.current.kind = .int
  · rw [if_pos hint, paramsFrom_eq_ok_iff ht (Nat.le_refl _)]
    constructor
    · intro h
      exact ⟨h.2.1, h.2.2.1⟩
    · intro h
      refine ⟨?_, h.1, h.2, by simp⟩
      rintro rfl
      obtain rfl := State.reads_nil.mp h.1
      rw [ht] at hint
      cases hint
  · rw [if_neg hint, pure_eq_ok_iff]
    constructor
    · intro h
      obtain ⟨rfl, rfl⟩ := h
      exact ⟨State.reads_nil.mpr rfl, List.nodup_nil⟩
    · intro h
      cases params with
      | nil => exact ⟨rfl, State.reads_nil.mp h.1⟩
      | cons param more =>
        have hkind : s.current.kind = .int := by
          cases more with
          | nil => exact h.1.current_kind
          | cons param' more => exact h.1.current_kind
        exact absurd hkind hint

/-- **Signatures**: different parameters are all that is asked for. -/
theorem prototype_eq_ok_iff {p : Prototype} :
    prototype s = .ok p t ↔ s.Reads p.yield t ∧ p.params.Nodup := by
  have hparams (u : State) (f : List String → Rule Prototype) :
      (if u.current.kind = .int then tokensLeft >>= fun rounds => paramsFrom [] rounds >>= f
        else pure [] >>= f) u =
      ((if u.current.kind = .int then paramsFrom [] u.cursor.tokensLeft else pure []) >>= f) u := by
    by_cases hint : u.current.kind = .int
    · rw [if_pos hint, if_pos hint]
      rfl
    · rw [if_neg hint, if_neg hint]
  rw [prototype, backtrack_eq_ok_iff, expect_bind_eq_ok_iff, expect_bind_eq_ok_iff,
    expect_bind_eq_ok_iff, currentKind, look_bind_eq_ok_iff, hparams, bind_eq_ok_iff]
  constructor
  · intro h
    obtain ⟨hint, hname, hopen, params, u, hlist, hrest⟩ := h
    obtain ⟨hclose, hend⟩ := expect_bind_eq_ok_iff.mp hrest
    obtain ⟨rfl, rfl⟩ := pure_eq_ok_iff.mp hend
    obtain ⟨hreads, hnodup⟩ := (params_eq_ok_iff hclose).mp hlist
    refine ⟨(State.reads_mark_cons (by decide)).mpr ⟨hint, ?_⟩, hnodup⟩
    refine State.reads_word_cons.mpr ⟨hname, rfl, ?_⟩
    refine (State.reads_mark_cons (by decide)).mpr ⟨hopen, ?_⟩
    exact (State.reads_append_mark (by decide)).mpr ⟨u, hreads, hclose, rfl⟩
  · intro h
    obtain ⟨hreads, hnodup⟩ := h
    obtain ⟨hint, hword⟩ := (State.reads_mark_cons (by decide)).mp hreads
    obtain ⟨hname, hvalue, hparens⟩ := State.reads_word_cons.mp hword
    obtain ⟨hopen, hlist⟩ := (State.reads_mark_cons (by decide)).mp hparens
    obtain ⟨u, hu, hclose, rfl⟩ := (State.reads_append_mark (by decide)).mp hlist
    refine ⟨hint, hname, hopen, p.params, u, (params_eq_ok_iff hclose).mpr ⟨hu, hnodup⟩, ?_⟩
    refine expect_bind_eq_ok_iff.mpr ⟨hclose, ?_⟩
    rw [hvalue]
    rfl

theorem varDecl_eq_ok_iff {decl : VarDecl} :
    varDecl s = .ok decl t ↔ s.Reads decl.yield t ∧ decl.role = .inBody := by
  rw [varDecl, backtrack_eq_ok_iff, expect_bind_eq_ok_iff, expect_bind_eq_ok_iff,
    expect_bind_eq_ok_iff, pure_eq_ok_iff, VarDecl.yield, State.reads_mark_cons (by decide),
    State.reads_word_cons, State.reads_mark_cons (by decide), State.reads_nil]
  constructor
  · intro h
    obtain ⟨hint, hname, hsemi, rfl, ht⟩ := h
    exact ⟨⟨hint, hname, rfl, hsemi, ht⟩, rfl⟩
  · intro h
    obtain ⟨⟨hint, hname, hvalue, hsemi, ht⟩, hrole⟩ := h
    refine ⟨hint, hname, hsemi, ?_, ht⟩
    rw [hvalue, ← hrole]

/-- A variable is taken into scope under a name that is free. -/
theorem enterVariable_eq_ok_iff {start : Position} {name : String} :
    enterVariable start name s = .ok () t ↔
      name ∉ s.scope.vars ∧ t = s.withVars (s.scope.vars ++ [name]) := by
  rw [enterVariable, Rule.scope, look_bind_eq_ok_iff, Scope.declareVariable]
  by_cases hvar : s.scope.isVariable name = true
  · rw [if_pos hvar]
    refine iff_of_false failAt_ne_ok ?_
    intro h
    exact h.1 (Scope.isVariable_iff.mp hvar)
  · rw [if_neg hvar]
    have hfree : name ∉ s.scope.vars := fun h => hvar (Scope.isVariable_iff.mpr h)
    constructor
    · rintro ⟨⟩
      exact ⟨hfree, rfl⟩
    · intro h
      rw [h.2]
      rfl

/-- The declarations stand at the first state, and the second is behind them with their names in
scope, all of them different from each other and from those before. -/
structure Declares (s : State) (decls : List VarDecl) (t : State) : Prop where
  reads : s.Reads (decls.flatMap VarDecl.yield) (t.withVars s.scope.vars)
  vars : t.scope.vars = s.scope.vars ++ decls.map VarDecl.name
  nodup : t.scope.vars.Nodup
  roles : ∀ decl ∈ decls, decl.role = .inBody

theorem declares_nil (hnodup : s.scope.vars.Nodup) : Declares s [] t ↔ t = s := by
  constructor
  · intro h
    have hvars : t.scope.vars = s.scope.vars := by simpa using h.vars
    have hsame : t.withVars s.scope.vars = s := State.reads_nil.mp h.reads
    rw [← hvars, State.withVars_self] at hsame
    exact hsame
  · intro h
    subst h
    exact ⟨State.reads_nil.mpr rfl, by simp, hnodup, by simp⟩

theorem declares_cons {decl : VarDecl} {more : List VarDecl} :
    Declares s (decl :: more) t ↔ ∃ u, s.Reads decl.yield u ∧ decl.role = .inBody ∧
      decl.name ∉ u.scope.vars ∧
      Declares (u.withVars (u.scope.vars ++ [decl.name])) more t := by
  constructor
  · intro h
    obtain ⟨hreads, hvars, hnodup, hroles⟩ := h
    obtain ⟨u, hdecl, hmore⟩ := State.reads_append.mp hreads
    obtain ⟨hrole, hroles'⟩ := List.forall_mem_cons.mp hroles
    rw [← hdecl.scope_eq] at hvars hmore
    refine ⟨u, hdecl, hrole, ?_, State.reads_withVars_iff.mpr hmore, ?_, hnodup, hroles'⟩
    · intro hmem
      rw [hvars] at hnodup
      exact (List.nodup_append.mp hnodup).2.2 _ hmem _ (by simp) rfl
    · simpa using hvars
  · intro h
    obtain ⟨u, hdecl, hrole, hfree, hreads, hvars, hnodup, hroles⟩ := h
    have hmore : u.Reads (more.flatMap VarDecl.yield) (t.withVars u.scope.vars) :=
      State.reads_withVars_iff.mp hreads
    rw [hdecl.scope_eq] at hmore
    refine ⟨State.reads_append.mpr ⟨u, hdecl, hmore⟩, ?_, hnodup,
      List.forall_mem_cons.mpr ⟨hrole, hroles⟩⟩
    simpa [hdecl.scope_eq] using hvars

/-- The declarations at the start of a body, up to where none stands. -/
theorem varDeclsFrom_eq_ok_iff :
    ∀ {rounds : Nat} {s t : State} {decls : List VarDecl}, s.scope.vars.Nodup →
      s.cursor.tokensLeft ≤ rounds →
      (varDeclsFrom rounds s = .ok decls t ↔ Declares s decls t ∧ t.current.kind ≠ .int) := by
  -- where no declaration stands, both sides say that there is none
  have hend {s t : State} {decls : List VarDecl} (hnodup : s.scope.vars.Nodup)
      (hs : s.current.kind ≠ .int) :
      (decls = [] ∧ t = s) ↔ Declares s decls t ∧ t.current.kind ≠ .int := by
    constructor
    · intro h
      obtain ⟨rfl, rfl⟩ := h
      exact ⟨(declares_nil hnodup).mpr rfl, hs⟩
    · intro h
      cases decls with
      | nil => exact ⟨rfl, (declares_nil hnodup).mp h.1⟩
      | cons decl more =>
        obtain ⟨u, hreads, -⟩ := declares_cons.mp h.1
        exact absurd hreads.current_kind hs
  intro rounds
  induction rounds with
  | zero =>
    intro s t decls hnodup hrounds
    have heof : s.current.kind = .eof := Cursor.current_kind_of_tokensLeft (by omega)
    rw [varDeclsFrom, pure_eq_ok_iff]
    exact hend hnodup (by rw [heof]; decide)
  | succ rounds ih =>
    intro s t decls hnodup hrounds
    rw [varDeclsFrom, currentKind, look_bind_eq_ok_iff]
    by_cases hint : s.current.kind = .int
    · have hstep {decl : VarDecl} {u : State} (hreads : s.Reads decl.yield u)
          (hfree : decl.name ∉ u.scope.vars) :
          (u.scope.vars ++ [decl.name]).Nodup ∧ u.cursor.tokensLeft ≤ rounds := by
        have hleft := hreads.tokensLeft
        rw [hreads.scope_eq] at hfree ⊢
        refine ⟨List.nodup_append.mpr ⟨hnodup, by simp, ?_⟩, ?_⟩
        · intro x hx y hy
          rw [List.mem_singleton.mp hy]
          exact fun heq => hfree (heq ▸ hx)
        · simp only [VarDecl.yield, List.length_cons] at hleft
          omega
      rw [if_pos hint, Rule.position, look_bind_eq_ok_iff, bind_eq_ok_iff]
      constructor
      · intro h
        obtain ⟨decl, u, hdecl, hrest⟩ := h
        obtain ⟨⟨⟩, v, hv, hrest'⟩ := bind_eq_ok_iff.mp hrest
        obtain ⟨more, w, hmore, hpure⟩ := bind_eq_ok_iff.mp hrest'
        obtain ⟨rfl, rfl⟩ := pure_eq_ok_iff.mp hpure
        obtain ⟨hreads, hrole⟩ := varDecl_eq_ok_iff.mp hdecl
        obtain ⟨hfree, rfl⟩ := enterVariable_eq_ok_iff.mp hv
        obtain ⟨hnodup', hleft⟩ := hstep hreads hfree
        obtain ⟨hdeclares, hstop⟩ := (ih (s := u.withVars _) hnodup' hleft).mp hmore
        exact ⟨declares_cons.mpr ⟨u, hreads, hrole, hfree, hdeclares⟩, hstop⟩
      · intro h
        obtain ⟨hdeclares, hstop⟩ := h
        cases decls with
        | nil =>
          obtain rfl := (declares_nil hnodup).mp hdeclares
          exact absurd hint hstop
        | cons decl more =>
          obtain ⟨u, hreads, hrole, hfree, hmore⟩ := declares_cons.mp hdeclares
          obtain ⟨hnodup', hleft⟩ := hstep hreads hfree
          refine ⟨decl, u, varDecl_eq_ok_iff.mpr ⟨hreads, hrole⟩, bind_eq_ok_iff.mpr ?_⟩
          refine ⟨(), _, enterVariable_eq_ok_iff.mpr ⟨hfree, rfl⟩, bind_eq_ok_iff.mpr ?_⟩
          exact ⟨more, t, (ih (s := u.withVars _) hnodup' hleft).mpr ⟨hmore, hstop⟩, rfl⟩
    · rw [if_neg hint, pure_eq_ok_iff]
      exact hend hnodup hint

/-! ## 3. Bodies -/

theorem getLast?_any_isReturn_iff {stmts : List Stmt} :
    stmts.getLast?.any Stmt.isReturn = true ↔ ∃ value, stmts.getLast? = some (.ret value) := by
  cases stmts.getLast? with
  | none => simp
  | some last => cases last <;> simp [Stmt.isReturn]

/-- What follows the variables of a body: statements that end with a return, and the brace. -/
theorem stmts_closeCurly_eq_ok_iff (hd : s.depth = 0) {name : String} {decls : List VarDecl}
    {b : Body} :
    (do let (stmts, stop) ← stmtsFrom (← tokensLeft)
        if (← currentKind) = .closeCurly then
          if stmts.getLast?.any Stmt.isReturn then
            let _ ← expect .closeCurly
            return { decls, stmts }
          else fail (.missingReturn name)
        else throw stop : Rule Body) s = .ok b t ↔
      b.decls = decls ∧ s.Reads (b.stmts.flatMap Stmt.yield ++ [.mark .closeCurly]) t ∧
        (∀ a ∈ b.stmts, a.ValidIn s.scope) ∧ ∃ value, b.stmts.getLast? = some (.ret value) := by
  rw [tokensLeft, look_bind_eq_ok_iff, bind_eq_ok_iff]
  constructor
  · intro h
    obtain ⟨⟨stmts, stop⟩, u, hstmts, hend⟩ := h
    simp only [currentKind, look_bind_eq_ok_iff] at hend
    by_cases hclose : u.current.kind = .closeCurly
    · rw [if_pos hclose] at hend
      by_cases hlast : stmts.getLast?.any Stmt.isReturn = true
      · rw [if_pos hlast] at hend
        obtain ⟨-, hpure⟩ := expect_bind_eq_ok_iff.mp hend
        obtain ⟨rfl, rfl⟩ := pure_eq_ok_iff.mp hpure
        obtain ⟨hreads, hvalid⟩ :=
          (stmtsFrom_eq_ok_iff hclose hd (Nat.le_refl _)).mp ⟨stop, hstmts⟩
        exact ⟨rfl, (State.reads_append_mark (by decide)).mpr ⟨u, hreads, hclose, rfl⟩, hvalid,
          getLast?_any_isReturn_iff.mp hlast⟩
      · rw [if_neg hlast] at hend
        exact absurd hend fail_ne_ok
    · rw [if_neg hclose] at hend
      exact absurd hend throw_ne_ok
  · intro h
    obtain ⟨rfl, hreads, hvalid, hlast⟩ := h
    obtain ⟨u, hstmts, hclose, rfl⟩ := (State.reads_append_mark (by decide)).mp hreads
    obtain ⟨stop, hstop⟩ :=
      (stmtsFrom_eq_ok_iff hclose hd (Nat.le_refl _)).mpr ⟨hstmts, hvalid⟩
    refine ⟨(b.stmts, stop), u, hstop, ?_⟩
    simp only [currentKind, look_bind_eq_ok_iff]
    rw [if_pos hclose, if_pos (getLast?_any_isReturn_iff.mpr hlast)]
    exact expect_bind_eq_ok_iff.mpr ⟨hclose, rfl⟩

/-- **Bodies.**  Behind a body its variables are still in scope; everything else is as in front of
it. -/
theorem body_eq_ok_iff (hd : s.depth = 0) {p : Prototype} (hp : p.params.Nodup) {b : Body} :
    body p s = .ok b t ↔ s.Reads b.yield (t.withVars s.scope.vars) ∧ b.ValidIn s.scope p ∧
      t.scope.vars = b.decls.map VarDecl.name := by
  have hinside {decls : List VarDecl} {u : State} :
      varDeclsFrom s.advance.cursor.tokensLeft (s.advance.withVars p.params) = .ok decls u ↔
        Declares (s.advance.withVars p.params) decls u ∧ u.current.kind ≠ .int :=
    varDeclsFrom_eq_ok_iff hp (Nat.le_refl _)
  rw [body, backtrack_eq_ok_iff, expect_bind_eq_ok_iff, update_bind_eq_ok_iff, tokensLeft,
    look_bind_eq_ok_iff, bind_eq_ok_iff]
  constructor
  · intro h
    obtain ⟨hopen, decls, u, hdecls, hrest⟩ := h
    obtain ⟨⟨hreads, hvars, hnodup, hroles⟩, -⟩ := hinside.mp hdecls
    have hdu : u.depth = 0 := hreads.depth_eq.trans hd
    obtain ⟨hb, hreads', hvalid, hlast⟩ := (stmts_closeCurly_eq_ok_iff hdu).mp hrest
    have hnames : b.decls.map VarDecl.name = u.scope.vars := by
      rw [hvars, hb]
      simp [Function.comp_def]
    have hlocals : b.locals = decls := Body.locals_eq hb hroles
    have hscope : u.scope = { s.scope with vars := u.scope.vars } :=
      congrArg (fun scope : Scope => { scope with vars := u.scope.vars }) hreads.scope_eq
    refine ⟨?_, ⟨?_, ?_, ?_, hlast⟩, ?_⟩
    · rw [Body.yield, hlocals, List.append_assoc]
      refine (State.reads_mark_cons (by decide)).mpr ⟨hopen, State.reads_append.mpr ?_⟩
      exact ⟨u.withVars s.scope.vars, State.reads_withVars_iff.mp hreads, hreads'.withVars _⟩
    · rw [hlocals, hb]
    · rw [hnames]
      exact hnodup
    · rw [hnames, ← hscope]
      exact hvalid
    · rw [hnames, hreads'.scope_eq]
  · intro h
    obtain ⟨hreads, ⟨hdecls, hnodup, hstmts, hlast⟩, hvars⟩ := h
    rw [Body.yield, List.append_assoc] at hreads
    obtain ⟨hopen, hreads'⟩ := (State.reads_mark_cons (by decide)).mp hreads
    obtain ⟨u, hlocals, hrest⟩ := State.reads_append.mp hreads'
    have hnames : t.scope.vars = p.params ++ b.locals.map VarDecl.name := by
      rw [hvars, hdecls]
      simp [Function.comp_def]
    -- the states inside the body have its variables in scope
    have hdeclares : Declares (s.advance.withVars p.params) b.locals (u.withVars t.scope.vars) := by
      refine ⟨hlocals.withVars p.params, hnames, hvars ▸ hnodup, ?_⟩
      intro decl hdecl
      have hrole := (List.mem_filter.mp hdecl).2
      simpa using hrole
    have hne : (u.withVars t.scope.vars).current.kind ≠ .int := by
      obtain ⟨value, hvalue⟩ := hlast
      cases hb : b.stmts with
      | nil => simp [hb] at hvalue
      | cons first more =>
        rw [hb, List.flatMap_cons, List.append_assoc] at hrest
        exact (current_kind_of_reads_stmt hrest (hstmts first (by simp [hb]))).1
    refine ⟨hopen, b.locals, u.withVars t.scope.vars, hinside.mpr ⟨hdeclares, hne⟩, ?_⟩
    have hdu : (u.withVars t.scope.vars).depth = 0 := hlocals.depth_eq.trans hd
    refine (stmts_closeCurly_eq_ok_iff hdu).mpr ⟨hdecls, hrest.withVars _, ?_, hlast⟩
    have hscope : (u.withVars t.scope.vars).scope = { s.scope with vars := t.scope.vars } :=
      congrArg (fun scope : Scope => { scope with vars := t.scope.vars }) hlocals.scope_eq
    rw [hscope, hvars]
    exact hstmts

/-! ## 4. Declarations and definitions -/

theorem declaration_eq_ok_iff {p q : Prototype} :
    declaration p s = .ok q t ↔ q = p ∧ s.current.kind = .semicolon ∧
      s.scope.checkPrototype p = .ok () ∧ t = { s.advance with scope := s.scope.declare p } := by
  rw [declaration, backtrack_eq_ok_iff, Rule.position, look_bind_eq_ok_iff, expect_bind_eq_ok_iff,
    Rule.scope, look_bind_eq_ok_iff, show s.advance.scope = s.scope from rfl]
  cases hcheck : s.scope.checkPrototype p with
  | error cause =>
    constructor
    · intro h
      exact absurd h.2 failAt_ne_ok
    · intro h
      cases h.2.2.1
  | ok =>
    rw [update_bind_eq_ok_iff, pure_eq_ok_iff]
    constructor
    · intro h
      exact ⟨h.2.1, h.1, rfl, h.2.2⟩
    · intro h
      exact ⟨h.2.1, h.1, h.2.2.2⟩

theorem definition_eq_ok_iff (hd : s.depth = 0) {p : Prototype} (hp : p.params.Nodup)
    {f : FunctionDef} :
    definition p s = .ok f t ↔ f.prototype = p ∧ s.scope.checkPrototype p = .ok () ∧
      f.body.ValidIn s.scope p ∧ ∃ u, s.Reads f.body.yield u ∧
        t = { u with scope := s.scope.behind (.function f) } := by
  rw [definition, backtrack_eq_ok_iff, Rule.scope, look_bind_eq_ok_iff]
  cases hcheck : s.scope.checkPrototype p with
  | error cause =>
    constructor
    · intro h
      exact absurd h fail_ne_ok
    · intro h
      cases h.2.1
  | ok =>
    rw [bind_eq_ok_iff]
    constructor
    · intro h
      obtain ⟨b, v, hbody, hend⟩ := h
      rw [update_bind_eq_ok_iff, pure_eq_ok_iff] at hend
      obtain ⟨rfl, rfl⟩ := hend
      obtain ⟨hreads, hvalid, hvars⟩ := (body_eq_ok_iff hd hp).mp hbody
      have hscope : v.scope.define p = { s.scope.define p with vars := v.scope.vars } :=
        congrArg (fun scope : Scope => { scope.define p with vars := v.scope.vars }) hreads.scope_eq
      refine ⟨rfl, rfl, hvalid, _, hreads, ?_⟩
      rw [hscope, hvars]
      rfl
    · intro h
      obtain ⟨rfl, -, hvalid, u, hreads, rfl⟩ := h
      have hsame : u.withVars s.scope.vars = u := by
        rw [← hreads.scope_eq, State.withVars_self]
      refine ⟨f.body, u.withVars (f.body.decls.map VarDecl.name),
        (body_eq_ok_iff hd hp).mpr ⟨?_, hvalid, rfl⟩, ?_⟩
      · show s.Reads f.body.yield (u.withVars s.scope.vars)
        rw [hsame]
        exact hreads
      · rw [update_bind_eq_ok_iff, pure_eq_ok_iff]
        refine ⟨rfl, ?_⟩
        rw [State.withVars, hreads.scope_eq]
        rfl

/-- **Declarations and definitions.** -/
theorem external_eq_ok_iff (hd : s.depth = 0) {d : External} :
    external s = .ok d t ↔ ∃ u, s.Reads d.yield u ∧ d.ValidIn s.scope ∧
      t = { u with scope := s.scope.behind d } := by
  rw [external, backtrack_eq_ok_iff, bind_eq_ok_iff]
  constructor
  · intro h
    obtain ⟨p, u, hp, hrest⟩ := h
    obtain ⟨hreads, hnodup⟩ := prototype_eq_ok_iff.mp hp
    have hdu : u.depth = 0 := hreads.depth_eq.trans hd
    rw [currentKind, look_bind_eq_ok_iff] at hrest
    cases hk : u.current.kind with
    | semicolon =>
      rw [hk] at hrest
      obtain ⟨q, v, hq, hend⟩ := bind_eq_ok_iff.mp hrest
      obtain ⟨rfl, rfl⟩ := pure_eq_ok_iff.mp hend
      obtain ⟨rfl, -, hcheck, rfl⟩ := declaration_eq_ok_iff.mp hq
      rw [hreads.scope_eq] at hcheck ⊢
      exact ⟨u.advance, (State.reads_append_mark (by decide)).mpr ⟨u, hreads, hk, rfl⟩,
        Prototype.allowedIn_iff.mpr ⟨hnodup, hcheck⟩, rfl⟩
    | openCurly =>
      rw [hk] at hrest
      obtain ⟨f, v, hf, hend⟩ := bind_eq_ok_iff.mp hrest
      obtain ⟨rfl, rfl⟩ := pure_eq_ok_iff.mp hend
      obtain ⟨rfl, hcheck, hvalid, w, hreads', rfl⟩ := (definition_eq_ok_iff hdu hnodup).mp hf
      rw [hreads.scope_eq] at hcheck hvalid ⊢
      exact ⟨w, State.reads_append.mpr ⟨u, hreads, hreads'⟩,
        ⟨Prototype.allowedIn_iff.mpr ⟨hnodup, hcheck⟩, hvalid⟩, rfl⟩
    | _ =>
      rw [hk] at hrest
      exact absurd hrest unexpected_ne_ok
  · intro h
    obtain ⟨u, hreads, hvalid, rfl⟩ := h
    cases d with
    | prototype p =>
      obtain ⟨hnodup, hcheck⟩ := Prototype.allowedIn_iff.mp hvalid
      obtain ⟨v, hp, hsemi, rfl⟩ := (State.reads_append_mark (by decide)).mp hreads
      refine ⟨p, v, prototype_eq_ok_iff.mpr ⟨hp, hnodup⟩, ?_⟩
      rw [currentKind, look_bind_eq_ok_iff, hsemi]
      refine bind_eq_ok_iff.mpr ⟨p, _, declaration_eq_ok_iff.mpr ⟨rfl, hsemi, ?_, rfl⟩, ?_⟩
      · rw [hp.scope_eq]
        exact hcheck
      · rw [hp.scope_eq]
        rfl
    | function f =>
      obtain ⟨hallowed, hbody⟩ := hvalid
      obtain ⟨hnodup, hcheck⟩ := Prototype.allowedIn_iff.mp hallowed
      obtain ⟨v, hp, hreads'⟩ := State.reads_append.mp hreads
      have hdv : v.depth = 0 := hp.depth_eq.trans hd
      have hopen : v.current.kind = .openCurly := hreads'.current_kind
      refine ⟨f.prototype, v, prototype_eq_ok_iff.mpr ⟨hp, hnodup⟩, ?_⟩
      rw [currentKind, look_bind_eq_ok_iff, hopen]
      rw [← hp.scope_eq] at hcheck hbody ⊢
      exact bind_eq_ok_iff.mpr ⟨f, _,
        (definition_eq_ok_iff hdv hnodup).mpr ⟨rfl, hcheck, hbody, u, hreads', rfl⟩, rfl⟩

/-- A first lexeme that stands at a cursor tells the kind of its token. -/
theorem current_kind_of_reads_external {c c' : Cursor} {d : External} {ls : List Lexeme}
    (h : c.Reads (d.yield ++ ls) c') : c.current.kind = .int := by
  cases d with
  | prototype p => exact h.1
  | function f => exact h.1

theorem length_yield_external_pos (d : External) : 0 < d.yield.length := by
  cases d <;> simp [External.yield, Prototype.yield]

/-- Declarations and definitions up to an end token, each in the scope that the ones before it
leave. -/
theorem externalsFrom_eq_ok_iff :
    ∀ {rounds : Nat} {s : State} {ds : List External}, s.depth = 0 →
      s.cursor.tokensLeft ≤ rounds →
      ((∃ t, externalsFrom rounds s = .ok ds t) ↔
        ∃ c, s.cursor.Reads (ds.flatMap External.yield) c ∧ c.current.kind = .eof ∧
          ValidFrom s.scope ds) := by
  -- at an end token, both sides say that there is no declaration
  have hend {s : State} {ds : List External} (hs : s.current.kind = .eof) :
      (∃ t, ds = [] ∧ t = s) ↔ ∃ c, s.cursor.Reads (ds.flatMap External.yield) c ∧
        c.current.kind = .eof ∧ ValidFrom s.scope ds := by
    constructor
    · intro h
      obtain ⟨-, rfl, -⟩ := h
      exact ⟨s.cursor, rfl, hs, trivial⟩
    · intro h
      obtain ⟨c, hreads, -⟩ := h
      cases ds with
      | nil => exact ⟨s, rfl, rfl⟩
      | cons d ds =>
        have hkind : s.current.kind = .int := current_kind_of_reads_external hreads
        rw [hs] at hkind
        cases hkind
  intro rounds
  induction rounds with
  | zero =>
    intro s ds hd hrounds
    have heof : s.current.kind = .eof := Cursor.current_kind_of_tokensLeft (Nat.le_zero.mp hrounds)
    rw [← hend heof]
    simp only [externalsFrom, pure_eq_ok_iff]
  | succ rounds ih =>
    intro s ds hd hrounds
    simp only [externalsFrom, currentKind, look_bind_eq_ok_iff]
    by_cases heof : s.current.kind = .eof
    · rw [← hend heof]
      simp only [if_pos heof, pure_eq_ok_iff]
    · simp only [if_neg heof, bind_eq_ok_iff]
      have hstep {d : External} {u : State} (h : s.Reads d.yield u) :
          u.depth = 0 ∧ u.cursor.tokensLeft ≤ rounds := by
        have hleft := h.tokensLeft
        have hpos := length_yield_external_pos d
        exact ⟨h.depth_eq.trans hd, by omega⟩
      constructor
      · intro h
        obtain ⟨t, first, u, hfirst, more, v, hmore, hpure⟩ := h
        obtain ⟨rfl, rfl⟩ := pure_eq_ok_iff.mp hpure
        obtain ⟨w, hreads, hvalid, rfl⟩ := (external_eq_ok_iff hd).mp hfirst
        obtain ⟨hdw, hleft⟩ := hstep hreads
        obtain ⟨c, hreads', hc, hvalid'⟩ :=
          (ih (s := { w with scope := s.scope.behind first }) hdw hleft).mp ⟨_, hmore⟩
        exact ⟨c, Cursor.reads_append.mpr ⟨w.cursor, hreads.1, hreads'⟩, hc, hvalid,
          validFrom_behind.mp hvalid'⟩
      · intro h
        obtain ⟨c, hreads, hc, hvalid⟩ := h
        cases ds with
        | nil =>
          obtain rfl : c = s.cursor := hreads
          exact absurd hc heof
        | cons first more =>
          obtain ⟨hfirst, hvalid'⟩ := hvalid
          obtain ⟨c', hreads', hmore⟩ := Cursor.reads_append.mp hreads
          have hw : s.Reads first.yield { s with cursor := c' } := ⟨hreads', rfl⟩
          obtain ⟨hdw, hleft⟩ := hstep hw
          obtain ⟨t, ht⟩ :=
            (ih (s := { s with cursor := c', scope := s.scope.behind first }) hdw hleft).mpr
              ⟨c, hmore, hc, validFrom_behind.mpr hvalid'⟩
          exact ⟨t, first, _, (external_eq_ok_iff hd).mpr ⟨_, hw, hfirst, rfl⟩, more, t, ht, rfl⟩

theorem pos_ofList (tokens : List Token) : (Cursor.ofList tokens).pos = 0 := by
  unfold Cursor.ofList
  split
  · rfl
  · split <;> rfl

/-- A source is read from its first token on, whatever was read before. -/
theorem rewind_start (tokens : List Token) (file : String) :
    rewind (.start tokens file) = .start tokens file := by
  have hseek : (Cursor.ofList tokens).seek 0 = Cursor.ofList tokens := by
    rw [← pos_ofList tokens, Cursor.seek_pos_self]
  rw [rewind, State.start, hseek]

/-- The rule for whole sources is a loop over declarations. -/
theorem program_eq_ok_iff {s : State} (hs : rewind s = s) {u : Program} {t : State} :
    program s = .ok u t ↔
      ∃ ds, externalsFrom s.cursor.tokensLeft s = .ok ds t ∧ u = initialProgram.addAll ds := by
  rw [program, hs, backtrack_eq_ok_iff, tokensLeft, look_bind_eq_ok_iff, bind_eq_ok_iff]
  constructor
  · intro h
    obtain ⟨ds, v, hds, hend⟩ := h
    obtain ⟨rfl, rfl⟩ := pure_eq_ok_iff.mp hend
    exact ⟨ds, hds, rfl⟩
  · intro h
    obtain ⟨ds, hds, rfl⟩ := h
    exact ⟨ds, t, hds, rfl⟩

theorem ofTokens_eq_ok_iff_exists {tokens : List Token} {file : String} {u : Program} :
    Program.ofTokens tokens file = .ok u ↔ ∃ t, program (.start tokens file) = .ok u t := by
  unfold Program.ofTokens
  cases program (.start tokens file) with
  | ok v t =>
    constructor
    · rintro ⟨⟩
      exact ⟨t, rfl⟩
    · rintro ⟨_, ⟨⟩⟩
      rfl
  | error e t =>
    constructor
    · intro h
      cases h
    · rintro ⟨_, ⟨⟩⟩

/-- **Whole token lists.**  A program is made of declarations that are valid one after the other and
whose lexemes stand at the start of the list, up to an end token. -/
theorem ofTokens_eq_ok_iff {tokens : List Token} {file : String} {u : Program} :
    Program.ofTokens tokens file = .ok u ↔
      ∃ ds c, (Cursor.ofList tokens).Reads (ds.flatMap External.yield) c ∧
        c.current.kind = .eof ∧ ValidFrom .initial ds ∧ u = initialProgram.addAll ds := by
  have hloop {ds : List External} :=
    @externalsFrom_eq_ok_iff _ (.start tokens file) ds rfl (Nat.le_refl _)
  rw [ofTokens_eq_ok_iff_exists]
  simp only [program_eq_ok_iff (rewind_start tokens file)]
  constructor
  · intro h
    obtain ⟨t, ds, hds, rfl⟩ := h
    obtain ⟨c, hreads, hc, hvalid⟩ := hloop.mp ⟨t, hds⟩
    exact ⟨ds, c, hreads, hc, hvalid, rfl⟩
  · intro h
    obtain ⟨ds, c, hreads, hc, hvalid, rfl⟩ := h
    obtain ⟨t, ht⟩ := hloop.mpr ⟨c, hreads, hc, hvalid⟩
    exact ⟨t, ds, ht, rfl⟩

end Grammar

end IntC
