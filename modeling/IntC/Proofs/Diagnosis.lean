/-
# What a diagnostic for a source says

A source that is refused is refused with a diagnostic for one of its tokens.  This file says what is
true of that token, from the tokens before it and behind it alone: the declarations that stand
before the one it is in, the variables that have been declared in its function, the statements
before it.

* `ParamFault`, `DeclFault`, `StmtsFault`, `BodyFault`, `ExternalFault`: what can be wrong with a
  token, from parameters up to whole declarations.  Inside of a statement it is a `Fault`.
* `blamed_prototype`, `blamed_body`, `blamed_external`: each rule blames a token for a fault of it.
* `blamed_externalsFrom`: behind valid declarations, for the first one that is not.
* `fault_of_program_eq_error`: the same for whole sources, by the index of the token.
-/
import Mathlib
import IntC.Proofs.Blame

namespace IntC

/-! ## 1. Faults in declarations -/

/-- What is wrong with a token in a parameter list, where the names `earlier` are taken before it
starts. -/
inductive ParamFault (earlier : List String) : List Lexeme → Token → List Token → Cause → Prop
  | unexpected {ls : List Lexeme} {token : Token} {behind : List Token} :
      ParamFault earlier ls token behind (.unexpectedToken token.value)
  /-- It names a parameter, and an earlier one has the same name. -/
  | repeated {params : List String} {token : Token} {behind : List Token}
      (hkind : token.kind = .identifier) (hname : token.value ∈ earlier ++ params) :
      ParamFault earlier
        (params.flatMap (fun x => [.mark .int, .word x, .mark .comma]) ++ [.mark .int]) token behind
        (.repeatedParameter token.value)

/-- One more parameter in front. -/
theorem ParamFault.prepend {earlier : List String} {x : String} {ls : List Lexeme} {token : Token}
    {behind : List Token} {cause : Cause} (h : ParamFault (earlier ++ [x]) ls token behind cause) :
    ParamFault earlier ([.mark .int, .word x, .mark .comma] ++ ls) token behind cause := by
  cases h with
  | unexpected => exact .unexpected
  | @repeated params _ _ hkind hname =>
    rw [List.append_assoc] at hname
    exact @ParamFault.repeated earlier (x :: params) token behind hkind hname

/-- What is wrong with a token in the declarations at the start of a body, where `vars` are in scope
before they start. -/
inductive DeclFault (vars : List String) : List Lexeme → Token → List Token → Cause → Prop
  | unexpected {ls : List Lexeme} {token : Token} {behind : List Token} :
      DeclFault vars ls token behind (.unexpectedToken token.value)
  /-- It starts the declaration of a variable whose name is taken. -/
  | repeated {decls : List VarDecl} {token name semicolon : Token} {behind : List Token}
      (hint : token.kind = .int) (hkind : name.kind = .identifier)
      (hsemicolon : semicolon.kind = .semicolon)
      (hname : name.value ∈ vars ++ decls.map VarDecl.name) :
      DeclFault vars (decls.flatMap VarDecl.yield) token (name :: semicolon :: behind)
        (.repeatedVariable name.value)

/-- One more variable in front. -/
theorem DeclFault.prepend {vars : List String} {decl : VarDecl} {ls : List Lexeme} {token : Token}
    {behind : List Token} {cause : Cause}
    (h : DeclFault (vars ++ [decl.name]) ls token behind cause) :
    DeclFault vars (decl.yield ++ ls) token behind cause := by
  cases h with
  | unexpected => exact .unexpected
  | @repeated decls _ name semicolon behind hint hkind hsemicolon hname =>
    rw [List.append_assoc] at hname
    exact @DeclFault.repeated vars (decl :: decls) token name semicolon behind hint hkind hsemicolon
      hname

/-- What is wrong with a token in the statements of a function, or with the one that closes them,
where `u` is the program so far and `vars` are in scope. -/
inductive StmtsFault (u : Program) (vars : List String) (function : String) :
    List Lexeme → Token → List Token → Cause → Prop
  | inside {ls : List Lexeme} {token : Token} {behind : List Token} {cause : Cause}
      (h : InStmts u vars maxNesting ls token behind cause) :
      StmtsFault u vars function ls token behind cause
  /-- It closes the body behind a statement that is no return. -/
  | missingReturn {stmts : List Stmt} {token : Token} {behind : List Token}
      (hkind : token.kind = .closeCurly) (hshaped : ∀ a ∈ stmts, a.Shaped)
      (hlast : ∀ value, stmts.getLast? ≠ some (.ret value)) :
      StmtsFault u vars function (stmts.flatMap Stmt.yield) token behind (.missingReturn function)

/-- What is wrong with a token in the body of a function with the signature `p`, where `u` is the
program so far. -/
inductive BodyFault (u : Program) (p : Prototype) :
    List Lexeme → Token → List Token → Cause → Prop
  | unexpected {ls : List Lexeme} {token : Token} {behind : List Token} :
      BodyFault u p ls token behind (.unexpectedToken token.value)
  | decls {ls : List Lexeme} {token : Token} {behind : List Token} {cause : Cause}
      (h : DeclFault p.params ls token behind cause) :
      BodyFault u p (.mark .openCurly :: ls) token behind cause
  | stmts {decls : List VarDecl} {ls : List Lexeme} {token : Token} {behind : List Token}
      {cause : Cause}
      (h : StmtsFault u (p.params ++ decls.map VarDecl.name) p.name ls token behind cause) :
      BodyFault u p (.mark .openCurly :: (decls.flatMap VarDecl.yield ++ ls)) token behind cause

/-- What is wrong with a token in a declaration or definition, where `u` is the program so far. -/
inductive ExternalFault (u : Program) : List Lexeme → Token → List Token → Cause → Prop
  | unexpected {ls : List Lexeme} {token : Token} {behind : List Token} :
      ExternalFault u ls token behind (.unexpectedToken token.value)
  | params {f : String} {ls : List Lexeme} {token : Token} {behind : List Token} {cause : Cause}
      (h : ParamFault [] ls token behind cause) :
      ExternalFault u (.mark .int :: .word f :: .mark .openParen :: ls) token behind cause
  /-- It ends the signature of a function that has been defined. -/
  | repeatedDefinition {p : Prototype} {token : Token} {behind : List Token}
      (hkind : token.kind = .semicolon ∨ token.kind = .openCurly)
      (hdefined : ∃ f ∈ u.functions, f.name = p.name) :
      ExternalFault u p.yield token behind (.repeatedDefinition p.name)
  /-- It ends the signature of a function that has been declared with another number of
  parameters. -/
  | arityConflict {p : Prototype} {n : Nat} {token : Token} {behind : List Token}
      (hkind : token.kind = .semicolon ∨ token.kind = .openCurly)
      (hdeclared : ∃ q ∈ u.prototypes, q.name = p.name ∧ q.arity = n) (hne : n ≠ p.arity) :
      ExternalFault u p.yield token behind (.arityConflict p.name n p.arity)
  | body {p : Prototype} {ls : List Lexeme} {token : Token} {behind : List Token} {cause : Cause}
      (h : BodyFault u p ls token behind cause) :
      ExternalFault u (p.yield ++ ls) token behind cause

/-! ## 2. Signatures -/

namespace Grammar

open Rule

variable {u : Program} {s t : State} {e : Diagnostic}

section Parts

variable {β : Type} {F : List Lexeme → Token → List Token → Cause → Prop}

/-- A token of a kind and then more: the token is blamed, or something further on is. -/
theorem blamed_expect_bind {kind : Token.Kind} {f : Token → Rule β} (l : Lexeme)
    (hl : s.current.kind = kind → s.Reads [l] s.advance)
    (hF : ∀ token behind, F [] token behind (.unexpectedToken token.value))
    (h : (expect kind >>= f) s = .error e t)
    (hf : s.current.kind = kind → f s.current s.advance = .error e t →
      Blamed (fun ls => F (l :: ls)) s.advance.cursor.ahead e) : Blamed F s.cursor.ahead e := by
  rw [expect_bind_apply] at h
  split at h
  · next hkind => exact (hf hkind h).prepend (hl hkind).1 fun h' => h'
  · cases h
    exact .of_reads (State.reads_nil.mpr rfl) fun behind _ _ => hF s.current behind

end Parts

/-- What comes of reading parameters. -/
theorem paramsFrom_cases : ∀ (rounds : Nat) (earlier : List String) (s : State),
    (∃ params t ls, paramsFrom earlier rounds s = .ok params t ∧ s.Reads ls t) ∨
      ∃ e t, paramsFrom earlier rounds s = .error e t ∧
        Blamed (ParamFault earlier) s.cursor.ahead e
  | 0, _, s => .inr ⟨s.unexpected, s, rfl, .of_reads (State.reads_nil.mpr rfl) fun _ _ _ =>
      .unexpected⟩
  | rounds + 1, earlier, s => by
    rw [paramsFrom, expect_bind_apply]
    by_cases hint : s.current.kind = .int
    · have hfirst : s.Reads [.mark .int] s.advance := State.reads_mark_self (by decide) hint
      rw [if_pos hint, expect_bind_apply]
      by_cases hname : s.advance.current.kind = .identifier
      · rw [if_pos hname]
        by_cases htaken : earlier.contains s.advance.current.value = true
        · rw [if_pos htaken]
          refine .inr ⟨_, _, rfl, .of_reads hfirst fun _ _ _ => ?_⟩
          exact @ParamFault.repeated earlier [] _ _ hname (by simpa using htaken)
        · have hparam : s.Reads [.mark .int, .word s.advance.current.value] s.advance.advance :=
            State.reads_append.mpr ⟨_, hfirst, State.reads_word_self hname⟩
          rw [if_neg htaken, currentKind, look_bind_apply]
          by_cases hcomma : s.advance.advance.current.kind = .comma
          · rw [if_pos hcomma, advance_bind_apply]
            have hreads := State.reads_append.mpr
              ⟨_, hparam, State.reads_mark_self (by decide) hcomma⟩
            rcases paramsFrom_cases rounds (earlier ++ [s.advance.current.value])
              s.advance.advance.advance with ⟨more, t, ls, hmore, hreads'⟩ | ⟨e, t, hmore, hblamed⟩
            · exact .inl ⟨_, t, _, bind_of_ok hmore, State.reads_append.mpr ⟨_, hreads, hreads'⟩⟩
            · exact .inr ⟨e, t, bind_of_error hmore, hblamed.prepend hreads.1 ParamFault.prepend⟩
          · rw [if_neg hcomma]
            exact .inl ⟨_, _, _, rfl, hparam⟩
      · rw [if_neg hname]
        exact .inr ⟨_, _, rfl, .of_reads hfirst fun _ _ _ => .unexpected⟩
    · rw [if_neg hint]
      exact .inr ⟨_, _, rfl, .of_reads (State.reads_nil.mpr rfl) fun _ _ _ => .unexpected⟩

/-- **Signatures.** -/
theorem blamed_prototype (h : prototype s = .error e t) :
    Blamed (ExternalFault u) s.cursor.ahead e := by
  obtain ⟨v, h, -⟩ := backtrack_eq_error_iff.mp h
  refine blamed_expect_bind (.mark .int) (State.reads_mark_self (by decide))
    (fun _ _ => .unexpected) h fun _ h => ?_
  refine blamed_expect_bind (.word s.advance.current.value) State.reads_word_self
    (fun _ _ => .unexpected) h fun _ h => ?_
  refine blamed_expect_bind (.mark .openParen) (State.reads_mark_self (by decide))
    (fun _ _ => .unexpected) h fun _ h => ?_
  -- behind the parameters there is only the closing parenthesis to miss
  have hclose {w x : State} {ls : List Lexeme} {p : Prototype}
      (hreads : s.advance.advance.advance.Reads ls w)
      (h : (do let _ ← expect .closeParen; return p : Rule Prototype) w = .error e x) :
      Blamed (fun ls => ExternalFault u (.mark .int :: .word s.advance.current.value ::
        .mark .openParen :: ls)) s.advance.advance.advance.cursor.ahead e := by
    rw [expect_bind_apply] at h
    split at h
    · cases h
    · cases h
      exact .of_reads hreads fun _ _ _ => .unexpected
  rw [currentKind, look_bind_apply] at h
  dsimp only at h
  split at h
  · rw [tokensLeft, look_bind_apply] at h
    rcases paramsFrom_cases s.advance.advance.advance.cursor.tokensLeft []
      s.advance.advance.advance with ⟨params, w, ls, hrun, hreads⟩ | ⟨e', w, hrun, hblamed⟩
    · rw [bind_of_ok hrun] at h
      exact hclose hreads h
    · rw [bind_of_error hrun] at h
      cases h
      exact hblamed.mono .params
  · rw [pure_bind] at h
    exact hclose (State.reads_nil.mpr rfl) h

/-! ## 3. Bodies -/

theorem blamed_varDecl {F : List Lexeme → Token → List Token → Cause → Prop}
    (hF : ∀ ls token behind, F ls token behind (.unexpectedToken token.value))
    (h : varDecl s = .error e t) : Blamed F s.cursor.ahead e := by
  obtain ⟨v, h, -⟩ := backtrack_eq_error_iff.mp h
  refine blamed_expect_bind (.mark .int) (State.reads_mark_self (by decide)) (hF _) h fun _ h => ?_
  refine blamed_expect_bind (.word s.advance.current.value) State.reads_word_self (hF _) h
    fun _ h => ?_
  refine blamed_expect_bind (.mark .semicolon) (State.reads_mark_self (by decide)) (hF _) h
    fun _ h => ?_
  cases h

theorem enterVariable_eq_error {start : Position} {name : String}
    (h : enterVariable start name s = .error e t) :
    name ∈ s.scope.vars ∧ e = ⟨.repeatedVariable name, start⟩ := by
  rw [enterVariable, Rule.scope, look_bind_apply, Scope.declareVariable] at h
  by_cases hvar : s.scope.isVariable name = true
  · rw [if_pos hvar] at h
    cases h
    exact ⟨Scope.isVariable_iff.mp hvar, rfl⟩
  · rw [if_neg hvar] at h
    cases h

/-- A declaration that stands at a state, token by token. -/
theorem exists_behind_of_reads_varDecl {decl : VarDecl} {behind : List Token}
    (hreads : s.Reads decl.yield t) (hahead : s.cursor.ahead = s.current :: behind) :
    s.current.kind = .int ∧ ∃ name semicolon rest, behind = name :: semicolon :: rest ∧
      name.kind = .identifier ∧ name.value = decl.name ∧ semicolon.kind = .semicolon := by
  obtain ⟨before, hbefore, hmatch⟩ := hreads.1.ahead
  rw [hahead] at hbefore
  cases hmatch with
  | cons hint hmatch =>
    cases hmatch with
    | cons hname hmatch =>
      cases hmatch with
      | cons hsemicolon hmatch =>
        cases hmatch
        cases hbefore
        exact ⟨hint, _, _, _, rfl, hname.1, hname.2, hsemicolon⟩

theorem blamed_varDeclsFrom : ∀ {rounds : Nat} {s t : State} {e : Diagnostic},
    varDeclsFrom rounds s = .error e t → Blamed (DeclFault s.scope.vars) s.cursor.ahead e := by
  intro rounds
  induction rounds with
  | zero =>
    intro s t e h
    cases h
  | succ rounds ih =>
    intro s t e h
    rw [varDeclsFrom, currentKind, look_bind_apply] at h
    split at h
    · rw [Rule.position, look_bind_apply] at h
      rcases bind_eq_error_iff.mp h with hdecl | ⟨decl, v, hdecl, h⟩
      · exact blamed_varDecl (fun _ _ _ => .unexpected) hdecl
      obtain ⟨hreads, -⟩ := varDecl_eq_ok_iff.mp hdecl
      rcases bind_eq_error_iff.mp h with henter | ⟨⟨⟩, w, henter, h⟩
      · obtain ⟨hmem, rfl⟩ := enterVariable_eq_error henter
        rw [hreads.scope_eq] at hmem
        refine Blamed.of_reads (State.reads_nil.mpr rfl) fun behind hahead _ => ?_
        obtain ⟨hint, name, semicolon, rest, rfl, hkind, hname, hsemicolon⟩ :=
          exists_behind_of_reads_varDecl hreads hahead
        rw [← hname]
        exact @DeclFault.repeated _ [] _ _ _ _ hint hkind hsemicolon (by simpa [hname] using hmem)
      · obtain ⟨-, rfl⟩ := enterVariable_eq_ok_iff.mp henter
        rcases bind_eq_error_iff.mp h with h | ⟨more, x, -, h⟩
        · have hblamed := ih h
          rw [State.vars_withVars, hreads.scope_eq] at hblamed
          exact hblamed.prepend hreads.1 DeclFault.prepend
        · cases h
    · cases h

/-- What follows the variables of a body.  Where the statements do not end at a closing brace, the
failure of the last one is reported. -/
theorem blamed_stmts_closeCurly (hd : s.depth = 0) (hrecords : Records s.scope u) {function : String}
    {decls : List VarDecl}
    (h : (do let (stmts, stop) ← stmtsFrom (← tokensLeft)
             if (← currentKind) = .closeCurly then
               if stmts.getLast?.any Stmt.isReturn then
                 let _ ← expect .closeCurly
                 return { decls, stmts }
               else fail (.missingReturn function)
             else throw stop : Rule Body) s = .error e t) :
    Blamed (StmtsFault u s.scope.vars function) s.cursor.ahead e := by
  rw [tokensLeft, look_bind_apply] at h
  rcases bind_eq_error_iff.mp h with hstmts | ⟨⟨stmts, stop⟩, v, hstmts, h⟩
  · exact absurd hstmts (total_stmtsFrom _).ne_error
  dsimp only at h
  rw [currentKind, look_bind_apply] at h
  by_cases hclose : v.current.kind = .closeCurly
  · rw [if_pos hclose] at h
    by_cases hlast : stmts.getLast?.any Stmt.isReturn = true
    · rw [if_pos hlast, expect_bind_apply, if_pos hclose] at h
      cases h
    · rw [if_neg hlast] at h
      cases h
      obtain ⟨hreads, hvalid⟩ :=
        (stmtsFrom_eq_ok_iff hclose hd (Nat.le_refl _)).mp ⟨stop, hstmts⟩
      refine .of_reads hreads fun _ _ _ => .missingReturn hclose ?_ ?_
      · intro a ha
        exact (Stmt.validIn_iff.mp (hvalid a ha)).1
      · intro value hvalue
        exact hlast (getLast?_any_isReturn_iff.mpr ⟨value, hvalue⟩)
  · rw [if_neg hclose] at h
    cases h
    have hready : Ready u maxNesting s := ⟨by rw [hd]; rfl, hrecords⟩
    exact (blamed_of_stmtsFrom hready hstmts).mono .inside

/-- **Bodies.** -/
theorem blamed_body {p : Prototype} (hd : s.depth = 0) (hrecords : Records s.scope u)
    (hp : p.params.Nodup) (h : body p s = .error e t) :
    Blamed (BodyFault u p) s.cursor.ahead e := by
  obtain ⟨x, h, -⟩ := backtrack_eq_error_iff.mp h
  refine blamed_expect_bind (.mark .openCurly) (State.reads_mark_self (by decide))
    (fun _ _ => .unexpected) h fun _ h => ?_
  rw [update_bind_apply, tokensLeft, look_bind_apply] at h
  rcases bind_eq_error_iff.mp h with hdecls | ⟨decls, v, hdecls, h⟩
  · exact (blamed_varDeclsFrom hdecls).mono .decls
  · obtain ⟨⟨hreads, hvars, -, -⟩, -⟩ :=
      (varDeclsFrom_eq_ok_iff (s := s.advance.withVars p.params) hp (Nat.le_refl _)).mp hdecls
    have hscope : v.scope = { s.scope with vars := v.scope.vars } :=
      congrArg (fun scope : Scope => { scope with vars := v.scope.vars }) hreads.scope_eq
    have hrecords' : Records v.scope u := by
      rw [hscope]
      exact hrecords.withVars _
    have hdv : v.depth = 0 := hreads.depth_eq.trans hd
    have hvars' : v.scope.vars = p.params ++ decls.map VarDecl.name := hvars
    have hblamed := blamed_stmts_closeCurly hdv hrecords' h
    rw [hvars'] at hblamed
    have hfront : s.advance.cursor.Reads (decls.flatMap VarDecl.yield) v.cursor := hreads.1
    exact hblamed.prepend hfront .stmts

/-! ## 4. Whole sources -/

/-- A signature is refused for what the tables hold, which is what the program so far declares and
defines. -/
theorem externalFault_of_checkPrototype {scope : Scope} (hrecords : Records scope u)
    {p : Prototype} {cause : Cause} {token : Token} {behind : List Token}
    (hkind : token.kind = .semicolon ∨ token.kind = .openCurly)
    (h : scope.checkPrototype p = .error cause) : ExternalFault u p.yield token behind cause := by
  unfold Scope.checkPrototype at h
  split at h
  · next hdefined =>
    cases h
    obtain ⟨n, hlookup⟩ := Option.isSome_iff_exists.mp hdefined
    obtain ⟨f, hf, hname, -⟩ := hrecords.ofDefined p.name n hlookup
    exact .repeatedDefinition hkind ⟨f, hf, hname⟩
  · split at h
    · next n hlookup =>
      split at h
      · cases h
      · next hne =>
        cases h
        exact .arityConflict hkind (hrecords.ofDeclared p.name n hlookup) hne
    · cases h

/-- **Declarations and definitions.** -/
theorem blamed_external (hd : s.depth = 0) (hrecords : Records s.scope u)
    (h : external s = .error e t) : Blamed (ExternalFault u) s.cursor.ahead e := by
  obtain ⟨x, h, -⟩ := backtrack_eq_error_iff.mp h
  rcases bind_eq_error_iff.mp h with hp | ⟨p, v, hp, h⟩
  · exact blamed_prototype hp
  obtain ⟨hreads, hnodup⟩ := prototype_eq_ok_iff.mp hp
  have hdv : v.depth = 0 := hreads.depth_eq.trans hd
  have hrecords' : Records v.scope u := by
    rw [hreads.scope_eq]
    exact hrecords
  have hrefused {cause : Cause} (hkind : v.current.kind = .semicolon ∨ v.current.kind = .openCurly)
      (hcheck : v.scope.checkPrototype p = .error cause) :
      Blamed (ExternalFault u) s.cursor.ahead (v.diagnose cause) :=
    .of_reads hreads fun _ _ _ => externalFault_of_checkPrototype hrecords' hkind hcheck
  rw [currentKind, look_bind_apply] at h
  cases hkind : v.current.kind with
  | semicolon =>
    rw [hkind] at h
    rcases bind_eq_error_iff.mp h with h | ⟨q, w, -, h⟩
    · obtain ⟨w, h, -⟩ := backtrack_eq_error_iff.mp h
      rw [Rule.position, look_bind_apply, expect_bind_apply, if_pos hkind, Rule.scope,
        look_bind_apply, State.scope_advance] at h
      cases hcheck : v.scope.checkPrototype p with
      | ok =>
        rw [hcheck] at h
        cases h
      | error cause =>
        rw [hcheck] at h
        cases h
        exact hrefused (.inl hkind) hcheck
    · cases h
  | openCurly =>
    rw [hkind] at h
    rcases bind_eq_error_iff.mp h with h | ⟨q, w, -, h⟩
    · obtain ⟨w, h, -⟩ := backtrack_eq_error_iff.mp h
      rw [Rule.scope, look_bind_apply] at h
      cases hcheck : v.scope.checkPrototype p with
      | ok =>
        rw [hcheck] at h
        rcases bind_eq_error_iff.mp h with h | ⟨b, y, -, h⟩
        · exact (blamed_body hdv hrecords' hnodup h).prepend hreads.1 .body
        · cases h
      | error cause =>
        rw [hcheck] at h
        cases h
        exact hrefused (.inr hkind) hcheck
    · cases h
  | _ =>
    rw [hkind] at h
    cases h
    exact .of_reads hreads fun _ _ _ => .unexpected

/-- Declarations up to the first that cannot be read.  Those before it are valid one after the
other. -/
theorem blamed_externalsFrom : ∀ {rounds : Nat} {s t : State} {u : Program} {e : Diagnostic},
    s.depth = 0 → Records s.scope u → externalsFrom rounds s = .error e t →
      Blamed (fun ls token behind cause => ∃ ds ls', ls = ds.flatMap External.yield ++ ls' ∧
        ValidFrom s.scope ds ∧ ExternalFault (u.addAll ds) ls' token behind cause)
        s.cursor.ahead e := by
  intro rounds
  induction rounds with
  | zero =>
    intro s t u e _ _ h
    cases h
  | succ rounds ih =>
    intro s t u e hd hrecords h
    rw [externalsFrom, currentKind, look_bind_apply] at h
    split at h
    · cases h
    rcases bind_eq_error_iff.mp h with h | ⟨first, v, hfirst, h⟩
    · refine (blamed_external hd hrecords h).mono fun hfault => ⟨[], _, rfl, trivial, ?_⟩
      simpa [Program.addAll] using hfault
    · obtain ⟨w, hreads, hvalid, rfl⟩ := (external_eq_ok_iff hd).mp hfirst
      rcases bind_eq_error_iff.mp h with h | ⟨more, x, -, h⟩
      · have hblamed := ih (s := { w with scope := s.scope.behind first })
          (hreads.depth_eq.trans hd) (hrecords.behind hvalid) h
        refine hblamed.prepend hreads.1 ?_
        rintro ls token behind cause ⟨ds, ls', rfl, hds, hfault⟩
        refine ⟨first :: ds, ls', ?_, ⟨hvalid, validFrom_behind.mp hds⟩, ?_⟩
        · simp
        · rw [Program.addAll_cons]
          exact hfault
      · cases h

/-- **Truthful diagnostics.**  A source that is refused is refused for one of its tokens.  Before it
stand declarations that are valid one after the other, and what the diagnostic says is wrong with
it, in the declaration behind these. -/
theorem fault_of_program_eq_error {tokens : List Token} {s t : State} {e : Diagnostic}
    (htokens : s.cursor.toList = tokens) (h : program s = .error e t) :
    ∃ (i : Nat) (token : Token), tokens[i]? = some token ∧ e.position = token.span.start ∧
      ∃ ds ls, List.Forall₂ Lexeme.Matches (ds.flatMap External.yield ++ ls) (tokens.take i) ∧
        ValidFrom .initial ds ∧
        ExternalFault (initialProgram.addAll ds) ls token (tokens.drop (i + 1)) e.cause := by
  obtain ⟨v, h, -⟩ := backtrack_eq_error_iff.mp h
  rw [tokensLeft, look_bind_apply] at h
  rcases bind_eq_error_iff.mp h with h | ⟨ds, w, -, h⟩
  · obtain ⟨ls, before, token, behind, hsplit, hmatch, hplace, ds, ls', rfl, hvalid, hfault⟩ :=
      blamed_externalsFrom (s := rewind s) rfl records_initial h
    have hahead : (rewind s).cursor.ahead = tokens := by
      rw [← htokens]
      simp [rewind, Cursor.ahead]
    rw [hahead] at hsplit
    subst hsplit
    refine ⟨before.length, token, by simp, hplace, ds, ls', by simpa using hmatch, hvalid, ?_⟩
    simpa using hfault
  · cases h

/-- The tokens of a source that calls a function with one argument too many. -/
def miscounted : List Token :=
  (Lexer.tokens "int g(int y){printnum(y,1);return y;}" (some "m")).toOption.getD []

theorem fault_of_program_eq_error_miscounted :
    (State.start miscounted "m").cursor.toList = miscounted ∧
      program (.start miscounted "m") = .error ⟨.argumentCount "printnum" 1 2, ⟨13, "m"⟩⟩
        (after program (.start miscounted "m")) ∧
      ∃ (i : Nat) (token : Token), miscounted[i]? = some token ∧ ⟨13, "m"⟩ = token.span.start ∧
        ∃ ds ls, List.Forall₂ Lexeme.Matches (ds.flatMap External.yield ++ ls)
            (miscounted.take i) ∧
          ValidFrom .initial ds ∧
          ExternalFault (initialProgram.addAll ds) ls token (miscounted.drop (i + 1))
            (.argumentCount "printnum" 1 2) := by
  have htokens : (State.start miscounted "m").cursor.toList = miscounted := by cbv
  have h : program (.start miscounted "m") = .error ⟨.argumentCount "printnum" 1 2, ⟨13, "m"⟩⟩
      (after program (.start miscounted "m")) := by cbv
  exact ⟨htokens, h, fault_of_program_eq_error htokens h⟩

end Grammar

end IntC
