/-
# Every rule makes progress

Several loops of the grammar end only when a rule inside them fails, and moving on does nothing at
an end token.  So the grammar comes to an end only because a rule that succeeds has read something,
on each of the ways it can succeed, and because what it has read is no end token.

`Cursor.Consumes n` is this, with the number of tokens that have been read at the least.  It adds up
(`Cursor.Consumes.trans`), so a rule takes a token if one of its parts does (`Takes.bind`,
`Takes.bind_rest`).  The one step back, from the value of an assignment to its name, is followed by
a sum that is read from the name on.

* `Nonterminal.takes_rule`: every rule but the one for whole sources takes a token.
* `Loop`: the loops of the grammar; `Loop.run_eq` says that each of them ends within as many rounds
  as there are tokens left.
* `rule_progress`: both, for every state.
-/
import IntC.Proofs.Composition
import IntC.Proofs.Refusals

namespace IntC

variable {α β : Type}

/-! ## 1. Tokens between two cursors -/

namespace Cursor

/-- The second cursor is at least `n` tokens behind the first in the same list, and no token between
them is an end token. -/
structure Consumes (n : Nat) (c d : Cursor) : Prop where
  toList_eq : d.toList = c.toList
  pos_add_le : c.pos + n ≤ d.pos
  kind_ne : ∀ i, c.pos ≤ i → i < d.pos → ∃ t, c.toList[i]? = some t ∧ t.kind ≠ .eof

namespace Consumes

variable {m n : Nat} {c d e : Cursor}

theorem refl (c : Cursor) : Consumes 0 c c :=
  ⟨rfl, Nat.le_refl _, fun _ hle hlt => absurd hlt (Nat.not_lt.mpr hle)⟩

theorem trans (h : Consumes m c d) (h' : Consumes n d e) : Consumes (m + n) c e where
  toList_eq := h'.toList_eq.trans h.toList_eq
  pos_add_le := by
    have := h.pos_add_le
    have := h'.pos_add_le
    omega
  kind_ne i hle hlt := by
    by_cases hi : i < d.pos
    · exact h.kind_ne i hle hi
    · rw [← h.toList_eq]
      exact h'.kind_ne i (Nat.not_lt.mp hi) hlt

theorem mono (h : Consumes n c d) (hm : m ≤ n) : Consumes m c d :=
  ⟨h.toList_eq, (Nat.add_le_add_left hm _).trans h.pos_add_le, h.kind_ne⟩

/-- What has been read is no longer left. -/
theorem tokensLeft_add_le (h : Consumes n c d) : d.tokensLeft + n ≤ c.tokensLeft := by
  have hsize : d.body.size = c.body.size := by
    have hlength := congrArg List.length h.toList_eq
    rw [length_toList, length_toList] at hlength
    omega
  have hpos := h.pos_add_le
  have hle := d.pos_le
  simp only [tokensLeft]
  omega

end Consumes

/-- Moving on from a token that is no end token reads it. -/
theorem consumes_advance {c : Cursor} (h : c.current.kind ≠ .eof) : Consumes 1 c c.advance := by
  have hpos : c.advance.pos = c.pos + 1 := by rw [pos_advance, if_neg h]
  refine ⟨c.toList_advance, hpos.ge, fun i hle hlt => ?_⟩
  obtain rfl : i = c.pos := by omega
  exact ⟨c.current, c.getElem?_toList_current, h⟩

/-- At an end token moving on reads nothing. -/
theorem consumes_advance_zero (c : Cursor) : Consumes 0 c c.advance := by
  by_cases h : c.current.kind = .eof
  · rw [advance, dif_pos h]
    exact .refl c
  · exact (consumes_advance h).mono (Nat.zero_le 1)

/-- Lexemes are tokens that are no end token. -/
theorem Reads.consumes {ls : List Lexeme} {c d : Cursor} (h : c.Reads ls d) :
    Consumes ls.length c d := by
  induction ls generalizing c with
  | nil =>
    obtain rfl : d = c := h
    exact .refl d
  | cons l ls ih =>
    obtain ⟨hl, hne, h⟩ := h
    have hfirst : Consumes 1 c c.advance := consumes_advance (hl.kind_eq ▸ hne)
    rw [List.length_cons, Nat.add_comm]
    exact hfirst.trans (ih h)

end Cursor

/-! ## 2. Rules that take tokens -/

namespace Rule

/-- If the rule succeeds from the state, it has read `n` tokens or more. -/
def TakesAt (n : Nat) (r : Rule α) (s : State) : Prop :=
  ∀ ⦃a t⦄, r s = .ok a t → s.cursor.Consumes n t.cursor

/-- If the rule succeeds, it has read `n` tokens or more. -/
def Takes (n : Nat) (r : Rule α) : Prop := ∀ s, TakesAt n r s

section Parts

variable {n : Nat} {r : Rule α} {f : α → Rule β} {s : State}

theorem TakesAt.bind (hr : TakesAt n r s) (hf : ∀ a, Takes 0 (f a)) : TakesAt n (r >>= f) s := by
  intro b t h
  obtain ⟨a, u, hu, h'⟩ := bind_eq_ok_iff.mp h
  exact (hr hu).trans (hf a u h')

/-- The first part takes the tokens. -/
theorem Takes.bind (hr : Takes n r) (hf : ∀ a, Takes 0 (f a)) : Takes n (r >>= f) :=
  fun s => (hr s).bind hf

/-- The rest takes the tokens. -/
theorem Takes.bind_rest (hr : Takes 0 r) (hf : ∀ a, Takes n (f a)) : Takes n (r >>= f) := by
  intro s b t h
  obtain ⟨a, u, hu, h'⟩ := bind_eq_ok_iff.mp h
  have hsum := (hr s hu).trans (hf a u h')
  rwa [Nat.zero_add] at hsum

theorem Takes.any (h : Takes n r) : Takes 0 r := fun s _ _ hr => (h s hr).mono (Nat.zero_le n)

theorem Takes.pure (a : α) : Takes 0 (pure a : Rule α) := by
  rintro s _ _ ⟨⟩
  exact .refl _

theorem Takes.look (g : State → α) : Takes 0 (look g) := by
  rintro s _ _ ⟨⟩
  exact .refl _

theorem Takes.update (g : Scope → Scope) : Takes 0 (update g) := by
  rintro s _ _ ⟨⟩
  exact .refl _

/-- What depends on the state goes on from that state. -/
theorem Takes.look_bind {g : State → α} (h : ∀ s, TakesAt n (f (g s)) s) :
    Takes n (Rule.look g >>= f) := h

theorem Takes.fail (cause : Cause) : Takes n (fail cause : Rule α) := fun _ _ _ h => nomatch h

theorem Takes.failAt (p : Position) (cause : Cause) : Takes n (failAt p cause : Rule α) :=
  fun _ _ _ h => nomatch h

theorem Takes.unexpected : Takes n (unexpected : Rule α) := fun _ _ _ h => nomatch h

theorem Takes.throw (e : Diagnostic) : Takes n (throw e : Rule α) := fun _ _ _ h => nomatch h

theorem TakesAt.advance (h : s.current.kind ≠ .eof) : TakesAt 1 Rule.advance s := by
  rintro _ _ ⟨⟩
  exact Cursor.consumes_advance h

theorem Takes.advance : Takes 0 Rule.advance := by
  rintro s _ _ ⟨⟩
  exact s.cursor.consumes_advance_zero

theorem Takes.expect {kind : Token.Kind} (hkind : kind ≠ .eof) : Takes 1 (expect kind) := by
  intro s a t h
  obtain ⟨hcurrent, -, rfl⟩ := expect_eq_ok_iff.mp h
  exact Cursor.consumes_advance (c := s.cursor) (by rw [← State.current, hcurrent]; exact hkind)

theorem Takes.backtrack (h : Takes n r) : Takes n (backtrack r) :=
  fun s _ _ hr => h s (backtrack_eq_ok_iff.mp hr)

theorem Takes.deeper (h : Takes n r) : Takes n (deeper r) := by
  intro s a t hr
  obtain ⟨-, u, hu, rfl⟩ := deeper_eq_ok_iff.mp hr
  have htakes := h { s with depth := s.depth + 1 } hu
  exact htakes

theorem Takes.map (g : α → β) (h : Takes n r) : Takes n (g <$> r) := by
  rw [← bind_pure_comp]
  exact h.bind fun a => .pure _

/-- A rule that reads the lexemes of what it gives takes a token if there is a lexeme. -/
theorem Takes.of_reads (yield : α → List Lexeme)
    (h : ∀ {s a t}, r s = .ok a t → s.Reads (yield a) t ∧ yield a ≠ []) : Takes 1 r := by
  intro s a t hr
  obtain ⟨hreads, hne⟩ := h hr
  exact hreads.1.consumes.mono (List.length_pos_iff.mpr hne)

end Parts

end Rule

namespace Grammar

open Rule

/-! ## 3. Expressions -/

theorem takes_primary : Takes 1 primary := by
  refine .of_reads Expr.yield fun h => ?_
  obtain ⟨hreads, hadm⟩ := primary_eq_ok_iff.mp h
  obtain ⟨l, ls, hl, -⟩ := Expr.exists_yield_eq_cons hadm.shape
  exact ⟨hreads, by simp [hl]⟩

section Circle

variable {arg : Rule Expr}

theorem takes_argumentsFrom (h : Takes 1 arg) : ∀ rounds, Takes 1 (argumentsFrom arg rounds)
  | 0 => .unexpected
  | rounds + 1 => by
    unfold argumentsFrom
    refine .bind h fun first => .bind (.look _) fun kind => ?_
    split
    · exact .bind .advance fun _ => .bind (takes_argumentsFrom h rounds).any fun _ => .pure _
    · exact .pure _

theorem takes_arguments (h : Takes 1 arg) : Takes 0 (arguments arg) := by
  unfold arguments
  refine .bind (.look _) fun kind => ?_
  split
  · exact .pure _
  · exact .bind (.look _) fun rounds => (takes_argumentsFrom h rounds).any

theorem takes_callWith (h : Takes 1 arg) : Takes 1 (callWith arg) := by
  unfold callWith
  refine .backtrack (.bind_rest (.look _) fun start => .bind (.expect (by decide)) fun callee =>
    .bind (.look _) fun names => ?_)
  split
  · exact .failAt _ _
  · refine .bind (Takes.expect (by decide)).any fun _ =>
      .bind (takes_arguments h).deeper fun args => .bind (Takes.expect (by decide)).any fun _ => ?_
    split
    · exact .pure _
    · exact .failAt _ _

/-- A variable or a number takes a token, and if neither can be read the call is tried from the
same place. -/
theorem takes_operandWith (h : Takes 1 arg) : Takes 1 (operandWith arg) := by
  intro s e t hr
  rcases attempt_bind_eq_ok_iff.mp hr with ⟨a, u, hprimary, hr'⟩ | ⟨noPrimary, u, hprimary, hr'⟩
  · obtain ⟨-, rfl⟩ := pure_eq_ok_iff.mp hr'
    exact takes_primary s hprimary
  · obtain rfl := within_primary.eq_of_error undoes_primary hprimary
    rw [peekKind, look_bind_eq_ok_iff, attempt_bind_eq_ok_iff] at hr'
    rcases hr' with ⟨a, v, hcall, hr''⟩ | ⟨noCall, v, -, hr''⟩
    · obtain ⟨-, rfl⟩ := pure_eq_ok_iff.mp hr''
      exact takes_callWith h _ hcall
    · exact absurd hr'' throw_ne_ok

theorem takes_chain {operator? : Token.Kind → Option Operator} (h : Takes 1 arg) :
    ∀ rounds left, Takes 0 (chain operator? arg rounds left)
  | 0, left => .pure _
  | rounds + 1, left => by
    unfold chain
    refine .bind (.look _) fun kind => ?_
    split
    · exact .pure _
    · exact .bind .advance fun _ => .bind h.any fun _ => takes_chain h rounds _

theorem takes_multiplicativeWith (h : Takes 1 arg) : Takes 1 (multiplicativeWith arg) :=
  .backtrack (.bind (takes_operandWith h) fun left => .bind (.look _) fun rounds =>
    takes_chain (takes_operandWith h) rounds left)

theorem takes_additiveWith (h : Takes 1 arg) : Takes 1 (additiveWith arg) :=
  .backtrack (.bind (takes_multiplicativeWith h) fun left => .bind (.look _) fun rounds =>
    takes_chain (takes_multiplicativeWith h) rounds left)

/-- An assignment whose value cannot be read goes back to its name, and from there a sum is read. -/
theorem takes_assignmentWith (hkeep : Within KeepsScope arg) (h : Takes 1 arg) :
    Takes 1 (assignmentWith arg) := by
  unfold assignmentWith
  refine .backtrack (.look_bind fun s => ?_)
  split
  · intro e t hr
    rw [look_bind_eq_ok_iff, advance_bind_eq_ok_iff, advance_bind_eq_ok_iff,
      attempt_bind_eq_ok_iff] at hr
    have hname : s.cursor.Consumes 0 s.advance.advance.cursor :=
      s.cursor.consumes_advance_zero.trans s.cursor.advance.consumes_advance_zero
    rcases hr with ⟨value, u, hvalue, hr'⟩ | ⟨noValue, u, hvalue, hr'⟩
    · obtain ⟨-, rfl⟩ := pure_eq_ok_iff.mp hr'
      exact hname.trans (takes_additiveWith h _ hvalue)
    · obtain rfl := (within_additiveWith hkeep).eq_of_error
        (undoes_backtrack_of_within (within_additiveWith hkeep)) hvalue
      rw [seek_bind_eq_ok_iff, seek_advance_advance] at hr'
      exact takes_additiveWith h _ hr'
  · exact takes_additiveWith h s

end Circle

/-- The circle closes: an argument takes a token because those inside of it do. -/
theorem takes_argument : ∀ levels, Takes 1 (argument levels)
  | 0 => .fail _
  | levels + 1 => takes_assignmentWith (within_argument levels) (takes_argument levels)

theorem takes_atLevel {rule : Rule Expr → Rule Expr}
    (h : ∀ arg, Within KeepsScope arg → Takes 1 arg → Takes 1 (rule arg)) :
    Takes 1 (atLevel rule) :=
  fun s => h _ (within_argument _) (takes_argument (maxNesting - s.depth)) s

theorem takes_assignment : Takes 1 assignment := takes_atLevel fun _ => takes_assignmentWith

/-! ## 4. Statements, functions and declarations -/

theorem takes_expressionStmt : Takes 1 expressionStmt := by
  unfold expressionStmt
  refine .backtrack (.look_bind fun s => ?_)
  split
  · next hsemi => exact (TakesAt.advance (by rw [hsemi]; decide)).bind fun _ => .pure _
  · exact Takes.bind takes_assignment (fun _ => .bind (Takes.expect (by decide)).any fun _ =>
      .pure _) s

theorem takes_returnStmt : Takes 1 returnStmt :=
  .backtrack (.bind (.expect (by decide)) fun _ => .bind takes_assignment.any fun _ =>
    .bind (Takes.expect (by decide)).any fun _ => .pure _)

theorem takes_stmt : Takes 1 stmt := by
  unfold stmt
  refine .bind_rest (.look _) fun kind => ?_
  split
  · exact takes_returnStmt
  · exact takes_expressionStmt

theorem takes_stmtsFrom : ∀ rounds, Takes 0 (stmtsFrom rounds)
  | 0 => .bind (.look _) fun _ => .pure _
  | rounds + 1 => by
    intro s a t hr
    rw [stmtsFrom, attempt_bind_eq_ok_iff] at hr
    rcases hr with ⟨first, u, hfirst, hr'⟩ | ⟨stop, u, hstop, hr'⟩
    · have hmore : Cursor.Consumes 0 u.cursor t.cursor :=
        Takes.bind (takes_stmtsFrom rounds) (fun _ => .pure _) u hr'
      exact ((takes_stmt s hfirst).trans hmore).mono (Nat.zero_le _)
    · obtain rfl := within_stmt.eq_of_error undoes_stmt hstop
      obtain ⟨-, rfl⟩ := pure_eq_ok_iff.mp hr'
      exact .refl _

theorem takes_prototype : Takes 1 prototype :=
  .of_reads Prototype.yield fun h =>
    ⟨(prototype_eq_ok_iff.mp h).1, List.cons_ne_nil _ _⟩

theorem takes_varDecl : Takes 1 varDecl :=
  .of_reads VarDecl.yield fun h => ⟨(varDecl_eq_ok_iff.mp h).1, List.cons_ne_nil _ _⟩

theorem takes_enterVariable (start : Position) (name : String) :
    Takes 0 (enterVariable start name) := by
  intro s a t h
  obtain ⟨-, rfl⟩ := enterVariable_eq_ok_iff.mp h
  exact .refl _

theorem takes_varDeclsFrom : ∀ rounds, Takes 0 (varDeclsFrom rounds)
  | 0 => .pure _
  | rounds + 1 => by
    unfold varDeclsFrom
    refine .bind (.look _) fun kind => ?_
    split
    · exact .bind (.look _) fun start => .bind takes_varDecl.any fun decl =>
        .bind (takes_enterVariable _ _) fun _ => .bind (takes_varDeclsFrom rounds) fun _ => .pure _
    · exact .pure _

theorem takes_body (p : Prototype) : Takes 1 (body p) := by
  unfold body
  refine .backtrack (.bind (.expect (by decide)) fun _ => .bind (.update _) fun _ =>
    .bind (.look _) fun rounds => .bind (takes_varDeclsFrom rounds) fun decls =>
      .bind (.look _) fun rounds' => .bind (takes_stmtsFrom rounds') fun ⟨stmts, stop⟩ =>
        .bind (.look _) fun kind => ?_)
  split
  · split
    · exact .bind (Takes.expect (by decide)).any fun _ => .pure _
    · exact .fail _
  · exact .throw _

theorem takes_declaration (p : Prototype) : Takes 1 (declaration p) := by
  unfold declaration
  refine .backtrack (.bind_rest (.look _) fun start => .bind (.expect (by decide)) fun _ =>
    .bind (.look _) fun names => ?_)
  split
  · exact .bind (.update _) fun _ => .pure _
  · exact .failAt _ _

theorem takes_definition (p : Prototype) : Takes 1 (definition p) := by
  unfold definition
  refine .backtrack (.bind_rest (.look _) fun names => ?_)
  split
  · exact .bind (takes_body p) fun _ => .bind (.update _) fun _ => .pure _
  · exact .fail _

theorem takes_external : Takes 1 external := by
  unfold external
  refine .backtrack (.bind takes_prototype fun p => .bind (.look _) fun kind => ?_)
  split
  · exact .bind (takes_declaration p).any fun _ => .pure _
  · exact .bind (takes_definition p).any fun _ => .pure _
  · exact .unexpected

end Grammar

namespace Session

open Rule Grammar

/-- **Every rule but the one for whole sources takes a token.** -/
theorem Nonterminal.takes_rule {n : Nonterminal} (hn : n ≠ .program) : Takes 1 n.rule := by
  cases n with
  | program => exact absurd rfl hn
  | external => exact takes_external.map _
  | declaration p => exact (takes_declaration p).map _
  | definition p => exact (takes_definition p).map _
  | body p => exact (takes_body p).map _
  | prototype => exact takes_prototype.map _
  | varDecl => exact takes_varDecl.map _
  | stmt => exact takes_stmt.map _
  | expressionStmt => exact takes_expressionStmt.map _
  | returnStmt => exact takes_returnStmt.map _
  | assignment => exact takes_assignment.map _
  | additive => exact (takes_atLevel fun _ _ => takes_additiveWith).map _
  | multiplicative => exact (takes_atLevel fun _ _ => takes_multiplicativeWith).map _
  | operand => exact (takes_atLevel fun _ _ => takes_operandWith).map _
  | call => exact (takes_atLevel fun _ _ => takes_callWith).map _
  | primary => exact takes_primary.map _

end Session

namespace Grammar

open Rule

/-! ## 5. At the last token -/

section Last

variable {arg : Rule Expr} {s : State}

theorem peek_kind_of_tokensLeft (h : s.cursor.tokensLeft = 0) (n : Nat) :
    (s.cursor.peek n).kind = .eof := by
  have hsize : s.cursor.body.size ≤ s.cursor.pos + n := by
    have hpos := s.cursor.pos_le
    rw [Cursor.tokensLeft] at h
    omega
  rw [Cursor.peek, Array.getD_eq_getD_getElem?, Array.getElem?_eq_none hsize, Option.getD_none]
  exact s.cursor.final_kind

/-- At the last token there is no argument, and it is that token which was not expected. -/
theorem assignmentWith_at_last (h : s.cursor.tokensLeft = 0) :
    assignmentWith arg s = .error s.unexpected s := by
  have hkind : s.current.kind = .eof := Cursor.current_kind_of_tokensLeft h
  have hname : s.current.kind ≠ .identifier := by rw [hkind]; decide
  have hprimary : primary s = .error s.unexpected s := by
    simp only [primary, Rule.current, look_bind_apply, hkind]
    rfl
  have hoperand : operandWith arg s = .error s.unexpected s := by
    rw [operandWith, bind_of_ok (attempt_of_error hprimary)]
    dsimp only
    rw [peekKind, look_bind_apply, bind_of_ok (attempt_of_error (callWith_of_kind_ne hname)),
      peek_kind_of_tokensLeft h]
    rfl
  exact (rules_of_error hname hoperand).2.2

theorem stmt_at_last (h : s.cursor.tokensLeft = 0) : stmt s = .error s.unexpected s := by
  have hkind : s.current.kind = .eof := Cursor.current_kind_of_tokensLeft h
  have hassignment : assignment s = .error s.unexpected s := assignmentWith_at_last h
  rw [stmt, currentKind, look_bind_apply, if_neg (by rw [hkind]; decide)]
  refine backtrack_of_error ?_
  rw [currentKind, look_bind_apply, if_neg (by rw [hkind]; decide), bind_of_error hassignment]

end Last

/-! ## 6. Loops -/

/-- Where the parts that follow a rule agree on what the rule gives, so do the wholes. -/
theorem bind_congr_of_ok {r : Rule α} {f g : α → Rule β} {s : State}
    (h : ∀ a t, r s = .ok a t → f a t = g a t) : (r >>= f) s = (r >>= g) s := by
  cases hr : r s with
  | ok a t => rw [bind_of_ok hr, bind_of_ok hr, h a t hr]
  | error e t => rw [bind_of_error hr, bind_of_error hr]

section Rounds

variable {rounds : Nat} {s : State}

/-- Where the statements may take as many rounds as there are tokens left, one round more is not
made use of. -/
theorem stmtsFrom_succ (h : s.cursor.tokensLeft ≤ rounds) :
    stmtsFrom (rounds + 1) s = stmtsFrom rounds s := by
  induction rounds generalizing s with
  | zero =>
    have hstop := stmt_at_last (Nat.le_zero.mp h)
    show (attempt stmt >>= _) s = _
    rw [bind_of_ok (attempt_of_error hstop)]
    rfl
  | succ rounds ih =>
    unfold stmtsFrom
    refine bind_congr_of_ok fun outcome t hout => ?_
    rcases attempt_eq_ok_iff.mp hout with ⟨first, rfl, hfirst⟩ | ⟨stop, rfl, -⟩
    · have hleft := (takes_stmt s hfirst).tokensLeft_add_le
      exact bind_apply_congr (ih (by omega))
    · rfl

theorem chain_succ {operator? : Token.Kind → Option Operator} (heof : operator? .eof = none)
    {operand : Rule Expr} (hoperand : Takes 1 operand) {left : Expr}
    (h : s.cursor.tokensLeft ≤ rounds) :
    chain operator? operand (rounds + 1) left s = chain operator? operand rounds left s := by
  induction rounds generalizing s left with
  | zero =>
    have hkind : s.current.kind = .eof := Cursor.current_kind_of_tokensLeft (Nat.le_zero.mp h)
    rw [chain.eq_2, currentKind, look_bind_apply, hkind, heof]
    rfl
  | succ rounds ih =>
    rw [chain.eq_2, chain.eq_2, currentKind, look_bind_apply, look_bind_apply]
    cases operator? s.current.kind with
    | none => rfl
    | some op =>
      refine bind_congr_of_ok fun token u hmoved => bind_congr_of_ok fun right t hright => ih ?_
      have hu := (Takes.advance s hmoved).tokensLeft_add_le
      have ht := (hoperand u hright).tokensLeft_add_le
      omega

theorem argumentsFrom_succ {arg : Rule Expr} (harg : Takes 1 arg)
    (hlast : ∀ {s : State}, s.cursor.tokensLeft = 0 → arg s = .error s.unexpected s)
    (h : s.cursor.tokensLeft ≤ rounds) :
    argumentsFrom arg (rounds + 1) s = argumentsFrom arg rounds s := by
  induction rounds generalizing s with
  | zero =>
    rw [argumentsFrom.eq_2, bind_of_error (hlast (Nat.le_zero.mp h))]
    rfl
  | succ rounds ih =>
    rw [argumentsFrom.eq_2, argumentsFrom.eq_2]
    refine bind_congr_of_ok fun first t hfirst => ?_
    have ht := (harg s hfirst).tokensLeft_add_le
    rw [currentKind, look_bind_apply, look_bind_apply]
    split
    · refine bind_congr_of_ok fun token u hmoved => bind_apply_congr (ih ?_)
      have hu := (Takes.advance t hmoved).tokensLeft_add_le
      omega
    · rfl

theorem paramsFrom_succ {earlier : List String} (h : s.cursor.tokensLeft ≤ rounds) :
    paramsFrom earlier (rounds + 1) s = paramsFrom earlier rounds s := by
  induction rounds generalizing s earlier with
  | zero =>
    have hkind : s.current.kind = .eof := Cursor.current_kind_of_tokensLeft (Nat.le_zero.mp h)
    rw [paramsFrom.eq_2, expect_bind_apply, if_neg (by rw [hkind]; decide)]
    rfl
  | succ rounds ih =>
    rw [paramsFrom.eq_2, paramsFrom.eq_2]
    refine bind_congr_of_ok fun int t hint => bind_congr_of_ok fun param u hparam => ?_
    have ht := (Takes.expect (by decide) s hint).tokensLeft_add_le
    have hu := (Takes.expect (by decide) t hparam).tokensLeft_add_le
    split
    · rfl
    · rw [currentKind, look_bind_apply, look_bind_apply]
      split
      · refine bind_congr_of_ok fun token v hmoved => bind_apply_congr (ih ?_)
        have hv := (Takes.advance u hmoved).tokensLeft_add_le
        omega
      · rfl

theorem varDeclsFrom_succ (h : s.cursor.tokensLeft ≤ rounds) :
    varDeclsFrom (rounds + 1) s = varDeclsFrom rounds s := by
  induction rounds generalizing s with
  | zero =>
    have hkind : s.current.kind = .eof := Cursor.current_kind_of_tokensLeft (Nat.le_zero.mp h)
    rw [varDeclsFrom.eq_2, currentKind, look_bind_apply, if_neg (by rw [hkind]; decide)]
    rfl
  | succ rounds ih =>
    rw [varDeclsFrom.eq_2, varDeclsFrom.eq_2, currentKind, look_bind_apply, look_bind_apply]
    split
    · rw [Rule.position, look_bind_apply, look_bind_apply]
      refine bind_congr_of_ok fun decl t hdecl => bind_congr_of_ok fun _ u henter =>
        bind_apply_congr (ih ?_)
      have ht := (takes_varDecl s hdecl).tokensLeft_add_le
      have hu := (takes_enterVariable _ _ t henter).tokensLeft_add_le
      omega
    · rfl

theorem externalsFrom_succ (h : s.cursor.tokensLeft ≤ rounds) :
    externalsFrom (rounds + 1) s = externalsFrom rounds s := by
  induction rounds generalizing s with
  | zero =>
    have hkind : s.current.kind = .eof := Cursor.current_kind_of_tokensLeft (Nat.le_zero.mp h)
    rw [externalsFrom.eq_2, currentKind, look_bind_apply, if_pos hkind]
    rfl
  | succ rounds ih =>
    rw [externalsFrom.eq_2, externalsFrom.eq_2, currentKind, look_bind_apply, look_bind_apply]
    split
    · rfl
    · refine bind_congr_of_ok fun first t hfirst => bind_apply_congr (ih ?_)
      have ht := (takes_external s hfirst).tokensLeft_add_le
      omega

end Rounds

/-- The loops of the grammar, each with what it gives. -/
inductive Loop : Type → Type
  /-- The statements of a body. -/
  | stmts : Loop (List Stmt × Diagnostic)
  /-- The factors behind `left`, with a number of argument lists that can be opened in them. -/
  | factors (levels : Nat) (left : Expr) : Loop Expr
  /-- The terms of a sum behind `left`. -/
  | terms (levels : Nat) (left : Expr) : Loop Expr
  /-- The arguments of a call, with a number of argument lists that can be opened in them. -/
  | arguments (levels : Nat) : Loop (List Expr)
  /-- The parameters of a signature behind the names that are taken. -/
  | params (earlier : List String) : Loop (List String)
  /-- The variables of a body. -/
  | varDecls : Loop (List VarDecl)
  /-- The declarations and definitions of a source. -/
  | externals : Loop (List External)

namespace Loop

/-- What a loop reads if it may go round a number of times. -/
def run : Loop α → Nat → Rule α
  | .stmts => stmtsFrom
  | .factors levels left =>
    (chain Operator.multiplicative? (operandWith (argument levels)) · left)
  | .terms levels left =>
    (chain Operator.additive? (multiplicativeWith (argument levels)) · left)
  | .arguments levels => argumentsFrom (argument (levels + 1))
  | .params earlier => paramsFrom earlier
  | .varDecls => varDeclsFrom
  | .externals => externalsFrom

theorem run_succ (loop : Loop α) {rounds : Nat} {s : State} (h : s.cursor.tokensLeft ≤ rounds) :
    loop.run (rounds + 1) s = loop.run rounds s := by
  cases loop with
  | stmts => exact stmtsFrom_succ h
  | factors levels left => exact chain_succ rfl (takes_operandWith (takes_argument levels)) h
  | terms levels left => exact chain_succ rfl (takes_multiplicativeWith (takes_argument levels)) h
  | arguments levels =>
    exact argumentsFrom_succ (takes_argument (levels + 1)) assignmentWith_at_last h
  | params earlier => exact paramsFrom_succ h
  | varDecls => exact varDeclsFrom_succ h
  | externals => exact externalsFrom_succ h

/-- **A loop ends within as many rounds as there are tokens left**: with more of them it does the
same. -/
theorem run_eq (loop : Loop α) {rounds : Nat} {s : State} (h : s.cursor.tokensLeft ≤ rounds) :
    loop.run rounds s = loop.run s.cursor.tokensLeft s := by
  induction rounds, h using Nat.le_induction with
  | base => rfl
  | succ rounds hle ih => rw [loop.run_succ hle, ih]

end Loop

end Grammar

namespace Session

open Rule Grammar

/-- **Progress of every rule.**  A rule other than the one for whole sources that succeeds has moved
the cursor on, at most up to the last token, and has read no end token.  And at every state each
loop of the grammar ends within as many rounds as there are tokens left before the last. -/
theorem rule_progress {n : Nonterminal} (hn : n ≠ .program) (s : State) :
    (∀ a t, n.rule s = .ok a t →
      s.cursor.pos < t.cursor.pos ∧ t.cursor.pos ≤ s.cursor.toList.length - 1 ∧
        ∀ i, s.cursor.pos ≤ i → i < t.cursor.pos →
          ∃ token, s.cursor.toList[i]? = some token ∧ token.kind ≠ .eof) ∧
    ∀ (α : Type) (loop : Loop α) (rounds : Nat), s.cursor.tokensLeft ≤ rounds →
      loop.run rounds s = loop.run s.cursor.tokensLeft s := by
  refine ⟨fun a t h => ?_, fun α loop rounds hrounds => loop.run_eq hrounds⟩
  have hread : s.cursor.Consumes 1 t.cursor := Nonterminal.takes_rule hn s h
  refine ⟨hread.pos_add_le, ?_, hread.kind_ne⟩
  rw [← hread.toList_eq, Cursor.length_toList]
  exact t.cursor.pos_le

/-- A state with an end token between two semicolons, and no end token at the end. -/
def endInside : State := .ofTexts [(.semicolon, ";"), (.eof, "EOF"), (.semicolon, ";")]

/-- Of `endInside` only the first semicolon is read as a statement, in however many rounds. -/
theorem rule_progress_endInside :
    (∃ a t, Nonterminal.stmt.rule endInside = .ok a t ∧ t.cursor.pos = 1 ∧
      endInside.cursor.pos < t.cursor.pos ∧ t.cursor.pos ≤ endInside.cursor.toList.length - 1) ∧
    stmtsFrom 100 endInside = stmtsFrom 3 endInside := by
  obtain ⟨hrule, hloop⟩ := rule_progress (n := .stmt) nofun endInside
  obtain ⟨hless, hle, -⟩ := hrule _ _ rfl
  exact ⟨⟨_, _, rfl, rfl, hless, hle⟩, hloop _ .stmts 100 (by decide)⟩

end Session

end IntC
