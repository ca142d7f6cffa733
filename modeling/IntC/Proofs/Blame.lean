/-
# What a diagnostic inside a statement says

When a statement cannot be read, the diagnostic is for some token further on, and what it says about
that token has to be true of it.  The rules try alternatives, drop the failure of one for that of
another, and report some failures at a token they have long moved past.  So what is kept from rule
to rule is the place together with what has been read up to there (`Blamed`), and a rule that has
read more puts it in front (`Blamed.prepend`).

* `Fault`: what can be wrong with a token inside a statement, one case for each cause.
* `Tracked`: a rule that succeeds has read lexemes of statements, with every argument list closed
  again, and a rule that fails blames a token for what is wrong with it.
* `tracked_callWith`, `tracks_operandWith`, `tracks_assignmentWith`: the rules for expressions,
  around the circle through the arguments (`tracks_argument`).
* `tracks_stmt`, `blamed_of_stmtsFrom`: statements.
-/
import Mathlib.Data.List.Forall2
import IntC.Proofs.WellFormed

namespace IntC

variable {α β : Type}

/-! ## 1. The tokens ahead -/

namespace Cursor

/-- The tokens from the cursor on. -/
def ahead (c : Cursor) : List Token := c.toList.drop c.pos

/-- The current token is the first one ahead, and looking one place further finds the second. -/
theorem ahead_eq_cons (c : Cursor) :
    ∃ behind, c.ahead = c.current :: behind ∧
      (behind.head?.map Token.kind = some .openParen ↔ (c.peek 1).kind = .openParen) := by
  obtain ⟨hlt, hget⟩ := List.getElem?_eq_some_iff.mp c.getElem?_toList_current
  refine ⟨c.toList.drop (c.pos + 1), ?_, ?_⟩
  · rw [ahead, List.drop_eq_getElem_cons hlt, hget]
  · rw [List.head?_drop]
    rcases Nat.lt_or_ge c.pos c.body.size with h | h
    · have hnext := c.getElem?_toList_peek 1
      rw [Nat.min_eq_left h] at hnext
      simp [hnext]
    · have hend : c.toList[c.pos + 1]? = none :=
        List.getElem?_eq_none (by rw [length_toList]; omega)
      have hpeek : c.peek 1 = c.final := by
        simp [peek, Array.getD, show ¬ c.pos + 1 < c.body.size by omega]
      simp [hend, hpeek, c.final_kind]

theorem ahead_of_kind_ne {c : Cursor} (h : c.current.kind ≠ .eof) :
    c.ahead = c.current :: c.advance.ahead := by
  obtain ⟨behind, hahead, -⟩ := c.ahead_eq_cons
  have htail : c.advance.ahead = c.ahead.tail := by
    simp [ahead, pos_advance, h]
  rw [htail, hahead]
  rfl

/-- What has been read stands in front of what is still ahead. -/
theorem Reads.ahead {ls : List Lexeme} {c d : Cursor} (h : c.Reads ls d) :
    ∃ before, c.ahead = before ++ d.ahead ∧ List.Forall₂ Lexeme.Matches ls before := by
  induction ls generalizing c with
  | nil =>
    obtain rfl : d = c := h
    exact ⟨[], rfl, .nil⟩
  | cons l ls ih =>
    obtain ⟨hl, hne, hrest⟩ := h
    obtain ⟨before, hahead, hmatch⟩ := ih hrest
    refine ⟨c.current :: before, ?_, .cons hl hmatch⟩
    rw [ahead_of_kind_ne (hl.kind_eq ▸ hne), hahead]
    rfl

end Cursor

/-! ## 2. Blame -/

/-- The diagnostic is for a token of the list, and `F` holds of the lexemes up to this token, of the
token, of those behind it and of the cause. -/
def Blamed (F : List Lexeme → Token → List Token → Cause → Prop) (tokens : List Token)
    (e : Diagnostic) : Prop :=
  ∃ ls before token behind, tokens = before ++ token :: behind ∧
    List.Forall₂ Lexeme.Matches ls before ∧ e.position = token.span.start ∧
    F ls token behind e.cause

section Blamed

variable {F G : List Lexeme → Token → List Token → Cause → Prop} {e : Diagnostic}

/-- From a place further on to the place where the reading started. -/
theorem Blamed.prepend {c d : Cursor} {ls : List Lexeme} (h : Blamed F d.ahead e)
    (hreads : c.Reads ls d)
    (hF : ∀ {ls' token behind cause}, F ls' token behind cause →
      G (ls ++ ls') token behind cause) : Blamed G c.ahead e := by
  obtain ⟨ls', before, token, behind, hahead, hmatch, hplace, hfault⟩ := h
  obtain ⟨first, hfirst, hmatch'⟩ := hreads.ahead
  refine ⟨ls ++ ls', first ++ before, token, behind, ?_, ?_, hplace, hF hfault⟩
  · rw [hfirst, hahead, List.append_assoc]
  · exact List.rel_append hmatch' hmatch

theorem Blamed.mono {tokens : List Token} (h : Blamed F tokens e)
    (hF : ∀ {ls token behind cause}, F ls token behind cause → G ls token behind cause) :
    Blamed G tokens e := by
  obtain ⟨ls, before, token, behind, hahead, hmatch, hplace, hfault⟩ := h
  exact ⟨ls, before, token, behind, hahead, hmatch, hplace, hF hfault⟩

/-- A diagnostic for the token that stands behind lexemes. -/
theorem Blamed.of_reads {s t : State} {ls : List Lexeme} {cause : Cause} (hreads : s.Reads ls t)
    (hF : ∀ behind, t.cursor.ahead = t.current :: behind →
      (behind.head?.map Token.kind = some .openParen ↔ (t.cursor.peek 1).kind = .openParen) →
      F ls t.current behind cause) : Blamed F s.cursor.ahead (t.diagnose cause) := by
  obtain ⟨behind, hahead, hnext⟩ := t.cursor.ahead_eq_cons
  obtain ⟨before, hbefore, hmatch⟩ := hreads.1.ahead
  refine ⟨ls, before, t.current, behind, ?_, hmatch, rfl, hF behind hahead hnext⟩
  rw [hbefore, hahead]
  rfl

end Blamed

/-! ## 3. Faults in statements -/

/-- A lexeme that can stand among the statements of a body. -/
def Lexeme.InBody (l : Lexeme) : Prop :=
  l.kind ≠ .int ∧ l.kind ≠ .openCurly ∧ l.kind ≠ .closeCurly ∧ l.kind ≠ .eof

instance (l : Lexeme) : Decidable l.InBody := inferInstanceAs (Decidable (_ ∧ _ ∧ _ ∧ _))

/-- What is wrong with a token inside a statement, where `u` is the program so far, `vars` are the
variables in scope, and `levels` argument lists could be opened before the lexemes `ls`, which stand
in front of the token. -/
inductive Fault (u : Program) (vars : List String) (levels : Nat) (ls : List Lexeme)
    (token : Token) (behind : List Token) : Cause → Prop
  /-- The token cannot stand where it does. -/
  | unexpected : Fault u vars levels ls token behind (.unexpectedToken token.value)
  /-- It is a number, but not one of 32 bits. -/
  | badNumber (hkind : token.kind = .number) (hread : ∀ v, Literal.read token.value ≠ .ok v) :
      Fault u vars levels ls token behind (.badNumber token.value)
  | unaryMinus (hkind : token.kind = .dash) : Fault u vars levels ls token behind .unaryMinus
  /-- It is a name that is not called, and no variable has it. -/
  | unknownVariable (hkind : token.kind = .identifier)
      (hnext : behind.head?.map Token.kind ≠ some .openParen) (hname : token.value ∉ vars) :
      Fault u vars levels ls token behind (.unknownVariable token.value)
  /-- It is a name that is called, and no function has it. -/
  | unknownFunction (hkind : token.kind = .identifier)
      (hnext : behind.head?.map Token.kind = some .openParen)
      (hname : ∀ p ∈ u.signatures, p.name ≠ token.value) :
      Fault u vars levels ls token behind (.unknownFunction token.value)
  /-- It starts a call, with another number of arguments than the function has parameters. -/
  | argumentCount {args : List Expr} {call rest : List Token} {n : Nat}
      (hcall : List.Forall₂ Lexeme.Matches (Expr.call token.value args).yield call)
      (hstands : token :: behind = call ++ rest) (hargs : ∀ a ∈ args, a.shaped 0 = true)
      (hknown : ∃ p ∈ u.signatures, p.name = token.value ∧ p.arity = n) (hne : args.length ≠ n) :
      Fault u vars levels ls token behind (.argumentCount token.value n args.length)
  /-- It stands behind the parenthesis that opens one argument list too many. -/
  | nestedTooDeep (hlast : ls.getLast? = some (.mark .openParen))
      (hopen : ls.count (.mark .openParen) = ls.count (.mark .closeParen) + (levels + 1)) :
      Fault u vars levels ls token behind (.nestedTooDeep maxNesting)

/-- Lexemes of statements, with a number of argument lists open at their end. -/
structure Opens (ls : List Lexeme) (opened : Nat) : Prop where
  inBody : ∀ l ∈ ls, l.InBody
  parens : ls.count (.mark .openParen) = ls.count (.mark .closeParen) + opened

theorem opens_nil : Opens [] 0 := ⟨by simp, rfl⟩

theorem Opens.append {ls ls' : List Lexeme} {m n : Nat} (h : Opens ls m) (h' : Opens ls' n) :
    Opens (ls ++ ls') (m + n) := by
  refine ⟨List.forall_mem_append.mpr ⟨h.inBody, h'.inBody⟩, ?_⟩
  have hleft := h.parens
  have hright := h'.parens
  simp only [List.count_append]
  omega

/-- A lexeme that is no parenthesis. -/
theorem opens_singleton {l : Lexeme} (hin : l.InBody) (hopen : l.kind ≠ .openParen)
    (hclose : l.kind ≠ .closeParen) : Opens [l] 0 := by
  have hne {kind : Token.Kind} (hkind : l.kind ≠ kind) : l ≠ .mark kind := by
    rintro rfl
    exact hkind rfl
  refine ⟨by simpa using hin, ?_⟩
  rw [List.count_singleton, List.count_singleton]
  simp [hne hopen, hne hclose]

/-- A closing parenthesis closes the argument list that was opened last. -/
theorem Opens.close {ls : List Lexeme} {opened : Nat} (h : Opens ls (opened + 1)) :
    Opens (ls ++ [.mark .closeParen]) opened := by
  have hopen : [Lexeme.mark .closeParen].count (.mark .openParen) = 0 := by decide
  have hclose : [Lexeme.mark .closeParen].count (.mark .closeParen) = 1 := by decide
  refine ⟨List.forall_mem_append.mpr ⟨h.inBody, by simp [Lexeme.InBody, Lexeme.kind]⟩, ?_⟩
  rw [List.count_append, List.count_append, hopen, hclose, h.parens]
  omega

/-- The fault stands inside the statements of a body. -/
structure InStmts (u : Program) (vars : List String) (levels : Nat) (ls : List Lexeme)
    (token : Token) (behind : List Token) (cause : Cause) : Prop where
  inBody : ∀ l ∈ ls, l.InBody
  fault : Fault u vars levels ls token behind cause

/-- What has been read before only adds to the argument lists that are open. -/
theorem InStmts.prepend {u : Program} {vars : List String} {levels opened : Nat}
    {ls ls' : List Lexeme} {token : Token} {behind : List Token} {cause : Cause}
    (hopens : Opens ls opened) (h : InStmts u vars levels ls' token behind cause) :
    InStmts u vars (levels + opened) (ls ++ ls') token behind cause := by
  obtain ⟨hin, hfault⟩ := h
  refine ⟨List.forall_mem_append.mpr ⟨hopens.inBody, hin⟩, ?_⟩
  cases hfault with
  | unexpected => exact .unexpected
  | badNumber hkind hread => exact .badNumber hkind hread
  | unaryMinus hkind => exact .unaryMinus hkind
  | unknownVariable hkind hnext hname => exact .unknownVariable hkind hnext hname
  | unknownFunction hkind hnext hname => exact .unknownFunction hkind hnext hname
  | argumentCount hcall hstands hargs hknown hne =>
    exact .argumentCount hcall hstands hargs hknown hne
  | nestedTooDeep hlast hopen =>
    refine .nestedTooDeep ?_ ?_
    · rw [List.getLast?_append, hlast]
      rfl
    · have hparens := hopens.parens
      simp only [List.count_append]
      omega

/-! ## 4. Tracked outcomes -/

/-- A state with `levels` more argument lists to open and the functions of the program `u` in
scope. -/
structure Ready (u : Program) (levels : Nat) (s : State) : Prop where
  levels : maxNesting - s.depth = levels
  records : Records s.scope u

theorem Ready.reads {u : Program} {levels : Nat} {s t : State} {ls : List Lexeme}
    (h : Ready u levels s) (hreads : s.Reads ls t) : Ready u levels t :=
  ⟨by rw [hreads.depth_eq, h.levels], by rw [hreads.scope_eq]; exact h.records⟩

/-- A success has read lexemes of statements and closed every argument list that it opened; a
failure blames a token for a fault of it. -/
def Tracked (u : Program) (levels : Nat) (s : State) : EStateM.Result Diagnostic State α → Prop
  | .ok _ t => ∃ ls, s.Reads ls t ∧ Opens ls 0
  | .error e _ => Blamed (InStmts u s.scope.vars levels) s.cursor.ahead e

/-- What is tracked from a place is tracked from before it. -/
theorem Tracked.prepend {u : Program} {levels : Nat} {s t : State} {ls : List Lexeme}
    {x : EStateM.Result Diagnostic State α} (h : Tracked u levels t x) (hreads : s.Reads ls t)
    (hopens : Opens ls 0) : Tracked u levels s x := by
  cases x with
  | ok a v =>
    obtain ⟨ls', hreads', hopens'⟩ := h
    exact ⟨ls ++ ls', State.reads_append.mpr ⟨t, hreads, hreads'⟩, hopens.append hopens'⟩
  | error e v =>
    have hblamed : Blamed (InStmts u t.scope.vars levels) t.cursor.ahead e := h
    rw [hreads.scope_eq] at hblamed
    exact hblamed.prepend hreads.1 (InStmts.prepend hopens)

theorem Tracked.backtrack {u : Program} {levels : Nat} {s : State} {r : Rule α}
    (h : Tracked u levels s (r s)) : Tracked u levels s (Rule.backtrack r s) := by
  unfold Rule.backtrack
  cases hrun : r s with
  | ok a t =>
    rw [hrun] at h
    exact h
  | error e t =>
    rw [hrun] at h
    exact h

/-- A fault of the current token. -/
theorem Blamed.at_state {u : Program} {levels : Nat} {s : State} {cause : Cause}
    (h : ∀ behind, s.cursor.ahead = s.current :: behind →
      (behind.head?.map Token.kind = some .openParen ↔ (s.cursor.peek 1).kind = .openParen) →
      Fault u s.scope.vars levels [] s.current behind cause) :
    Blamed (InStmts u s.scope.vars levels) s.cursor.ahead (s.diagnose cause) :=
  .of_reads (State.reads_nil.mpr rfl) fun behind hahead hnext => ⟨by simp, h behind hahead hnext⟩

theorem blamed_unexpected {u : Program} {levels : Nat} {s : State} :
    Blamed (InStmts u s.scope.vars levels) s.cursor.ahead s.unexpected :=
  .at_state fun _ _ _ => .unexpected

namespace Rule

/-- Whatever comes of the rule is tracked. -/
def Tracks (u : Program) (levels : Nat) (r : Rule α) : Prop :=
  ∀ ⦃s : State⦄, Ready u levels s → Tracked u levels s (r s)

section Parts

variable {u : Program} {levels : Nat} {r : Rule α} {f : α → Rule β}

theorem Tracks.bind (hr : Tracks u levels r) (hf : ∀ a, Tracks u levels (f a)) :
    Tracks u levels (r >>= f) := by
  intro s hs
  have h := hr hs
  cases hrun : r s with
  | ok a t =>
    rw [hrun] at h
    obtain ⟨ls, hreads, hopens⟩ := h
    rw [bind_of_ok hrun]
    exact (hf a (hs.reads hreads)).prepend hreads hopens
  | error e t =>
    rw [hrun] at h
    rw [bind_of_error hrun]
    exact h

theorem Tracks.backtrack (h : Tracks u levels r) : Tracks u levels (backtrack r) :=
  fun _ hs => (h hs).backtrack

theorem Tracks.pure (a : α) : Tracks u levels (pure a : Rule α) :=
  fun _ _ => ⟨[], State.reads_nil.mpr rfl, opens_nil⟩

theorem Tracks.look_bind {g : State → α} (h : ∀ a, Tracks u levels (f a)) :
    Tracks u levels (look g >>= f) :=
  fun _ hs => h _ hs

theorem Tracks.unexpected : Tracks u levels (unexpected : Rule α) :=
  fun _ _ => blamed_unexpected

/-- One token of a kind that is neither a parenthesis nor out of place among statements. -/
theorem reads_current {s : State} {kind : Token.Kind} (hkind : s.current.kind = kind)
    (hin : (Lexeme.mark kind).InBody) (hopen : kind ≠ .openParen) (hclose : kind ≠ .closeParen) :
    s.Reads [.mark kind] s.advance ∧ Opens [.mark kind] 0 :=
  ⟨State.reads_mark_self hin.2.2.2 hkind, opens_singleton hin hopen hclose⟩

theorem Tracks.expect {kind : Token.Kind} (hin : (Lexeme.mark kind).InBody)
    (hopen : kind ≠ .openParen) (hclose : kind ≠ .closeParen) :
    Tracks u levels (expect kind) := by
  intro s hs
  unfold Rule.expect
  split
  · next hkind => exact ⟨_, reads_current hkind hin hopen hclose⟩
  · exact blamed_unexpected

theorem Tracks.advance_bind {f : Token → Rule β} {s : State} {kind : Token.Kind}
    (hf : ∀ token, Tracks u levels (f token)) (hs : Ready u levels s)
    (hkind : s.current.kind = kind) (hin : (Lexeme.mark kind).InBody) (hopen : kind ≠ .openParen)
    (hclose : kind ≠ .closeParen) : Tracked u levels s ((advance >>= f) s) := by
  obtain ⟨hreads, hopens⟩ := reads_current hkind hin hopen hclose
  exact (hf s.current (hs.reads hreads)).prepend hreads hopens

end Parts

end Rule

namespace Grammar

open Rule

variable {u : Program} {levels : Nat}

/-! ## 5. Expressions -/

/-- What comes of reading a variable or a number.  Only of an unknown name it is left open what
follows it. -/
theorem primary_cases (u : Program) (levels : Nat) (s : State) :
    (∃ e l, primary s = .ok e s.advance ∧ s.Reads [l] s.advance ∧ Opens [l] 0) ∨
      (primary s = .error (s.diagnose (.unknownVariable s.current.value)) s ∧
        s.current.kind = .identifier ∧ s.current.value ∉ s.scope.vars) ∨
      ∃ cause, primary s = .error (s.diagnose cause) s ∧
        ∀ behind, Fault u s.scope.vars levels [] s.current behind cause := by
  cases hkind : s.current.kind with
  | identifier =>
    by_cases hname : s.current.value ∈ s.scope.vars
    · refine .inl ⟨.var s.current.value, .word s.current.value, ?_, ?_, ?_⟩
      · exact primary_eq_ok_iff.mpr
          ⟨reads_var_iff.mpr ⟨hkind, rfl, rfl⟩, Expr.admissible_var_iff.mpr hname⟩
      · exact reads_var_iff.mpr ⟨hkind, rfl, rfl⟩
      · exact opens_singleton ⟨nofun, nofun, nofun, nofun⟩ nofun nofun
    · exact .inr (.inl ⟨primary_of_unknown hkind hname, rfl, hname⟩)
  | number =>
    cases hread : Literal.read s.current.value with
    | ok value =>
      have hreads : s.Reads [.number value] s.advance :=
        State.reads_cons.mpr ⟨⟨hkind, hread⟩, nofun, State.reads_nil.mpr rfl⟩
      refine .inl ⟨.num value, .number value, ?_, hreads, ?_⟩
      · exact primary_eq_ok_iff.mpr ⟨hreads, Expr.admissible_num value⟩
      · exact opens_singleton ⟨nofun, nofun, nofun, nofun⟩ nofun nofun
    | error fault =>
      refine .inr (.inr ⟨.badNumber s.current.value, ?_, fun _ => .badNumber hkind ?_⟩)
      · simp only [primary, Rule.current, look_bind_apply, hkind, hread]
        rfl
      · simp [hread]
  | dash =>
    refine .inr (.inr ⟨.unaryMinus, ?_, fun _ => .unaryMinus hkind⟩)
    simp only [primary, Rule.current, look_bind_apply, hkind]
    rfl
  | _ =>
    refine .inr (.inr ⟨.unexpectedToken s.current.value, ?_, fun _ => .unexpected⟩)
    simp only [primary, Rule.current, look_bind_apply, hkind]
    rfl

section Circle

variable {arg : Rule Expr}

theorem tracks_argumentsFrom (h : Tracks u levels arg) :
    ∀ rounds, Tracks u levels (argumentsFrom arg rounds)
  | 0 => .unexpected
  | rounds + 1 => by
    refine .bind h fun first => ?_
    intro s hs
    rw [currentKind, look_bind_apply]
    split
    · next hcomma =>
      refine Tracks.advance_bind (fun _ => ?_) hs hcomma (by decide) (by decide) (by decide)
      exact .bind (tracks_argumentsFrom h rounds) fun _ => .pure _
    · exact Tracks.pure _ hs

theorem tracks_arguments (h : Tracks u levels arg) : Tracks u levels (arguments arg) := by
  refine .look_bind fun kind => ?_
  split
  · exact .pure _
  · exact .look_bind fun rounds => tracks_argumentsFrom h rounds

/-- Inside one more argument list there is one less to open. -/
theorem tracked_deeper {α : Type} {r : Rule α} (h : Tracks u levels r) {s : State}
    (hs : Ready u (levels + 1) s) :
    (∃ a t ls, deeper r s = .ok a t ∧ s.Reads ls t ∧ Opens ls 0) ∨
      ∃ e t, deeper r s = .error e t ∧ Blamed (InStmts u s.scope.vars levels) s.cursor.ahead e := by
  have hlevels := hs.levels
  have hready : Ready u levels { s with depth := s.depth + 1 } := ⟨by simp only; omega, hs.records⟩
  have htracked := h hready
  cases hrun : r { s with depth := s.depth + 1 } with
  | ok a t =>
    rw [hrun] at htracked
    obtain ⟨ls, ⟨hcursor, ht⟩, hopens⟩ := htracked
    refine .inl ⟨a, _, ls, deeper_eq_ok_iff.mpr ⟨by omega, t, hrun, rfl⟩, ⟨hcursor, ?_⟩, hopens⟩
    rw [ht]
    simp
  | error e t =>
    rw [hrun] at htracked
    exact .inr ⟨e, _, deeper_eq_error_iff.mpr (.inr ⟨by omega, t, hrun, rfl⟩), htracked⟩

/-- What stands in the parentheses of a call and behind them.  A wrong number of arguments is
reported at the callee, which has been read by then. -/
theorem tracked_parens (hkeep : Within KeepsScope arg)
    (hexact : ∀ l, levels = l + 1 → ExactArgument arg l)
    (harg : ∀ l, levels = l + 1 → Tracks u l arg) {s : State} (hs : Ready u levels s)
    (hname : s.current.kind = .identifier) (hopen : s.advance.current.kind = .openParen) {n : Nat}
    (harity : s.scope.arity? s.current.value = some n) :
    Tracked u levels s ((do
      let args ← deeper (arguments arg)
      let _ ← expect .closeParen
      if args.length = n then return .call s.current.value args
      else failAt s.position (.argumentCount s.current.value n args.length) : Rule Expr)
        s.advance.advance) := by
  have hlevels := hs.levels
  have hreads : s.Reads [.word s.current.value, .mark .openParen] s.advance.advance :=
    State.reads_append.mpr
      ⟨_, State.reads_word_self hname, State.reads_mark_self (by decide) hopen⟩
  have hopens : Opens [.word s.current.value, .mark .openParen] 1 :=
    ⟨by simp [Lexeme.InBody, Lexeme.kind], by simp⟩
  cases levels with
  | zero =>
    have hin : deeper (arguments arg) s.advance.advance = .error
        (s.advance.advance.diagnose (.nestedTooDeep maxNesting)) s.advance.advance :=
      deeper_eq_error_iff.mpr (.inl ⟨by simp; omega, rfl, rfl⟩)
    rw [bind_of_error hin]
    exact Blamed.of_reads hreads fun _ _ _ =>
      ⟨hopens.inBody, .nestedTooDeep (by simp) (by simp)⟩
  | succ l =>
    rcases tracked_deeper (tracks_arguments (harg l rfl)) (hs.reads hreads) with
      ⟨args, t, ls, hin, hargs, hclosed⟩ | ⟨e, t, hin, hblamed⟩
    · have hinside := State.reads_append.mpr ⟨_, hreads, hargs⟩
      have hopens' := hopens.append hclosed
      rw [bind_of_ok hin, expect_bind_apply]
      by_cases hclose : t.current.kind = .closeParen
      · rw [if_pos hclose]
        by_cases hcount : args.length = n
        · rw [if_pos hcount]
          exact ⟨_, (State.reads_append_mark (by decide)).mpr ⟨t, hinside, hclose, rfl⟩,
            hopens'.close⟩
        · rw [if_neg hcount]
          refine Blamed.at_state fun behind hahead _ => ?_
          obtain ⟨hyield, hadm⟩ := (deeper_arguments_eq_ok_iff hkeep (hexact l rfl)
            (by simpa using hlevels) hclose).mp hin
          have hcall : s.Reads (Expr.call s.current.value args).yield t.advance :=
            reads_call_iff.mpr ⟨hname, rfl, hopen, t, hyield, hclose, rfl⟩
          obtain ⟨call, hstands, hmatch⟩ := hcall.1.ahead
          rw [hahead] at hstands
          exact .argumentCount hmatch hstands (fun a ha => (hadm a ha).shape)
            (hs.records.exists_signature harity) hcount
      · rw [if_neg hclose]
        exact Blamed.of_reads hinside fun _ _ _ => ⟨hopens'.inBody, .unexpected⟩
    · rw [bind_of_error hin]
      exact hblamed.prepend hreads.1 (InStmts.prepend hopens)

/-- **Calls**, where a parenthesis follows the callee. -/
theorem tracked_callWith (hkeep : Within KeepsScope arg)
    (hexact : ∀ l, levels = l + 1 → ExactArgument arg l)
    (harg : ∀ l, levels = l + 1 → Tracks u l arg) {s : State} (hs : Ready u levels s)
    (hnext : (s.cursor.peek 1).kind = .openParen) : Tracked u levels s (callWith arg s) := by
  refine Tracked.backtrack ?_
  rw [Rule.position, look_bind_apply, expect_bind_apply]
  by_cases hname : s.current.kind = .identifier
  · rw [if_pos hname, Rule.scope, look_bind_apply, State.scope_advance]
    cases harity : s.scope.arity? s.current.value with
    | none =>
      refine Blamed.at_state fun behind _ hbehind => .unknownFunction hname (hbehind.mpr hnext) ?_
      intro p hp hsame
      obtain ⟨n, hn⟩ := hs.records.exists_arity? hp
      rw [hsame, harity] at hn
      cases hn
    | some n =>
      rw [State.peek_one_kind hname (by decide)] at hnext
      dsimp only
      rw [expect_bind_apply, if_pos hnext]
      exact tracked_parens hkeep hexact harg hs hname hnext harity
  · rw [if_neg hname]
    exact blamed_unexpected

/-- Without a parenthesis behind it, nothing is read as a call. -/
theorem callWith_of_peek_ne {s : State} (hnext : (s.cursor.peek 1).kind ≠ .openParen) :
    ∃ e t, callWith arg s = .error e t := by
  cases hcall : callWith arg s with
  | error e t => exact ⟨e, t, rfl⟩
  | ok a t =>
    refine absurd ?_ hnext
    rw [callWith, backtrack_eq_ok_iff, Rule.position, look_bind_eq_ok_iff,
      expect_bind_eq_ok_iff, Rule.scope, look_bind_eq_ok_iff] at hcall
    obtain ⟨hname, hrest⟩ := hcall
    rw [State.peek_one_kind hname (by decide)]
    cases harity : s.advance.scope.arity? s.current.value with
    | none =>
      rw [harity] at hrest
      exact absurd hrest failAt_ne_ok
    | some n =>
      rw [harity] at hrest
      exact (expect_bind_eq_ok_iff.mp hrest).1

/-- **Operands.**  The token behind a name decides whether the name is reported as a variable or as
a function. -/
theorem tracks_operandWith (hkeep : Within KeepsScope arg)
    (hexact : ∀ l, levels = l + 1 → ExactArgument arg l)
    (harg : ∀ l, levels = l + 1 → Tracks u l arg) : Tracks u levels (operandWith arg) := by
  intro s hs
  -- a failure is that of the call exactly if a parenthesis follows
  have hfailed {noPrimary : Diagnostic} (hprimary : primary s = .error noPrimary s)
      (hblamed : (s.cursor.peek 1).kind ≠ .openParen →
        Blamed (InStmts u s.scope.vars levels) s.cursor.ahead noPrimary) :
      Tracked u levels s (operandWith arg s) := by
    rw [operandWith, bind_of_ok (attempt_of_error hprimary)]
    dsimp only
    rw [peekKind, look_bind_apply]
    by_cases hnext : (s.cursor.peek 1).kind = .openParen
    · have hcall := tracked_callWith hkeep hexact harg hs hnext
      cases hrun : callWith arg s with
      | ok a t =>
        rw [hrun] at hcall
        rw [bind_of_ok (attempt_of_ok hrun)]
        exact hcall
      | error noCall t =>
        rw [hrun] at hcall
        rw [bind_of_ok (attempt_of_error hrun), hnext]
        exact hcall
    · obtain ⟨noCall, t, hrun⟩ := callWith_of_peek_ne hnext
      have hshape : ((s.cursor.peek 1).kind == .openParen) = false := by simpa using hnext
      rw [bind_of_ok (attempt_of_error hrun), hshape]
      exact hblamed hnext
  rcases primary_cases u levels s with
    ⟨e, l, hprimary, hreads, hopens⟩ | ⟨hprimary, hkind, hname⟩ | ⟨cause, hprimary, hfault⟩
  · rw [operandWith, bind_of_ok (attempt_of_ok hprimary)]
    exact ⟨[l], hreads, hopens⟩
  · refine hfailed hprimary fun hnext => .at_state fun behind _ hbehind => ?_
    exact .unknownVariable hkind (fun h => hnext (hbehind.mp h)) hname
  · exact hfailed hprimary fun _ => .at_state fun behind _ _ => hfault behind

theorem tracks_chain {operator? : Token.Kind → Option Operator} {r : Rule Expr}
    (hop : ∀ {kind op}, operator? kind = some op → op.kind = kind) (hr : Tracks u levels r) :
    ∀ rounds left, Tracks u levels (chain operator? r rounds left)
  | 0, left => .pure left
  | rounds + 1, left => by
    intro s hs
    rw [chain, currentKind, look_bind_apply]
    cases hkind : operator? s.current.kind with
    | none => exact Tracks.pure left hs
    | some op =>
      refine Tracks.advance_bind (fun _ => ?_) hs (hop hkind).symm ?_ ?_ ?_
      · exact .bind hr fun right => tracks_chain hop hr rounds _
      · cases op <;> decide
      · cases op <;> decide
      · cases op <;> decide

theorem tracks_multiplicativeWith (h : Tracks u levels (operandWith arg)) :
    Tracks u levels (multiplicativeWith arg) :=
  .backtrack (.bind h fun left => .look_bind fun rounds =>
    tracks_chain (fun hkind => (Operator.multiplicative?_eq_some_iff.mp hkind).1) h rounds left)

theorem tracks_additiveWith (h : Tracks u levels (multiplicativeWith arg)) :
    Tracks u levels (additiveWith arg) :=
  .backtrack (.bind h fun left => .look_bind fun rounds =>
    tracks_chain (fun hkind => (Operator.additive?_eq_some_iff.mp hkind).1) h rounds left)

/-- **Assignments.**  A value that cannot be read is not reported: the variable is read as a sum of
its own, and what is reported is what comes of that. -/
theorem tracks_assignmentWith (hkeep : Within KeepsScope arg)
    (h : Tracks u levels (additiveWith arg)) : Tracks u levels (assignmentWith arg) := by
  refine .backtrack fun s hs => ?_
  rw [look_bind_apply]
  split
  · next hat =>
    simp only [atAssignment, Bool.and_eq_true, beq_iff_eq] at hat
    obtain ⟨⟨hname, hassign⟩, -⟩ := hat
    rw [State.peek_one_kind hname (by decide)] at hassign
    obtain ⟨hreads, hopens⟩ := reads_current hname (by decide) (by decide) (by decide)
    obtain ⟨hreads', hopens'⟩ :=
      @reads_current s.advance _ hassign (by decide) (by decide) (by decide)
    have hvalue := h ((hs.reads hreads).reads hreads')
    rw [look_bind_apply, advance_bind_apply, advance_bind_apply]
    cases hrun : additiveWith arg s.advance.advance with
    | ok value t =>
      rw [hrun] at hvalue
      rw [bind_of_ok (attempt_of_ok hrun)]
      exact (hvalue.prepend hreads' hopens').prepend hreads hopens
    | error e t =>
      obtain rfl := (within_additiveWith hkeep).eq_of_error
        (undoes_backtrack_of_within (within_additiveWith hkeep)) hrun
      rw [bind_of_ok (attempt_of_error hrun)]
      dsimp only
      rw [seek_bind_apply, seek_advance_advance]
      exact h hs
  · exact h hs

end Circle

/-- The circle closes: what is read inside an argument list is tracked with one list less to
open. -/
theorem tracks_argument : ∀ {levels l : Nat}, levels = l + 1 → Tracks u l (argument levels)
  | 0, _, h => nomatch h
  | _ + 1, _, rfl =>
    tracks_assignmentWith (within_argument _) (tracks_additiveWith (tracks_multiplicativeWith
      (tracks_operandWith (within_argument _) (fun _ => argument_exact) fun _ => tracks_argument)))

theorem tracks_assignment : Tracks u levels assignment := by
  intro s hs
  obtain rfl := hs.levels
  exact @tracks_argument u (maxNesting - s.depth + 1) _ rfl s hs

/-! ## 6. Statements -/

theorem tracks_stmt : Tracks u levels stmt := by
  have hend {value : Expr} (f : Expr → Stmt) :
      Tracks u levels (do let _ ← expect .semicolon; return f value) :=
    .bind (.expect (by decide) (by decide) (by decide)) fun _ => .pure _
  refine .look_bind fun kind => ?_
  split
  · refine .backtrack (.bind (.expect (by decide) (by decide) (by decide)) fun _ => ?_)
    exact .bind tracks_assignment fun value => hend .ret
  · refine .backtrack fun s hs => ?_
    rw [currentKind, look_bind_apply]
    split
    · next hsemi =>
      exact Tracks.advance_bind (fun _ => .pure _) hs hsemi (by decide) (by decide) (by decide)
    · exact Tracks.bind tracks_assignment (fun value => hend .expr) hs

/-- Statements are read up to the first failure, and that one is handed on. -/
theorem blamed_of_stmtsFrom : ∀ {rounds : Nat} {s t : State} {stmts : List Stmt} {stop : Diagnostic},
    Ready u levels s → stmtsFrom rounds s = .ok (stmts, stop) t →
      Blamed (InStmts u s.scope.vars levels) s.cursor.ahead stop := by
  intro rounds
  induction rounds with
  | zero =>
    intro s t stmts stop hs h
    rw [stmtsFrom, look_bind_apply] at h
    obtain ⟨heq, -⟩ := pure_eq_ok_iff.mp h
    obtain ⟨-, rfl⟩ := Prod.mk.inj heq
    exact blamed_unexpected
  | succ rounds ih =>
    intro s t stmts stop hs h
    rw [stmtsFrom] at h
    have hstmt := tracks_stmt hs
    cases hrun : stmt s with
    | error e v =>
      rw [hrun] at hstmt
      rw [bind_of_ok (attempt_of_error hrun)] at h
      obtain ⟨heq, -⟩ := pure_eq_ok_iff.mp h
      obtain ⟨-, rfl⟩ := Prod.mk.inj heq
      exact hstmt
    | ok first v =>
      rw [hrun] at hstmt
      obtain ⟨ls, hreads, hopens⟩ := hstmt
      rw [bind_of_ok (attempt_of_ok hrun)] at h
      obtain ⟨⟨more, stop'⟩, w, hmore, hend⟩ := bind_eq_ok_iff.mp h
      obtain ⟨heq, -⟩ := pure_eq_ok_iff.mp hend
      obtain ⟨-, rfl⟩ := Prod.mk.inj heq
      have hblamed := ih (hs.reads hreads) hmore
      rw [hreads.scope_eq] at hblamed
      exact hblamed.prepend hreads.1 (InStmts.prepend hopens)

/-- Reading statements never fails. -/
theorem total_stmtsFrom : ∀ rounds, Total (stmtsFrom rounds)
  | 0 => fun s => ⟨_, s, rfl⟩
  | rounds + 1 => by
    intro s
    rw [stmtsFrom]
    cases hrun : stmt s with
    | ok first t =>
      obtain ⟨⟨more, stop⟩, v, hmore⟩ := total_stmtsFrom rounds t
      rw [bind_of_ok (attempt_of_ok hrun)]
      exact ⟨_, v, bind_of_ok hmore⟩
    | error e t =>
      rw [bind_of_ok (attempt_of_error hrun)]
      exact ⟨_, t, rfl⟩

end Grammar

end IntC
