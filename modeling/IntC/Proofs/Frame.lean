/-
# What a rule leaves as it was

A rule works on one state that all rules share, so what it leaves behind when it fails is what the
next alternative starts from.  This file says what that is.

* **On both outcomes** a rule keeps the tokens, the number of open argument lists and the file
  (`Framed`).  The rules for signatures, variables, statements and expressions keep all names in
  scope as well (`KeepsScope`), and the rule for a body keeps the functions (`KeepsFunctions`).
* **On failure** every rule puts the cursor back and keeps the functions (`Undone`).

The first three relations compose and are not broken by moving the cursor (`IsFrame`), and that is
all the rules need: `Within` goes through a rule part by part.  What `backtrack` adds is the cursor
(`undoes_backtrack`), and only `primary`, `operand` and `stmt` come without it.
-/
import IntC.Session

namespace IntC

variable {α β : Type}

/-! ## 1. Relations between the state before and the state after -/

/-- The tokens, the open argument lists and the file are the same. -/
structure Framed (s t : State) : Prop where
  tokens : t.cursor.toList = s.cursor.toList
  depth : t.depth = s.depth
  file : t.file = s.file

/-- Moreover the functions that are declared and defined are the same. -/
structure KeepsFunctions (s t : State) : Prop extends Framed s t where
  prototypes : t.scope.prototypes = s.scope.prototypes
  functions : t.scope.functions = s.scope.functions

/-- Moreover all names in scope are the same. -/
structure KeepsScope (s t : State) : Prop extends Framed s t where
  scope : t.scope = s.scope

/-- Moreover the cursor is where it was; the variables need not be the same. -/
structure Undone (s t : State) : Prop extends KeepsFunctions s t where
  cursor : t.cursor = s.cursor

/-- With the same functions in scope, only the variables can be different. -/
theorem Scope.eq_of_functions {s t : Scope} (hprototypes : t.prototypes = s.prototypes)
    (hfunctions : t.functions = s.functions) : t = { s with vars := t.vars } := by
  simp only [← hprototypes, ← hfunctions]

theorem KeepsScope.keepsFunctions {s t : State} (h : KeepsScope s t) : KeepsFunctions s t :=
  { h.toFramed with
    prototypes := by rw [h.scope]
    functions := by rw [h.scope] }

/-- A relation between states that composes and that no move of the cursor breaks. -/
class IsFrame (R : State → State → Prop) : Prop where
  refl (s : State) : R s s
  trans {s t u : State} : R s t → R t u → R s u
  advance (s : State) : R s s.advance
  seek (s : State) (pos : Nat) : R s (s.seek pos)

instance : IsFrame Framed where
  refl _ := ⟨rfl, rfl, rfl⟩
  trans h h' := ⟨h'.tokens.trans h.tokens, h'.depth.trans h.depth, h'.file.trans h.file⟩
  advance s := ⟨s.cursor.toList_advance, rfl, rfl⟩
  seek _ _ := ⟨rfl, rfl, rfl⟩

instance : IsFrame KeepsFunctions where
  refl s := ⟨IsFrame.refl s, rfl, rfl⟩
  trans h h' := ⟨IsFrame.trans h.toFramed h'.toFramed, h'.prototypes.trans h.prototypes,
    h'.functions.trans h.functions⟩
  advance s := ⟨IsFrame.advance s, rfl, rfl⟩
  seek s pos := ⟨IsFrame.seek s pos, rfl, rfl⟩

instance : IsFrame KeepsScope where
  refl s := ⟨IsFrame.refl s, rfl⟩
  trans h h' := ⟨IsFrame.trans h.toFramed h'.toFramed, h'.scope.trans h.scope⟩
  advance s := ⟨IsFrame.advance s, rfl⟩
  seek s pos := ⟨IsFrame.seek s pos, rfl⟩

theorem Undone.refl (s : State) : Undone s s := ⟨IsFrame.refl s, rfl⟩

/-- With the scope kept and the cursor back in its place, nothing has changed. -/
theorem KeepsScope.eq_of_cursor_eq {s t : State} (h : KeepsScope s t) (hc : t.cursor = s.cursor) :
    t = s := by
  obtain ⟨⟨-, hdepth, hfile⟩, hscope⟩ := h
  cases s
  cases t
  simp_all

namespace Rule

/-! ## 2. Rules that stay within a relation -/

/-- The state that a rule leaves behind, whatever came of it. -/
def after (r : Rule α) (s : State) : State :=
  match r s with
  | .ok _ t => t
  | .error _ t => t

/-- Whatever comes of the rule, the state after it is related to the state before. -/
def Within (R : State → State → Prop) (r : Rule α) : Prop := ∀ s, R s (after r s)

/-- If the rule fails, the state after it is related to the state before. -/
def FailsWithin (R : State → State → Prop) (r : Rule α) : Prop :=
  ∀ ⦃s e t⦄, r s = .error e t → R s t

/-- The rule never fails. -/
def Total (r : Rule α) : Prop := ∀ s, ∃ a t, r s = .ok a t

theorem after_of_ok {r : Rule α} {s t : State} {a : α} (h : r s = .ok a t) : after r s = t := by
  rw [after, h]

theorem after_of_error {r : Rule α} {s t : State} {e : Diagnostic} (h : r s = .error e t) :
    after r s = t := by
  rw [after, h]

section Parts

variable {R R' : State → State → Prop} {r : Rule α} {f : α → Rule β}

theorem Within.of_ok (h : Within R r) {s t : State} {a : α} (hr : r s = .ok a t) : R s t :=
  after_of_ok hr ▸ h s

theorem Within.failsWithin (h : Within R r) : FailsWithin R r :=
  fun s _ _ hr => after_of_error hr ▸ h s

theorem Within.mono (hR : ∀ {s t}, R s t → R' s t) (h : Within R r) : Within R' r :=
  fun s => hR (h s)

theorem Within.attempt (h : Within R r) : Within R (attempt r) := by
  intro s
  have : after (Rule.attempt r) s = after r s := by
    unfold after Rule.attempt
    cases r s <;> rfl
  rw [this]
  exact h s

theorem Within.map (g : α → β) (h : Within R r) : Within R (g <$> r) := by
  intro s
  have : after (g <$> r) s = after r s := by
    show after (EStateM.map g r) s = _
    unfold after EStateM.map
    cases r s <;> rfl
  rw [this]
  exact h s

theorem FailsWithin.look_bind {g : State → α} (h : ∀ a, FailsWithin R (f a)) :
    FailsWithin R (look g >>= f) := by
  intro s e t hr
  rcases bind_eq_error_iff.mp hr with hlook | ⟨a, u, hlook, hr'⟩
  · cases hlook
  · cases hlook
    exact h _ hr'

theorem Total.pure (a : α) : Total (pure a : Rule α) := fun s => ⟨a, s, rfl⟩

theorem Total.advance_bind {f : Token → Rule β} (h : ∀ a, Total (f a)) :
    Total (Rule.advance >>= f) :=
  fun s => h s.current s.advance

theorem Total.update_bind {g : Scope → Scope} {f : Unit → Rule β} (h : ∀ a, Total (f a)) :
    Total (update g >>= f) :=
  fun s => h () { s with scope := g s.scope }

theorem Total.ne_error (h : Total r) {s t : State} {e : Diagnostic} : r s ≠ .error e t := by
  obtain ⟨a, u, hs⟩ := h s
  rw [hs]
  nofun

theorem FailsWithin.of_total (h : Total r) : FailsWithin R r := fun _ _ _ hr => absurd hr h.ne_error

theorem FailsWithin.map (g : α → β) (h : FailsWithin R r) : FailsWithin R (g <$> r) := by
  intro s e t hr
  change EStateM.map g r s = .error e t at hr
  unfold EStateM.map at hr
  cases hs : r s with
  | ok a u => rw [hs] at hr; cases hr
  | error e' u => rw [hs] at hr; cases hr; exact h hs

/-- What only a first part can fail at is a failure of that part. -/
theorem FailsWithin.bind_of_total (hr : FailsWithin R r) (hf : ∀ a, Total (f a)) :
    FailsWithin R (r >>= f) := by
  intro s e t h
  rcases bind_eq_error_iff.mp h with h | ⟨a, u, -, h⟩
  · exact hr h
  · exact absurd h (hf a).ne_error

/-- After an attempt that failed and changed nothing, the rest starts from the same state. -/
theorem FailsWithin.attempt_bind {f : Except Diagnostic α → Rule β}
    (hr : ∀ {s e t}, r s = .error e t → t = s) (hok : ∀ a, Total (f (.ok a)))
    (herr : ∀ e, FailsWithin R (f (.error e))) : FailsWithin R (attempt r >>= f) := by
  intro s e t h
  rcases bind_eq_error_iff.mp h with h' | ⟨outcome, u, hu, h'⟩
  · exact absurd h' attempt_ne_error
  · rcases attempt_eq_ok_iff.mp hu with ⟨a, rfl, -⟩ | ⟨e', rfl, hs⟩
    · exact absurd h' (hok a).ne_error
    · obtain rfl := hr hs
      exact herr e' h'

variable [IsFrame R]

/-- What the first part reads may be taken into account in the second. -/
theorem Within.bind_of_ok {P : α → Prop} (hr : Within R r) (hP : ∀ {s a t}, r s = .ok a t → P a)
    (hf : ∀ a, P a → Within R (f a)) : Within R (r >>= f) := by
  intro s
  cases h : r s with
  | ok a t =>
    have hbind : after (r >>= f) s = after (f a) t := by
      unfold after
      rw [Rule.bind_of_ok h]
    rw [hbind]
    exact IsFrame.trans (hr.of_ok h) (hf a (hP h) t)
  | error e t =>
    rw [after_of_error (bind_of_error h)]
    exact hr.failsWithin h

theorem Within.bind (hr : Within R r) (hf : ∀ a, Within R (f a)) : Within R (r >>= f) :=
  hr.bind_of_ok (fun _ => trivial) fun a _ => hf a

theorem Within.pure (a : α) : Within R (pure a : Rule α) := fun s => IsFrame.refl s

theorem Within.look (g : State → α) : Within R (look g) := fun s => IsFrame.refl s

theorem Within.fail (cause : Cause) : Within R (fail cause : Rule α) := fun s => IsFrame.refl s

theorem Within.failAt (p : Position) (cause : Cause) : Within R (failAt p cause : Rule α) :=
  fun s => IsFrame.refl s

theorem Within.unexpected : Within R (unexpected : Rule α) := fun s => IsFrame.refl s

theorem Within.throw (e : Diagnostic) : Within R (throw e : Rule α) := fun s => IsFrame.refl s

theorem Within.advance : Within R Rule.advance := fun s => IsFrame.advance s

theorem Within.seek (pos : Nat) : Within R (Rule.seek pos) := fun s => IsFrame.seek s pos

theorem Within.expect (kind : Token.Kind) : Within R (expect kind) := by
  intro s
  unfold after Rule.expect
  split
  · next h => split at h <;> cases h; exact IsFrame.advance s
  · next h => split at h <;> cases h; exact IsFrame.refl s

theorem Within.backtrack (h : Within R r) : Within R (backtrack r) := by
  intro s
  have hs := h s
  unfold after at hs
  unfold after Rule.backtrack
  cases hr : r s with
  | ok a t => rw [hr] at hs; exact hs
  | error e t => rw [hr] at hs; exact IsFrame.trans hs (IsFrame.seek t _)

theorem FailsWithin.backtrack (h : FailsWithin R r) : FailsWithin R (backtrack r) := by
  intro s e t hr
  obtain ⟨u, hu, rfl⟩ := backtrack_eq_error_iff.mp hr
  exact IsFrame.trans (h hu) (IsFrame.seek u _)

theorem FailsWithin.bind (hr : Within R r) (hf : ∀ a, FailsWithin R (f a)) :
    FailsWithin R (r >>= f) := by
  intro s e t h
  rcases bind_eq_error_iff.mp h with h | ⟨a, u, hu, h⟩
  · exact hr.failsWithin h
  · exact IsFrame.trans (hr.of_ok hu) (hf a h)

end Parts

/-- Inside one more argument list, which is closed afterwards, the scope is kept as outside. -/
theorem Within.deeper {r : Rule α} (h : Within KeepsScope r) : Within KeepsScope (deeper r) := by
  intro s
  unfold after Rule.deeper
  by_cases hd : maxNesting ≤ s.depth
  · rw [if_pos hd]
    exact IsFrame.refl s
  · rw [if_neg hd]
    have hs := h { s with depth := s.depth + 1 }
    unfold after at hs
    cases hr : r { s with depth := s.depth + 1 } with
    | ok a t =>
      rw [hr] at hs
      exact ⟨⟨hs.tokens, by simp [hs.depth], hs.file⟩, hs.scope⟩
    | error e t =>
      rw [hr] at hs
      exact ⟨⟨hs.tokens, by simp [hs.depth], hs.file⟩, hs.scope⟩

/-! ## 3. Rules that undo what they did -/

/-- **Backtracking undoes a rule** that on failure has changed no function. -/
theorem undoes_backtrack {r : Rule α} (h : FailsWithin KeepsFunctions (backtrack r)) :
    FailsWithin Undone (backtrack r) := by
  intro s e t hr
  have hk : KeepsFunctions s t := h hr
  obtain ⟨u, -, rfl⟩ := backtrack_eq_error_iff.mp hr
  have hu : u.cursor.toList = s.cursor.toList := hk.tokens
  exact ⟨hk, Cursor.seek_of_toList_eq hu⟩

/-- A rule that keeps the scope is undone by backtracking. -/
theorem undoes_backtrack_of_within {r : Rule α} (h : Within KeepsScope (backtrack r)) :
    FailsWithin Undone (backtrack r) :=
  undoes_backtrack (h.mono KeepsScope.keepsFunctions).failsWithin

/-- Where the scope is kept as well, a rule that fails has changed nothing. -/
theorem Within.eq_of_error {r : Rule α} (hk : Within KeepsScope r) (hu : FailsWithin Undone r)
    {s t : State} {e : Diagnostic} (hr : r s = .error e t) : t = s :=
  (hk.failsWithin hr).eq_of_cursor_eq (hu hr).cursor

end Rule

namespace Grammar

open Rule

/-! ## 4. Expressions -/

theorem within_primary : Within KeepsScope primary := by
  unfold primary
  refine .bind (.look _) fun token => ?_
  split
  · refine .bind (.look _) fun names => ?_
    split
    · exact .bind .advance fun _ => .pure _
    · exact .fail _
  · split
    · exact .bind .advance fun _ => .pure _
    · exact .fail _
  · exact .fail _
  · exact .unexpected

/-- The rule for a variable or a number moves only when it succeeds. -/
theorem undoes_primary : FailsWithin Undone primary := by
  unfold primary
  refine .look_bind fun token => ?_
  split
  · refine .look_bind fun names => ?_
    split
    · exact .of_total (.advance_bind fun _ => .pure _)
    · rintro s _ _ ⟨⟩
      exact .refl s
  · split
    · exact .of_total (.advance_bind fun _ => .pure _)
    · rintro s _ _ ⟨⟩
      exact .refl s
  · rintro s _ _ ⟨⟩
    exact .refl s
  · rintro s _ _ ⟨⟩
    exact .refl s

section Circle

variable {arg : Rule Expr}

theorem within_argumentsFrom (h : Within KeepsScope arg) :
    ∀ rounds, Within KeepsScope (argumentsFrom arg rounds)
  | 0 => .unexpected
  | rounds + 1 => by
    unfold argumentsFrom
    refine .bind h fun first => .bind (.look _) fun kind => ?_
    split
    · refine .bind .advance fun _ => ?_
      exact .bind (within_argumentsFrom h rounds) fun _ => .pure _
    · exact .pure _

theorem within_arguments (h : Within KeepsScope arg) : Within KeepsScope (arguments arg) := by
  unfold arguments
  refine .bind (.look _) fun kind => ?_
  split
  · exact .pure _
  · exact .bind (.look _) fun rounds => within_argumentsFrom h rounds

theorem within_callWith (h : Within KeepsScope arg) : Within KeepsScope (callWith arg) := by
  unfold callWith
  refine .backtrack (.bind (.look _) fun start => .bind (.expect _) fun callee =>
    .bind (.look _) fun names => ?_)
  split
  · exact .failAt _ _
  · refine .bind (.expect _) fun _ => .bind (.deeper (within_arguments h)) fun args =>
      .bind (.expect _) fun _ => ?_
    split
    · exact .pure _
    · exact .failAt _ _

theorem within_operandWith (h : Within KeepsScope arg) : Within KeepsScope (operandWith arg) := by
  unfold operandWith
  refine .bind (.attempt within_primary) fun outcome => ?_
  split
  · exact .pure _
  · refine .bind (.look _) fun kind => .bind (.attempt (within_callWith h)) fun outcome => ?_
    split
    · exact .pure _
    · exact .throw _

theorem within_chain {operator? : Token.Kind → Option Operator} (h : Within KeepsScope arg) :
    ∀ rounds left, Within KeepsScope (chain operator? arg rounds left)
  | 0, left => .pure _
  | rounds + 1, left => by
    unfold chain
    refine .bind (.look _) fun kind => ?_
    split
    · exact .pure _
    · exact .bind .advance fun _ => .bind h fun _ => within_chain h rounds _

theorem within_multiplicativeWith (h : Within KeepsScope arg) :
    Within KeepsScope (multiplicativeWith arg) :=
  .backtrack (.bind (within_operandWith h) fun left => .bind (.look _) fun rounds =>
    within_chain (within_operandWith h) rounds left)

theorem within_additiveWith (h : Within KeepsScope arg) : Within KeepsScope (additiveWith arg) :=
  .backtrack (.bind (within_multiplicativeWith h) fun left => .bind (.look _) fun rounds =>
    within_chain (within_multiplicativeWith h) rounds left)

theorem within_assignmentWith (h : Within KeepsScope arg) :
    Within KeepsScope (assignmentWith arg) := by
  unfold assignmentWith
  refine .backtrack (.bind (.look _) fun here => ?_)
  split
  · refine .bind (.look _) fun start => .bind .advance fun target => .bind .advance fun _ =>
      .bind (.attempt (within_additiveWith h)) fun outcome => ?_
    split
    · exact .pure _
    · exact .bind (.seek _) fun _ => within_additiveWith h
  · exact within_additiveWith h

end Circle

/-- The circle closes: each level of nesting keeps the scope because the one inside does. -/
theorem within_argument : ∀ levels, Within KeepsScope (argument levels)
  | 0 => .fail _
  | levels + 1 => within_assignmentWith (within_argument levels)

theorem within_atLevel {rule : Rule Expr → Rule Expr}
    (h : ∀ arg, Within KeepsScope arg → Within KeepsScope (rule arg)) :
    Within KeepsScope (atLevel rule) :=
  fun s => h _ (within_argument (maxNesting - s.depth)) s

theorem within_call : Within KeepsScope call := within_atLevel fun _ => within_callWith

theorem within_operand : Within KeepsScope operand := within_atLevel fun _ => within_operandWith

theorem within_multiplicative : Within KeepsScope multiplicative :=
  within_atLevel fun _ => within_multiplicativeWith

theorem within_additive : Within KeepsScope additive := within_atLevel fun _ => within_additiveWith

theorem within_assignment : Within KeepsScope assignment :=
  within_atLevel fun _ => within_assignmentWith

/-- What a rule undoes at every level, it undoes at the level the parse is at. -/
theorem undoes_atLevel {rule : Rule Expr → Rule Expr}
    (h : ∀ arg, Within KeepsScope arg → FailsWithin Undone (rule arg)) :
    FailsWithin Undone (atLevel rule) :=
  fun _ _ _ hr => h _ (within_argument _) hr

theorem undoes_call : FailsWithin Undone call :=
  undoes_atLevel fun _ h => undoes_backtrack_of_within (within_callWith h)

theorem undoes_multiplicative : FailsWithin Undone multiplicative :=
  undoes_atLevel fun _ h => undoes_backtrack_of_within (within_multiplicativeWith h)

theorem undoes_additive : FailsWithin Undone additive :=
  undoes_atLevel fun _ h => undoes_backtrack_of_within (within_additiveWith h)

theorem undoes_assignment : FailsWithin Undone assignment :=
  undoes_atLevel fun _ h => undoes_backtrack_of_within (within_assignmentWith h)

/-- The rule for an operand has no cursor of its own to put back: neither a variable or a number
that cannot be read nor a call that cannot be read has moved it. -/
theorem undoes_operand : FailsWithin Undone operand := by
  refine undoes_atLevel fun arg h => ?_
  unfold operandWith
  refine .attempt_bind (within_primary.eq_of_error undoes_primary) (fun _ => .pure _)
    fun noPrimary => ?_
  refine .look_bind fun kind => .attempt_bind ?_ (fun _ => .pure _) fun noCall => ?_
  · exact (within_callWith h).eq_of_error (undoes_backtrack_of_within (within_callWith h))
  · rintro s _ _ ⟨⟩
    exact .refl s

/-! ## 5. Statements, functions and declarations -/

theorem within_expressionStmt : Within KeepsScope expressionStmt := by
  unfold expressionStmt
  refine .backtrack (.bind (.look _) fun kind => ?_)
  split
  · exact .bind .advance fun _ => .pure _
  · exact .bind within_assignment fun _ => .bind (.expect _) fun _ => .pure _

theorem within_returnStmt : Within KeepsScope returnStmt :=
  .backtrack (.bind (.expect _) fun _ => .bind within_assignment fun _ =>
    .bind (.expect _) fun _ => .pure _)

theorem within_stmt : Within KeepsScope stmt := by
  unfold stmt
  refine .bind (.look _) fun kind => ?_
  split
  · exact within_returnStmt
  · exact within_expressionStmt

theorem undoes_expressionStmt : FailsWithin Undone expressionStmt :=
  undoes_backtrack_of_within within_expressionStmt

theorem undoes_returnStmt : FailsWithin Undone returnStmt :=
  undoes_backtrack_of_within within_returnStmt

theorem undoes_stmt : FailsWithin Undone stmt := by
  unfold stmt
  refine .look_bind fun kind => ?_
  split
  · exact undoes_returnStmt
  · exact undoes_expressionStmt

theorem within_stmtsFrom : ∀ rounds, Within KeepsScope (stmtsFrom rounds)
  | 0 => .bind (.look _) fun _ => .pure _
  | rounds + 1 => by
    unfold stmtsFrom
    refine .bind (.attempt within_stmt) fun outcome => ?_
    split
    · exact .bind (within_stmtsFrom rounds) fun _ => .pure _
    · exact .pure _

theorem within_paramsFrom : ∀ rounds earlier, Within KeepsScope (paramsFrom earlier rounds)
  | 0, _ => .unexpected
  | rounds + 1, earlier => by
    unfold paramsFrom
    refine .bind (.expect _) fun _ => .bind (.expect _) fun param => ?_
    split
    · exact .failAt _ _
    · refine .bind (.look _) fun kind => ?_
      split
      · exact .bind .advance fun _ => .bind (within_paramsFrom rounds _) fun _ => .pure _
      · exact .pure _

theorem within_prototype : Within KeepsScope prototype := by
  unfold prototype
  refine .backtrack (.bind (.expect _) fun _ => .bind (.expect _) fun name =>
    .bind (.expect _) fun _ => .bind (.look _) fun kind => ?_)
  split
  · exact .bind (.look _) fun rounds => .bind (within_paramsFrom rounds _) fun _ =>
      .bind (.expect _) fun _ => .pure _
  · exact .bind (.pure _) fun _ => .bind (.expect _) fun _ => .pure _

theorem within_varDecl : Within KeepsScope varDecl :=
  .backtrack (.bind (.expect _) fun _ => .bind (.expect _) fun _ => .bind (.expect _) fun _ =>
    .pure _)

/-- Taking a variable into scope puts its name behind the others, or it changes nothing. -/
theorem after_enterVariable (start : Position) (name : String) (s : State) :
    (name ∉ s.scope.vars ∧ after (enterVariable start name) s =
        { s with scope := { s.scope with vars := s.scope.vars ++ [name] } }) ∨
      after (enterVariable start name) s = s := by
  cases h : s.scope.declareVariable name with
  | ok changed =>
    obtain ⟨hfree, rfl⟩ := Scope.mem_declareVariable h
    refine .inl ⟨hfree, ?_⟩
    simp only [after, enterVariable, bind, EStateM.bind, Rule.scope, look, h, update]
  | error cause =>
    refine .inr ?_
    simp only [after, enterVariable, bind, EStateM.bind, Rule.scope, look, h, failAt]

section Frames

-- These rules change the names in scope.  What they keep is put together from what the single changes
-- keep, so each relation has only to be looked at there.
variable {R : State → State → Prop} [IsFrame R] {p : Prototype}

theorem within_varDeclsFrom (hscope : ∀ {s t}, KeepsScope s t → R s t)
    (hvariable : ∀ start name, Within R (enterVariable start name)) :
    ∀ rounds, Within R (varDeclsFrom rounds)
  | 0 => .pure _
  | rounds + 1 => by
    unfold varDeclsFrom
    refine .bind (.look _) fun kind => ?_
    split
    · exact .bind (.look _) fun start => .bind (within_varDecl.mono hscope) fun decl =>
        .bind (hvariable _ _) fun _ =>
          .bind (within_varDeclsFrom hscope hvariable rounds) fun _ => .pure _
    · exact .pure _

theorem within_body_of (hscope : ∀ {s t}, KeepsScope s t → R s t)
    (hvariable : ∀ start name, Within R (enterVariable start name))
    (henter : Within R (update fun scope => scope.enter p)) : Within R (body p) := by
  have hstmts (rounds : Nat) : Within R (stmtsFrom rounds) := (within_stmtsFrom rounds).mono hscope
  unfold body
  refine .backtrack (.bind (.expect _) fun _ => .bind henter fun _ => .bind (.look _) fun rounds =>
    .bind (within_varDeclsFrom hscope hvariable rounds) fun decls => .bind (.look _) fun rounds' =>
      .bind (hstmts rounds') fun ⟨stmts, stop⟩ => .bind (.look _) fun kind => ?_)
  split
  · split
    · exact .bind (.expect _) fun _ => .pure _
    · exact .fail _
  · exact .throw _

theorem within_declaration_of (hdeclare : Within R (update fun scope => scope.declare p)) :
    Within R (declaration p) := by
  unfold declaration
  refine .backtrack (.bind (.look _) fun start => .bind (.expect _) fun _ =>
    .bind (.look _) fun names => ?_)
  split
  · exact .bind hdeclare fun _ => .pure _
  · exact .failAt _ _

theorem within_definition_of (hbody : Within R (body p))
    (hdefine : Within R (update fun scope => scope.define p)) : Within R (definition p) := by
  unfold definition
  refine .backtrack (.bind (.look _) fun names => ?_)
  split
  · exact .bind hbody fun _ => .bind hdefine fun _ => .pure _
  · exact .fail _

/-- Of the signature it may be used that it has been read. -/
theorem within_external_of {P : Prototype → Prop} (hscope : ∀ {s t}, KeepsScope s t → R s t)
    (hP : ∀ {s p t}, prototype s = .ok p t → P p) (hdeclaration : ∀ p, Within R (declaration p))
    (hdefinition : ∀ p, P p → Within R (definition p)) : Within R external := by
  unfold external
  refine .backtrack (.bind_of_ok (within_prototype.mono hscope) hP fun p hp =>
    .bind (.look _) fun kind => ?_)
  split
  · exact .bind (hdeclaration p) fun _ => .pure _
  · exact .bind (hdefinition p hp) fun _ => .pure _
  · exact .unexpected

end Frames

/-- Taking a variable into scope concerns no function. -/
theorem within_enterVariable (start : Position) (name : String) :
    Within KeepsFunctions (enterVariable start name) := by
  intro s
  rcases after_enterVariable start name s with ⟨-, hs⟩ | hs
  · rw [hs]
    exact ⟨⟨rfl, rfl, rfl⟩, rfl, rfl⟩
  · rw [hs]
    exact IsFrame.refl s

/-- The rule for a body replaces the variables, and no function. -/
theorem within_body (p : Prototype) : Within KeepsFunctions (body p) :=
  within_body_of KeepsScope.keepsFunctions within_enterVariable
    fun _ => ⟨⟨rfl, rfl, rfl⟩, rfl, rfl⟩

theorem undoes_body (p : Prototype) : FailsWithin Undone (body p) :=
  undoes_backtrack (within_body p).failsWithin

/-- A change of the names in scope is of no concern to the tokens. -/
theorem within_update (g : Scope → Scope) : Within Framed (update g) := fun _ => ⟨rfl, rfl, rfl⟩

theorem within_declaration (p : Prototype) : Within Framed (declaration p) :=
  within_declaration_of (within_update _)

/-- A declaration enters its function as the last thing it does. -/
theorem undoes_declaration (p : Prototype) : FailsWithin Undone (declaration p) := by
  unfold declaration
  refine undoes_backtrack (.backtrack (.bind (.look _) fun start => .bind (.expect _) fun _ =>
    .look_bind fun names => ?_))
  split
  · exact .of_total (.update_bind fun _ => .pure _)
  · exact (Within.failAt _ _).failsWithin

theorem within_definition (p : Prototype) : Within Framed (definition p) :=
  within_definition_of ((within_body p).mono KeepsFunctions.toFramed) (within_update _)

/-- A definition enters its function as the last thing it does, after the body. -/
theorem undoes_definition (p : Prototype) : FailsWithin Undone (definition p) := by
  unfold definition
  refine undoes_backtrack (.backtrack (.look_bind fun names => ?_))
  split
  · exact .bind (within_body p) fun _ => .of_total (.update_bind fun _ => .pure _)
  · exact (Within.fail _).failsWithin

theorem within_external : Within Framed external :=
  within_external_of KeepsScope.toFramed (fun _ => trivial) within_declaration
    fun p _ => within_definition p

theorem undoes_external : FailsWithin Undone external := by
  unfold external
  refine undoes_backtrack (.backtrack (.bind (within_prototype.mono KeepsScope.keepsFunctions)
    fun p => .look_bind fun kind => ?_))
  split
  · exact .bind_of_total (fun _ _ _ h => (undoes_declaration p h).toKeepsFunctions) fun _ => .pure _
  · exact .bind_of_total (fun _ _ _ h => (undoes_definition p h).toKeepsFunctions) fun _ => .pure _
  · exact Within.unexpected.failsWithin

end Grammar

namespace Session

open Rule Grammar

/-! ## 6. Every rule but the one for whole sources -/

/-- The rule is one for signatures, variables, statements or expressions. -/
def Nonterminal.keepsScope : Nonterminal → Bool
  | program | external | declaration _ | definition _ | body _ => false
  | prototype | varDecl | stmt | expressionStmt | returnStmt => true
  | assignment | additive | multiplicative | operand | call | primary => true

theorem Nonterminal.within_rule_of_keepsScope {n : Nonterminal} (h : n.keepsScope = true) :
    Within KeepsScope n.rule := by
  cases n with
  | program | external | declaration | definition | body => cases h
  | prototype => exact within_prototype.map _
  | varDecl => exact within_varDecl.map _
  | stmt => exact within_stmt.map _
  | expressionStmt => exact within_expressionStmt.map _
  | returnStmt => exact within_returnStmt.map _
  | assignment => exact within_assignment.map _
  | additive => exact within_additive.map _
  | multiplicative => exact within_multiplicative.map _
  | operand => exact within_operand.map _
  | call => exact within_call.map _
  | primary => exact within_primary.map _

theorem Nonterminal.within_rule {n : Nonterminal} (hn : n ≠ .program) : Within Framed n.rule := by
  cases n with
  | program => exact absurd rfl hn
  | external => exact within_external.map _
  | declaration p => exact (within_declaration p).map _
  | definition p => exact (within_definition p).map _
  | body p => exact ((within_body p).mono KeepsFunctions.toFramed).map _
  | _ => exact (within_rule_of_keepsScope rfl).mono KeepsScope.toFramed

theorem Nonterminal.undoes_rule {n : Nonterminal} (hn : n ≠ .program) :
    FailsWithin Undone n.rule := by
  cases n with
  | program => exact absurd rfl hn
  | external => exact undoes_external.map _
  | declaration p => exact (undoes_declaration p).map _
  | definition p => exact (undoes_definition p).map _
  | body p => exact (undoes_body p).map _
  | prototype => exact (undoes_backtrack_of_within within_prototype).map _
  | varDecl => exact (undoes_backtrack_of_within within_varDecl).map _
  | stmt => exact undoes_stmt.map _
  | expressionStmt => exact undoes_expressionStmt.map _
  | returnStmt => exact undoes_returnStmt.map _
  | assignment => exact undoes_assignment.map _
  | additive => exact undoes_additive.map _
  | multiplicative => exact undoes_multiplicative.map _
  | operand => exact undoes_operand.map _
  | call => exact undoes_call.map _
  | primary => exact undoes_primary.map _

/-- **A rule that fails has undone itself.**  For every rule but the one for whole sources and every
state: after a failure the cursor, the number of open argument lists and both tables of functions
are as before.  On either outcome the tokens, the open argument lists and the file are, and for the
rules for signatures, variables, statements and expressions all names in scope are. -/
theorem rule_failure_atomic {n : Nonterminal} (hn : n ≠ .program) (s : State) :
    (∀ e t, n.rule s = .error e t →
      t.cursor = s.cursor ∧ t.depth = s.depth ∧
        t.scope.prototypes = s.scope.prototypes ∧ t.scope.functions = s.scope.functions) ∧
    ((after n.rule s).cursor.toList = s.cursor.toList ∧ (after n.rule s).depth = s.depth ∧
      (after n.rule s).file = s.file) ∧
    (n.keepsScope = true → (after n.rule s).scope = s.scope) := by
  refine ⟨?_, ?_, ?_⟩
  · intro e t h
    have hu : Undone s t := Nonterminal.undoes_rule hn h
    exact ⟨hu.cursor, hu.depth, hu.prototypes, hu.functions⟩
  · have hw : Framed s (after n.rule s) := Nonterminal.within_rule hn s
    exact ⟨hw.tokens, hw.depth, hw.file⟩
  · intro hk
    exact (Nonterminal.within_rule_of_keepsScope hk s).scope

/-- A body that breaks off after its brace, in a state with another function's variable in scope. -/
def brokenBody : State :=
  { State.start [⟨.openCurly, String.singleton '{', .empty .null⟩] "broken" with
    scope.vars := ["y"] }

/-- The failure at `brokenBody` comes after the variables have been replaced, so the one table that
may change does. -/
theorem rule_failure_atomic_brokenBody :
    (∃ e t, (Nonterminal.body ⟨"f", ["x"]⟩).rule brokenBody = .error e t ∧ t.scope.vars = ["x"] ∧
      t.cursor = brokenBody.cursor ∧ t.depth = brokenBody.depth ∧
      t.scope.prototypes = brokenBody.scope.prototypes ∧
      t.scope.functions = brokenBody.scope.functions) ∧
    (after (Nonterminal.body ⟨"f", ["x"]⟩).rule brokenBody).file = brokenBody.file := by
  obtain ⟨hfail, ⟨-, -, hfile⟩, -⟩ :=
    rule_failure_atomic (n := .body ⟨"f", ["x"]⟩) nofun brokenBody
  exact ⟨⟨_, _, rfl, rfl, hfail _ _ rfl⟩, hfile⟩

end Session

end IntC
