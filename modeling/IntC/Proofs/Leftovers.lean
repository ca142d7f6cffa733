/-
# Leftover variables are never looked at

A body that has been read, or that was given up halfway, leaves its variables in scope.  They are
still there when the next declaration is read, and every name in an expression is looked up among
the variables.  But what stands between two bodies has no expressions in it, and a body replaces the
variables right behind its opening brace.  So of two parses that differ in the variables left in
scope, neither finds out.

* `SameButVars`: what such states have in common.
* `body_withVars`: at an opening brace, a body does not depend on the variables in scope.
* `external_sameButVars`: one declaration or definition, and any number of them, come to the same
  thing from two such states.

The file is not asked to be the same either: it is only handed on.  Inside a body that is seen by
taking the one run as a renaming of the other that changes no name.
-/
import IntC.Proofs.Programs
import IntC.Proofs.Renaming

namespace IntC

/-! ## 1. States that differ in the variables -/

/-- The states are at the same token, inside the same argument lists and with the same functions in
scope. -/
structure SameButVars (s s' : State) : Prop where
  cursor : s'.cursor = s.cursor
  depth : s'.depth = s.depth
  prototypes : s'.scope.prototypes = s.scope.prototypes
  functions : s'.scope.functions = s.scope.functions

namespace SameButVars

variable {s s' : State}

theorem current (h : SameButVars s s') : s'.current = s.current := by
  rw [State.current, h.cursor, State.current]

theorem position (h : SameButVars s s') : s'.position = s.position := by
  rw [State.position, h.current, State.position]

theorem diagnose (h : SameButVars s s') (cause : Cause) : s'.diagnose cause = s.diagnose cause := by
  rw [State.diagnose, h.position, State.diagnose]

theorem unexpected (h : SameButVars s s') : s'.unexpected = s.unexpected := by
  rw [State.unexpected, h.current, h.diagnose, State.unexpected]

/-- Whether a signature is allowed is a matter of the functions. -/
theorem checkPrototype (h : SameButVars s s') (p : Prototype) :
    s'.scope.checkPrototype p = s.scope.checkPrototype p := by
  rw [Scope.eq_of_functions h.prototypes h.functions]
  rfl

instance : Lockstep SameButVars fun e e' => e' = e where
  pos h := by rw [h.cursor]
  left h := by rw [h.cursor]
  kind n h := by rw [h.cursor]
  depth h := h.depth
  advance h := { h with cursor := congrArg Cursor.advance h.cursor }
  seek pos h := { h with cursor := congrArg (Cursor.seek · pos) h.cursor }
  setDepth depth h := { h with depth := rfl }
  unexpected h := h.unexpected
  tooDeep h := h.diagnose _

end SameButVars

namespace Grammar

open Rule

/-- From two states that differ in the variables, the rule comes to the same thing. -/
abbrev IgnoresVars {α : Type} (r : Rule α) : Prop :=
  Paired SameButVars (fun e e' => e' = e) (fun a a' => a' = a) r r

/-! ## 2. Between two bodies -/

theorem ignoresVars_expect (kind : Token.Kind) : IgnoresVars (expect kind) :=
  .expect fun h _ => SameButVars.current h

theorem ignoresVars_advance : IgnoresVars advance := .advance SameButVars.current

theorem ignoresVars_position : IgnoresVars position := .look SameButVars.position

/-- The scopes may be different, but not in what they say of a signature. -/
theorem paired_scope (p : Prototype) : Paired SameButVars (fun e e' => e' = e)
    (fun names names' => names'.checkPrototype p = names.checkPrototype p) scope scope :=
  .look fun h => SameButVars.checkPrototype h p

theorem ignoresVars_paramsFrom : ∀ rounds earlier, IgnoresVars (paramsFrom earlier rounds)
  | 0, _ => .unexpected
  | rounds + 1, earlier => by
    unfold paramsFrom
    refine .bind_map (ignoresVars_expect _) fun _ => ?_
    refine .bind_map (ignoresVars_expect _) fun param => ?_
    refine .ite Iff.rfl (.failAt rfl) (.bind_map .currentKind fun kind => ?_)
    refine .ite Iff.rfl ?_ (.pure rfl)
    refine .bind_map ignoresVars_advance fun _ => ?_
    exact .bind_map (ignoresVars_paramsFrom rounds _) fun _ => .pure rfl

theorem ignoresVars_prototype : IgnoresVars prototype := by
  unfold prototype
  refine .backtrack (.bind_map (ignoresVars_expect _) fun _ => ?_)
  refine .bind_map (ignoresVars_expect _) fun name => .bind_map (ignoresVars_expect _) fun _ => ?_
  refine .bind_map .currentKind fun kind => ?_
  refine .ite Iff.rfl ?_ (.bind_map (g := id) (.pure rfl) fun _ => ?_)
  · exact .bind_map .tokensLeft fun rounds => .bind_map (ignoresVars_paramsFrom rounds _) fun _ =>
      .bind_map (ignoresVars_expect _) fun _ => .pure rfl
  · exact .bind_map (ignoresVars_expect _) fun _ => .pure rfl

end Grammar

/-! ## 3. Bodies -/

section Bodies

variable {s s' : State} {ts : List Token}

/-- With the same variables as well, the one state is the other with no name changed. -/
theorem SameButVars.alike (h : SameButVars s s') (hvars : s'.scope.vars = s.scope.vars) :
    Alike .id s.cursor.toList s.cursor.toList s s' where
  tokens := rfl
  tokens' := by rw [h.cursor]
  same := List.map_congr_left fun t _ => t.renamed_id.symm
  pos := by rw [h.cursor]
  depth := h.depth
  scope := by rw [Scope.rename_id, Scope.eq_of_functions h.prototypes h.functions, hvars]

theorem Alike.sameButVars (h : Alike .id ts ts s s') : SameButVars s s' := by
  have hscope : s'.scope = s.scope := by rw [h.scope, Scope.rename_id]
  refine ⟨?_, h.depth, by rw [hscope], by rw [hscope]⟩
  have hback := Cursor.seek_of_toList_eq (h.tokens'.trans h.tokens.symm)
  rwa [← h.pos, Cursor.seek_pos_self] at hback

/-- At one index of one list there is one token. -/
theorem Twins.eq {t t' : Token} (h : Twins .id ts ts t t') : t' = t := by
  obtain ⟨i, ht, ht'⟩ := h.place
  rw [ht] at ht'
  exact (Option.some.inj ht').symm

theorem SameFault.eq {e e' : Diagnostic} (h : SameFault .id ts ts e e') : e' = e := by
  cases h with
  | token htwins => rw [htwins.eq]
  | names hplace cause =>
    obtain ⟨t, t', htwins, rfl, rfl⟩ := hplace
    rw [htwins.eq, Cause.rename_id]

end Bodies

namespace Grammar

open Rule

theorem body_of_kind_ne {s : State} (p : Prototype) (h : s.current.kind ≠ .openCurly) :
    body p s = .error s.unexpected s := by
  unfold body backtrack
  rw [expect_bind_apply, if_neg h]
  simp only [State.seek, Cursor.seek_pos_self]

/-- **At an opening brace, a body does not depend on the variables in scope**: the first thing it
does behind the brace is to replace them. -/
theorem body_withVars {s : State} (p : Prototype) (vars : List String)
    (h : s.current.kind = .openCurly) : body p (s.withVars vars) = body p s := by
  have h' : (s.withVars vars).current.kind = .openCurly := h
  unfold body backtrack
  rw [expect_bind_apply, if_pos h', update_bind_apply, expect_bind_apply, if_pos h,
    update_bind_apply]
  rfl

theorem ignoresVars_body (p : Prototype) : IgnoresVars (body p) := by
  intro s s' h
  by_cases hopen : s.current.kind = .openCurly
  · have hopen' : s'.current.kind = .openCurly := by rw [h.current, hopen]
    have hsame : SameButVars s (s'.withVars s.scope.vars) := { h with }
    have hruns := renames_body p (hsame.alike rfl)
    rw [Prototype.rename_id, body_withVars p _ hopen'] at hruns
    rcases hruns.cases with ⟨b, _, t, t', hr, hr', rfl, ht⟩ | ⟨e, e', t, t', hr, hr', hfault, ht⟩
    · rw [hr, hr', Body.rename_id]
      exact .ok rfl ht.sameButVars
    · rw [hr, hr']
      exact .error hfault.eq ht.sameButVars
  · have hopen' : s'.current.kind ≠ .openCurly := by rwa [h.current]
    rw [body_of_kind_ne p hopen, body_of_kind_ne p hopen']
    exact .error h.unexpected h

/-! ## 4. Declarations and definitions -/

theorem ignoresVars_declaration (p : Prototype) : IgnoresVars (declaration p) := by
  unfold declaration
  refine .backtrack (.bind_map ignoresVars_position fun start => ?_)
  refine .bind_map (ignoresVars_expect _) fun _ => ?_
  refine .bind (paired_scope p) fun names names' hcheck => ?_
  rw [hcheck]
  cases names.checkPrototype p with
  | ok _ =>
    refine .bind (.update fun h => ?_) fun _ _ _ => .pure rfl
    exact ⟨h.cursor, h.depth, congrArg (List.cons _) h.prototypes, h.functions⟩
  | error cause => exact .failAt rfl

theorem ignoresVars_definition (p : Prototype) : IgnoresVars (definition p) := by
  unfold definition
  refine .backtrack (.bind (paired_scope p) fun names names' hcheck => ?_)
  rw [hcheck]
  cases names.checkPrototype p with
  | ok _ =>
    refine .bind_map (ignoresVars_body p) fun body => ?_
    refine .bind (.update fun h => ?_) fun _ _ _ => .pure rfl
    exact ⟨h.cursor, h.depth, h.prototypes, congrArg (List.cons _) h.functions⟩
  | error cause => exact .fail fun h => SameButVars.diagnose h cause

theorem ignoresVars_external : IgnoresVars external := by
  unfold external
  refine .backtrack (.bind_map ignoresVars_prototype fun p => .bind_map .currentKind fun kind => ?_)
  cases kind with
  | semicolon => exact .bind_map (ignoresVars_declaration p) fun _ => .pure rfl
  | openCurly => exact .bind_map (ignoresVars_definition p) fun _ => .pure rfl
  | _ => exact .unexpected

theorem external_cases {s s' : State} (h : SameButVars s s') :
    (∃ d t t', external s = .ok d t ∧ external s' = .ok d t' ∧ SameButVars t t') ∨
      ∃ e t t', external s = .error e t ∧ external s' = .error e t' ∧ SameButVars t t' := by
  rcases (ignoresVars_external h).cases with
    ⟨_, d, t, t', hr, hr', rfl, ht⟩ | ⟨_, e, t, t', hr, hr', rfl, ht⟩
  · exact .inl ⟨d, t, t', hr, hr', ht⟩
  · exact .inr ⟨e, t, t', hr, hr', ht⟩

end Grammar

namespace Session

open Rule Grammar

/-- A step that reads a declaration or definition gives the same answer from both states. -/
theorem run_external {s s' : State} (h : SameButVars s s') :
    (Step.run (.read .external) s').1 = (Step.run (.read .external) s).1 ∧
      SameButVars (Step.run (.read .external) s).2 (Step.run (.read .external) s').2 := by
  show (answer (EStateM.map Node.external external) .node s').1 =
      (answer (EStateM.map Node.external external) .node s).1 ∧ SameButVars
      (answer (EStateM.map Node.external external) .node s).2
      (answer (EStateM.map Node.external external) .node s').2
  unfold answer EStateM.map
  rcases external_cases h with ⟨d, t, t', hr, hr', ht⟩ | ⟨e, t, t', hr, hr', ht⟩
  · rw [hr, hr']
    exact ⟨rfl, ht⟩
  · rw [hr, hr']
    exact ⟨rfl, ht⟩

/-- **Leftover variables are invisible.**  From two states that differ in the variables in scope, a
declaration or definition is read as the same tree or fails with the same diagnostic, and the states
after it again differ in nothing else.  The same holds for any number of them, read one after the
other, whether they can be read or not. -/
theorem external_sameButVars {s s' : State} (h : SameButVars s s') :
    ((∃ d t t', external s = .ok d t ∧ external s' = .ok d t' ∧ SameButVars t t') ∨
      ∃ e t t', external s = .error e t ∧ external s' = .error e t' ∧ SameButVars t t') ∧
    ∀ n, List.Forall₂ (fun x x' => x'.1 = x.1 ∧ SameButVars x.2 x'.2)
      (run (List.replicate n (.read .external)) s)
      (run (List.replicate n (.read .external)) s') := by
  refine ⟨external_cases h, fun n => ?_⟩
  induction n generalizing s s' with
  | zero => exact .nil
  | succ n ih =>
    have hfirst := run_external h
    rw [List.replicate_succ]
    exact .cons hfirst (ih hfirst.2)

/-- In front of `int f() { return x; }`, with some variables left in scope. -/
def leftover (vars : List String) : State :=
  (State.ofTexts [(.int, "int"), (.identifier, "f"), (.openParen, "("), (.closeParen, ")"),
    (.openCurly, String.singleton '{'), (.ret, "return"), (.identifier, "x"), (.semicolon, ";"),
    (.closeCurly, String.singleton '}')]).withVars vars

/-- A leftover `x` would do for the value that is returned, but the function is refused all the
same. -/
theorem external_sameButVars_leftover :
    SameButVars (leftover []) (leftover ["x"]) ∧
      (∃ t, primary ((leftover ["x"]).seek 6) = .ok (.var "x") t) ∧
      ∃ t t', external (leftover []) = .error ⟨.unknownVariable "x", .null⟩ t ∧
        external (leftover ["x"]) = .error ⟨.unknownVariable "x", .null⟩ t' ∧ SameButVars t t' := by
  have hsame : SameButVars (leftover []) (leftover ["x"]) := ⟨rfl, rfl, rfl, rfl⟩
  have hfail : ∃ t, external (leftover []) = .error ⟨.unknownVariable "x", .null⟩ t := ⟨_, rfl⟩
  refine ⟨hsame, ⟨_, rfl⟩, ?_⟩
  obtain ⟨u, hu⟩ := hfail
  rcases (external_sameButVars hsame).1 with ⟨d, t, t', hr, -⟩ | ⟨e, t, t', hr, hr', ht⟩
  · rw [hr] at hu
    cases hu
  · rw [hr] at hu
    cases hu
    exact ⟨_, t', hr, hr', ht⟩

end Session

end IntC
