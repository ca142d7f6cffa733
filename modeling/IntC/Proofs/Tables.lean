/-
# The tables over a whole session

A declaration enters its function into one table and a definition into the other, and neither looks
at what was there: an entry that says something else is simply covered.  That this never happens is
due to the check a rule makes before, for a definition before the whole body is read.  So the rules
are taken one at a time, each from the state before it to the state after it, and all that is said
about sessions follows from what one rule can do to the tables.

* `Scope.Change`: a rule changes the variables, and enters at most one function, which has passed
  the check (`Nonterminal.changes_rule`).
* `Scope.Change.agrees`, `Scope.Change.arity?`, `Scope.Change.isDefined`: what every change keeps,
  and with it every row of changes (`Extends`).
* `Nonterminal.keepsDistinct_rule`: no variable comes twice, unless it is passed in twice.
* `tables_of_session`: the same for sessions.
-/
import IntC.Proofs.Programs
import IntC.Proofs.Reparse

namespace IntC

/-! ## 1. One change of the tables -/

namespace Scope

variable {s t : Scope}

/-- What one rule can do to the names in scope: it gives other variables, and it may declare or
define one function that the tables do not speak against. -/
inductive Change (s : Scope) : Scope → Prop
  | keep (vars : List String) : Change s { s with vars }
  | declare (p : Prototype) (vars : List String) (hcheck : s.checkPrototype p = .ok ()) :
      Change s { s.declare p with vars }
  | define (p : Prototype) (vars : List String) (hcheck : s.checkPrototype p = .ok ()) :
      Change s { s.define p with vars }

/-- No function has one number of parameters as declared and another one as defined. -/
def Agrees (s : Scope) : Prop :=
  ∀ name m n, s.prototypes.lookup name = some m → s.functions.lookup name = some n → m = n

theorem agrees_initial : Agrees .initial := by
  intro name m n _ hn
  cases hn

theorem isDefined_eq_false_iff {name : String} :
    s.isDefined name = false ↔ s.functions.lookup name = none := by
  simp [isDefined]

/-- A name that is defined has no check to pass any more. -/
theorem checkPrototype_of_isDefined {p : Prototype} (h : s.isDefined p.name = true) :
    s.checkPrototype p = .error (.repeatedDefinition p.name) := by
  rw [checkPrototype, if_pos h]

/-- What passes the check is not defined, so its number of parameters is the declared one. -/
theorem arity?_of_checkPrototype {p : Prototype} (hcheck : s.checkPrototype p = .ok ()) :
    s.arity? p.name = s.prototypes.lookup p.name := by
  have hfresh := isDefined_eq_false_iff.mp (checkPrototype_eq_ok_iff.mp hcheck).1
  rw [arity?, hfresh]
  cases s.prototypes.lookup p.name <;> rfl

namespace Change

theorem agrees (h : Change s t) (hs : s.Agrees) : t.Agrees := by
  cases h with
  | keep vars => exact hs
  | declare p vars hcheck =>
    intro name m n hm hn
    replace hm : (s.declare p).prototypes.lookup name = some m := hm
    replace hn : s.functions.lookup name = some n := hn
    rw [lookup_declare] at hm
    split at hm
    · -- the function that was entered is not defined
      next hname =>
      subst hname
      have hfresh := isDefined_eq_false_iff.mp (checkPrototype_eq_ok_iff.mp hcheck).1
      rw [hfresh] at hn
      cases hn
    · exact hs name m n hm hn
  | define p vars hcheck =>
    intro name m n hm hn
    replace hm : s.prototypes.lookup name = some m := hm
    replace hn : (s.define p).functions.lookup name = some n := hn
    rw [lookup_define] at hn
    split at hn
    · next hname =>
      subst hname
      cases hn
      exact (checkPrototype_eq_ok_iff.mp hcheck).2 m hm
    · exact hs name m n hm hn

theorem arity? (h : Change s t) {name : String} {n : Nat} (hn : s.arity? name = some n) :
    t.arity? name = some n := by
  cases h with
  | keep vars => exact hn
  | declare p vars hcheck =>
    show (s.declare p).arity? name = some n
    rw [arity?_declare]
    split
    · next hname =>
      rw [hname, arity?_of_checkPrototype hcheck] at hn
      rw [(checkPrototype_eq_ok_iff.mp hcheck).2 n hn]
    · exact hn
  | define p vars hcheck =>
    show (s.define p).arity? name = some n
    rw [arity?_define]
    split
    · next hname =>
      rw [hname, arity?_of_checkPrototype hcheck] at hn
      rw [hname, hn]
      rfl
    · exact hn

theorem isDefined (h : Change s t) {name : String} (hs : s.isDefined name = true) :
    t.isDefined name = true := by
  cases h with
  | keep vars => exact hs
  | declare p vars hcheck => exact hs
  | define p vars hcheck =>
    show ((s.define p).functions.lookup name).isSome = true
    rw [lookup_define]
    split
    · rfl
    · exact hs

end Change

end Scope

/-! ## 2. What the rules do to the tables -/

/-- The names in scope go through at most one change. -/
def Changes (s t : State) : Prop := s.scope.Change t.scope

theorem KeepsFunctions.changes {s t : State} (h : KeepsFunctions s t) : Changes s t := by
  unfold Changes
  rw [Scope.eq_of_functions h.prototypes h.functions]
  exact .keep _

/-- Nothing that the tables say of a function is taken back. -/
structure Extends (s t : State) : Prop where
  agrees : s.scope.Agrees → t.scope.Agrees
  arity? : ∀ name n, s.scope.arity? name = some n → t.scope.arity? name = some n
  isDefined : ∀ name, s.scope.isDefined name = true → t.scope.isDefined name = true

instance : IsFrame Extends where
  refl _ := ⟨id, fun _ _ => id, fun _ => id⟩
  trans h h' := ⟨h'.agrees ∘ h.agrees, fun name n => h'.arity? name n ∘ h.arity? name n,
    fun name => h'.isDefined name ∘ h.isDefined name⟩
  advance _ := ⟨id, fun _ _ => id, fun _ => id⟩
  seek _ _ := ⟨id, fun _ _ => id, fun _ => id⟩

theorem extends_of_changes {s t : State} (h : Changes s t) : Extends s t :=
  ⟨h.agrees, fun _ _ => h.arity?, fun _ => h.isDefined⟩

namespace Grammar

open Rule

variable {s t : State}

/-- What is undone when it fails has only to be looked at where it succeeds. -/
theorem changes_of_undoes {α : Type} {r : Rule α} (hundo : FailsWithin Undone r)
    (hok : ∀ {s a t}, r s = .ok a t → Changes s t) : Within Changes r := by
  intro s
  cases h : r s with
  | ok a t =>
    rw [after_of_ok h]
    exact hok h
  | error e t =>
    rw [after_of_error h]
    exact (hundo h).toKeepsFunctions.changes

theorem changes_of_declaration {p q : Prototype} (h : declaration p s = .ok q t) : Changes s t := by
  obtain ⟨-, -, hcheck, rfl⟩ := declaration_eq_ok_iff.mp h
  exact .declare p s.scope.vars hcheck

/-- What a definition does where it succeeds: the check is made in front of the body, and the
function is entered behind it. -/
theorem exists_body_of_definition {p : Prototype} {f : FunctionDef}
    (h : definition p s = .ok f t) :
    s.scope.checkPrototype p = .ok () ∧
      ∃ b u, body p s = .ok b u ∧ t = { u with scope := u.scope.define p } := by
  rw [definition, backtrack_eq_ok_iff, Rule.scope, look_bind_eq_ok_iff] at h
  cases hcheck : s.scope.checkPrototype p with
  | error cause =>
    rw [hcheck] at h
    exact absurd h fail_ne_ok
  | ok =>
    rw [hcheck] at h
    obtain ⟨b, u, hbody, hend⟩ := bind_eq_ok_iff.mp h
    rw [update_bind_eq_ok_iff, pure_eq_ok_iff] at hend
    exact ⟨rfl, b, u, hbody, hend.2⟩

/-- The body leaves the tables that the check has looked at. -/
theorem changes_of_definition {p : Prototype} {f : FunctionDef} (h : definition p s = .ok f t) :
    Changes s t := by
  obtain ⟨hcheck, b, u, hbody, rfl⟩ := exists_body_of_definition h
  have hkeeps : KeepsFunctions s u := (within_body p).of_ok hbody
  show s.scope.Change (u.scope.define p)
  rw [Scope.eq_of_functions hkeeps.prototypes hkeeps.functions]
  exact .define p _ hcheck

theorem changes_of_external {d : External} (h : external s = .ok d t) : Changes s t := by
  rw [external, backtrack_eq_ok_iff] at h
  obtain ⟨p, u, hp, hrest⟩ := bind_eq_ok_iff.mp h
  have hscope : u.scope = s.scope := (within_prototype.of_ok hp).scope
  rw [currentKind, look_bind_eq_ok_iff] at hrest
  unfold Changes
  rw [← hscope]
  cases hk : u.current.kind with
  | semicolon =>
    rw [hk] at hrest
    obtain ⟨q, v, hq, hend⟩ := bind_eq_ok_iff.mp hrest
    obtain ⟨-, rfl⟩ := pure_eq_ok_iff.mp hend
    exact changes_of_declaration hq
  | openCurly =>
    rw [hk] at hrest
    obtain ⟨f, v, hf, hend⟩ := bind_eq_ok_iff.mp hrest
    obtain ⟨-, rfl⟩ := pure_eq_ok_iff.mp hend
    exact changes_of_definition hf
  | _ =>
    rw [hk] at hrest
    exact absurd hrest unexpected_ne_ok

end Grammar

namespace Session

open Rule Grammar

/-- **A rule changes the tables at most once**, whatever comes of it. -/
theorem Nonterminal.changes_rule {n : Nonterminal} (hn : n ≠ .program) :
    Within Changes n.rule := by
  cases n with
  | program => exact absurd rfl hn
  | external => exact (changes_of_undoes undoes_external changes_of_external).map _
  | declaration p =>
    exact (changes_of_undoes (undoes_declaration p) changes_of_declaration).map _
  | definition p => exact (changes_of_undoes (undoes_definition p) changes_of_definition).map _
  | body p => exact ((within_body p).mono KeepsFunctions.changes).map _
  | _ => exact (within_rule_of_keepsScope rfl).mono fun h => h.keepsFunctions.changes

end Session

/-! ## 3. Variables -/

/-- If no variable came twice, none does. -/
def KeepsDistinct (s t : State) : Prop := s.scope.vars.Nodup → t.scope.vars.Nodup

instance : IsFrame KeepsDistinct where
  refl _ := id
  trans h h' := h' ∘ h
  advance _ := id
  seek _ _ := id

theorem KeepsScope.keepsDistinct {s t : State} (h : KeepsScope s t) : KeepsDistinct s t := by
  intro hs
  rwa [h.scope]

namespace Grammar

open Rule

theorem keepsDistinct_enterVariable (start : Position) (name : String) :
    Within KeepsDistinct (enterVariable start name) := by
  intro s hnodup
  rcases after_enterVariable start name s with ⟨hfree, hs⟩ | hs
  · rw [hs]
    show (s.scope.vars ++ [name]).Nodup
    exact List.nodup_append.mpr ⟨hnodup, by simp, by grind⟩
  · rwa [hs]

/-- The variables of a body start with the parameters, whatever was in scope. -/
theorem keepsDistinct_body {p : Prototype} (hp : p.params.Nodup) :
    Within KeepsDistinct (body p) :=
  within_body_of KeepsScope.keepsDistinct keepsDistinct_enterVariable fun _ _ => hp

theorem keepsDistinct_declaration (p : Prototype) : Within KeepsDistinct (declaration p) :=
  within_declaration_of fun _ hnodup => hnodup

theorem keepsDistinct_definition {p : Prototype} (hp : p.params.Nodup) :
    Within KeepsDistinct (definition p) :=
  within_definition_of (keepsDistinct_body hp) fun _ hnodup => hnodup

/-- A signature that was read passes no parameter twice. -/
theorem keepsDistinct_external : Within KeepsDistinct external :=
  within_external_of KeepsScope.keepsDistinct (fun h => (prototype_eq_ok_iff.mp h).2)
    keepsDistinct_declaration fun _ => keepsDistinct_definition

end Grammar

namespace Session

open Rule Grammar

/-- The signature that a rule is told. -/
def Nonterminal.signature? : Nonterminal → Option Prototype
  | declaration p | definition p | body p => some p
  | _ => none

theorem Nonterminal.keepsDistinct_rule {n : Nonterminal} (hn : n ≠ .program)
    (hp : ∀ p, n.signature? = some p → p.params.Nodup) : Within KeepsDistinct n.rule := by
  cases n with
  | program => exact absurd rfl hn
  | external => exact keepsDistinct_external.map _
  | declaration p => exact (keepsDistinct_declaration p).map _
  | definition p => exact (keepsDistinct_definition (hp p rfl)).map _
  | body p => exact (keepsDistinct_body (hp p rfl)).map _
  | _ => exact (within_rule_of_keepsScope rfl).mono KeepsScope.keepsDistinct

/-! ## 4. Sessions -/

/-- The step reads by a rule, other than the one for whole sources, or moves or looks around. -/
def Step.isReading : Step → Bool
  | .read n => n ≠ .program
  | .advance | .expect _ | .peek _ | .seek _ | .unexpected => true
  | .scope _ | .backtrack _ | .deeper _ _ => false

/-- The signature that a step passes on. -/
def Step.signature? : Step → Option Prototype
  | .read n => n.signature?
  | _ => none

/-- What no move of the cursor breaks, a step keeps if the rule it reads by does. -/
theorem Step.within_run {R : State → State → Prop} [IsFrame R] {step : Step}
    (hstep : step.isReading = true)
    (hread : ∀ n, step = .read n → n ≠ .program → Within R n.rule) (s : State) :
    R s (step.run s).2 := by
  cases step with
  | read n => exact answer_snd n.rule .node s ▸ hread n rfl (by simpa [isReading] using hstep) s
  | advance => exact IsFrame.advance s
  | expect kind => exact answer_snd (Rule.expect kind) .token s ▸ Within.expect kind s
  | peek n => exact IsFrame.refl s
  | seek pos => exact IsFrame.seek s pos
  | unexpected => exact IsFrame.refl s
  | scope | backtrack | deeper => cases hstep

theorem extends_endState {steps : List Step} (hsteps : ∀ step ∈ steps, step.isReading = true)
    (s : State) : Extends s (endState steps s) := by
  refine within_endState (fun step hstep => Step.within_run (hsteps step hstep) ?_) s
  intro n _ hn
  exact (Nonterminal.changes_rule hn).mono extends_of_changes

/-- **The tables over a session.**  Of the two states, the first is reached from the start and the
second from the first, both by rules, each of which may succeed or fail, and by moves of the cursor.
In the first no function has two numbers of parameters.  What is known of a function there is still
known in the second, and what is defined is still defined, so that it can be neither declared nor
defined.  And no variable comes twice, if none came twice in a signature that was passed on. -/
theorem tables_of_session {steps later : List Step}
    (hsteps : ∀ step ∈ steps ++ later, step.isReading = true) (tokens : List Token) (file : String)
    {s t : State} (hs : s = endState steps (.start tokens file)) (ht : t = endState later s) :
    (∀ name m n, s.scope.prototypes.lookup name = some m →
        s.scope.functions.lookup name = some n → m = n) ∧
      (∀ name k, s.scope.arity? name = some k → t.scope.arity? name = some k) ∧
      (∀ name, s.scope.isDefined name = true → t.scope.isDefined name = true ∧
        ∀ p : Prototype, p.name = name →
          (∃ e u, declaration p t = .error e u) ∧ ∃ e u, definition p t = .error e u) ∧
      ((∀ step ∈ steps, ∀ p, step.signature? = some p → p.params.Nodup) →
        s.scope.vars.Nodup) := by
  obtain ⟨hfirst, hsecond⟩ := List.forall_mem_append.mp hsteps
  have hbefore : Extends (.start tokens file) s := hs ▸ extends_endState hfirst _
  have hafter : Extends s t := ht ▸ extends_endState hsecond s
  refine ⟨hbefore.agrees Scope.agrees_initial, hafter.arity?, ?_, ?_⟩
  · intro name hname
    have hdefined := hafter.isDefined name hname
    refine ⟨hdefined, ?_⟩
    rintro p rfl
    have hrefused := Scope.checkPrototype_of_isDefined hdefined
    constructor
    · cases h : declaration p t with
      | ok q u => simp [(declaration_eq_ok_iff.mp h).2.2.1] at hrefused
      | error e u => exact ⟨e, u, rfl⟩
    · cases h : definition p t with
      | ok f u => simp [(exists_body_of_definition h).1] at hrefused
      | error e u => exact ⟨e, u, rfl⟩
  · intro hpassed
    have hdistinct : KeepsDistinct (.start tokens file) s := by
      rw [hs]
      refine within_endState (fun step hstep => Step.within_run (hfirst step hstep) ?_) _
      rintro n rfl hn
      exact Nonterminal.keepsDistinct_rule hn (hpassed _ hstep)
    exact hdistinct List.nodup_nil

/-- The tokens of `int f(int a) { return a; }`. -/
def definedOnce : List Token :=
  [(.int, "int"), (.identifier, "f"), (.openParen, "("), (.int, "int"), (.identifier, "a"),
    (.closeParen, ")"), (.openCurly, String.singleton '{'), (.ret, "return"), (.identifier, "a"),
    (.semicolon, ";"), (.closeCurly, String.singleton '}')].map
      fun (kind, value) => ⟨kind, value, .empty .null⟩

/-- Back at the brace of the definition, the same function cannot be defined without parameters. -/
theorem tables_of_session_definedOnce :
    ∃ s t, s = endState [.read .external] (.start definedOnce "once") ∧
      t = endState [.seek 6, .read (.definition ⟨"f", []⟩)] s ∧
      s.scope.arity? "f" = some 1 ∧ s.scope.isDefined "f" = true ∧ t.current.kind = .openCurly ∧
      t.scope.arity? "f" = some 1 ∧ (∃ e u, definition ⟨"f", []⟩ t = .error e u) ∧
      s.scope.vars.Nodup := by
  obtain ⟨-, harity, hdefined, hvars⟩ := @tables_of_session [.read .external]
    [.seek 6, .read (.definition ⟨"f", []⟩)] (by decide) definedOnce "once" _ _ rfl rfl
  refine ⟨_, _, rfl, rfl, rfl, rfl, rfl, harity "f" 1 rfl, ?_, hvars ?_⟩
  · exact ((hdefined "f" rfl).2 ⟨"f", []⟩ rfl).2
  · decide

end Session

end IntC
