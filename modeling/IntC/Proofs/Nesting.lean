/-
# The nesting limit counts argument lists inside one another

How many argument lists are open when a rule starts is of no matter for what it reads, except that
fewer can still be opened.  So a rule that starts inside `d` argument lists reads what it reads
outside of any, as long as that has at most `maxNesting - d` argument lists inside one another
(`Expr.callHeight`), and else it fails.

This does not follow from the limit being checked at every list.  Where the value of an assignment
is nested too deeply, the rule for assignments gives the value up and reads the variable alone,
which is another tree, and stops in front of the `=`.  In every other rule an assignment has to be
followed by a semicolon, a comma or a parenthesis, so there the variable alone is no way out
(`assignment_semicolon_eq_ok_iff`, `call_eq_ok_iff`).

* `CountsNesting`: the rule depends on the depth in this way alone.
* `countsNesting_rule`: the rules for calls, operands, products, sums and both kinds of statements.
* `rule_atDepth_iff`: such a rule at a depth, against the rule at depth 0.
-/
import IntC.Proofs.Programs

namespace IntC

variable {α β : Type}

/-- The state inside of `d` argument lists. -/
def State.atDepth (s : State) (d : Nat) : State := { s with depth := d }

namespace Rule

/-- What the rule reads, and where it then stands, is settled without the number of open argument
lists (`Good`), but for those that have to be opened. -/
def CountsNesting (r : Rule α) (height : α → Nat) : Prop :=
  ∃ Good : Scope → Cursor → α → Cursor → Prop, ∀ ⦃s : State⦄ ⦃a : α⦄ ⦃t : State⦄,
    r s = .ok a t ↔ (Good s.scope s.cursor a t.cursor ∧ t = { s with cursor := t.cursor }) ∧
      height a ≤ maxNesting - s.depth

namespace CountsNesting

variable {r r' : Rule α} {height : α → Nat}

theorem backtrack (h : CountsNesting r height) : CountsNesting (Rule.backtrack r) height := by
  obtain ⟨Good, hr⟩ := h
  exact ⟨Good, fun s a t => backtrack_eq_ok_iff.trans (@hr s a t)⟩

theorem expect_bind (kind : Token.Kind) (h : CountsNesting r height) :
    CountsNesting (expect kind >>= fun _ => r) height := by
  obtain ⟨Good, hr⟩ := h
  refine ⟨fun scope c a c' => c.current.kind = kind ∧ Good scope c.advance a c', ?_⟩
  intro s a t
  rw [expect_bind_eq_ok_iff, hr]
  constructor
  · rintro ⟨hkind, ⟨hgood, ht⟩, hheight⟩
    exact ⟨⟨⟨hkind, hgood⟩, ht⟩, hheight⟩
  · rintro ⟨⟨⟨hkind, hgood⟩, ht⟩, hheight⟩
    exact ⟨hkind, ⟨hgood, ht⟩, hheight⟩

/-- The kind of the current token has nothing to do with the depth. -/
theorem currentKind_ite (kind : Token.Kind) (h : CountsNesting r height)
    (h' : CountsNesting r' height) :
    CountsNesting (do if (← currentKind) = kind then r else r') height := by
  obtain ⟨Good, hr⟩ := h
  obtain ⟨Good', hr'⟩ := h'
  refine ⟨fun scope c a c' =>
    if c.current.kind = kind then Good scope c a c' else Good' scope c a c', ?_⟩
  intro s a t
  rw [currentKind, look_bind_eq_ok_iff]
  by_cases hkind : s.current.kind = kind
  · have hcursor : s.cursor.current.kind = kind := hkind
    rw [if_pos hkind, hr]
    simp only [hcursor, if_true]
  · have hcursor : s.cursor.current.kind ≠ kind := hkind
    rw [if_neg hkind, hr']
    simp only [hcursor, if_false]

/-- One token without an argument list. -/
theorem advance_pure {a : α} (ha : height a = 0) :
    CountsNesting (advance >>= fun _ => pure a) height := by
  refine ⟨fun _ c b c' => b = a ∧ c' = c.advance, ?_⟩
  intro s b t
  rw [advance_bind_eq_ok_iff, pure_eq_ok_iff]
  constructor
  · rintro ⟨rfl, rfl⟩
    exact ⟨⟨⟨rfl, rfl⟩, rfl⟩, by omega⟩
  · rintro ⟨⟨⟨rfl, hc⟩, ht⟩, -⟩
    refine ⟨rfl, ?_⟩
    rw [ht, hc]
    rfl

theorem map (h : CountsNesting r height) {g : α → β} {height' : β → Nat}
    (hg : ∀ a, height' (g a) = height a) : CountsNesting (g <$> r) height' := by
  obtain ⟨Good, hr⟩ := h
  refine ⟨fun scope c b c' => ∃ a, b = g a ∧ Good scope c a c', ?_⟩
  intro s b t
  have hmap : (g <$> r) s = .ok b t ↔ ∃ a, b = g a ∧ r s = .ok a t := by
    show EStateM.map g r s = .ok b t ↔ _
    unfold EStateM.map
    cases r s with
    | ok a u =>
      constructor
      · rintro ⟨⟩
        exact ⟨a, rfl, rfl⟩
      · rintro ⟨_, rfl, ⟨⟩⟩
        rfl
    | error e u => simp
  rw [hmap]
  constructor
  · rintro ⟨a, rfl, ha⟩
    obtain ⟨⟨hgood, ht⟩, hheight⟩ := hr.mp ha
    exact ⟨⟨⟨a, rfl, hgood⟩, ht⟩, by rw [hg]; exact hheight⟩
  · rintro ⟨⟨⟨a, rfl, hgood⟩, ht⟩, hheight⟩
    rw [hg] at hheight
    exact ⟨a, rfl, hr.mpr ⟨⟨hgood, ht⟩, hheight⟩⟩

/-- **From depth 0 to any depth.**  What can be read inside of `d` argument lists is what can be
read outside of any and opens at most `maxNesting - d` inside one another. -/
theorem atDepth_iff (h : CountsNesting r height) {s : State} {d : Nat} {a : α} {c : Cursor} :
    (∃ t, r (s.atDepth d) = .ok a t ∧ t.cursor = c) ↔
      (∃ t, r (s.atDepth 0) = .ok a t ∧ t.cursor = c) ∧ height a ≤ maxNesting - d := by
  obtain ⟨Good, hr⟩ := h
  have hat (k : Nat) : (∃ t, r (s.atDepth k) = .ok a t ∧ t.cursor = c) ↔
      Good s.scope s.cursor a c ∧ height a ≤ maxNesting - k := by
    constructor
    · rintro ⟨t, ht, rfl⟩
      obtain ⟨⟨hgood, -⟩, hheight⟩ := hr.mp ht
      exact ⟨hgood, hheight⟩
    · rintro ⟨hgood, hheight⟩
      exact ⟨{ s.atDepth k with cursor := c }, hr.mpr ⟨⟨hgood, rfl⟩, hheight⟩, rfl⟩
  rw [hat d, hat 0]
  constructor
  · rintro ⟨hgood, hheight⟩
    exact ⟨⟨hgood, by omega⟩, hheight⟩
  · rintro ⟨⟨hgood, -⟩, hheight⟩
    exact ⟨hgood, hheight⟩

end CountsNesting

end Rule

namespace Grammar

open Rule

/-! ## 1. Expressions -/

/-- A rule that reads exactly the admissible expressions counts their argument lists. -/
theorem countsNesting_of_exact {r : Rule Expr} (least : Nat) (Stop : Cursor → Prop)
    (h : ∀ {s : State} {e : Expr} {t : State}, r s = .ok e t ↔
      s.Reads e.yield t ∧ e.Admissible s.scope (maxNesting - s.depth) least ∧ Stop t.cursor) :
    CountsNesting r Expr.callHeight := by
  refine ⟨fun scope c e c' => c.Reads e.yield c' ∧
    (e.shaped least = true ∧ e.KnownIn scope) ∧ Stop c', ?_⟩
  intro s e t
  rw [h]
  constructor
  · rintro ⟨⟨hreads, ht⟩, ⟨hshape, hknown, hheight⟩, hstop⟩
    exact ⟨⟨⟨hreads, ⟨hshape, hknown⟩, hstop⟩, ht⟩, hheight⟩
  · rintro ⟨⟨⟨hreads, ⟨hshape, hknown⟩, hstop⟩, ht⟩, hheight⟩
    exact ⟨⟨hreads, ht⟩, ⟨hshape, hknown, hheight⟩, hstop⟩

theorem countsNesting_operand : CountsNesting operand Expr.callHeight :=
  countsNesting_of_exact 3 (fun _ => True) fun {_ _ _} => by rw [operand_eq_ok_iff, and_true]

theorem countsNesting_multiplicative : CountsNesting multiplicative Expr.callHeight :=
  countsNesting_of_exact 2 (fun c => Operator.multiplicative? c.current.kind = none)
    multiplicative_eq_ok_iff

theorem countsNesting_additive : CountsNesting additive Expr.callHeight :=
  countsNesting_of_exact 1 (fun c => Operator.multiplicative? c.current.kind = none ∧
    Operator.additive? c.current.kind = none) additive_eq_ok_iff

/-- A call, with its own argument list among those that have to be opened. -/
theorem call_eq_ok_iff {s t : State} {e : Expr} :
    call s = .ok e t ↔ ∃ f args, e = .call f args ∧ s.Reads e.yield t ∧
      s.scope.arity? f = some args.length ∧
        (∀ a ∈ args, a.shaped 0 = true ∧ a.KnownIn s.scope) ∧
        e.callHeight ≤ maxNesting - s.depth := by
  cases hl : maxNesting - s.depth with
  | zero =>
    have hnone : call s ≠ .ok e t := callWith_ne_ok hl
    refine iff_of_false hnone ?_
    rintro ⟨f, args, rfl, -, -, -, hheight⟩
    exact absurd hheight (Nat.not_succ_le_zero _)
  | succ levels =>
    have hcall : call s = .ok e t ↔ ∃ f args, e = .call f args ∧ s.Reads e.yield t ∧
        s.scope.arity? f = some args.length ∧ ∀ a ∈ args, a.Admissible s.scope levels 0 := by
      have hargument : ExactArgument (argument (maxNesting - s.depth)) levels := argument_exact hl
      exact callWith_eq_ok_iff (within_argument _) hargument hl
    rw [hcall]
    constructor
    · rintro ⟨f, args, rfl, hreads, harity, hadm⟩
      refine ⟨f, args, rfl, hreads, harity, fun a ha => ⟨(hadm a ha).shape, (hadm a ha).known⟩, ?_⟩
      exact Nat.succ_le_succ (Expr.argsCallHeight_le_iff.mpr fun a ha => (hadm a ha).height)
    · rintro ⟨f, args, rfl, hreads, harity, hargs, hheight⟩
      have hheights := Expr.argsCallHeight_le_iff.mp (Nat.le_of_succ_le_succ hheight)
      exact ⟨f, args, rfl, hreads, harity, fun a ha =>
        ⟨(hargs a ha).1, (hargs a ha).2, hheights a ha⟩⟩

theorem countsNesting_call : CountsNesting call Expr.callHeight := by
  refine ⟨fun scope c e c' => ∃ f args, e = .call f args ∧ c.Reads e.yield c' ∧
    scope.arity? f = some args.length ∧ ∀ a ∈ args, a.shaped 0 = true ∧ a.KnownIn scope, ?_⟩
  intro s e t
  rw [call_eq_ok_iff]
  constructor
  · rintro ⟨f, args, rfl, ⟨hreads, ht⟩, harity, hargs, hheight⟩
    exact ⟨⟨⟨f, args, rfl, hreads, harity, hargs⟩, ht⟩, hheight⟩
  · rintro ⟨⟨⟨f, args, rfl, hreads, harity, hargs⟩, ht⟩, hheight⟩
    exact ⟨f, args, rfl, ⟨hreads, ht⟩, harity, hargs, hheight⟩

/-! ## 2. Statements -/

/-- An expression with its semicolon.  The semicolon is what keeps an assignment from being given up
for its variable. -/
theorem countsNesting_assignment_semicolon {α : Type} {f : Expr → α} {height : α → Nat}
    (hf : ∀ value, height (f value) = value.callHeight) :
    CountsNesting (do
      let value ← assignment
      let _ ← expect .semicolon
      return f value : Rule α) height := by
  refine ⟨fun scope c a c' => ∃ value, a = f value ∧
    c.Reads (value.yield ++ [.mark .semicolon]) c' ∧
      value.shaped 0 = true ∧ value.KnownIn scope, ?_⟩
  intro s a t
  rw [assignment_semicolon_eq_ok_iff]
  constructor
  · rintro ⟨value, rfl, ⟨hreads, ht⟩, hshape, hknown, hheight⟩
    exact ⟨⟨⟨value, rfl, hreads, hshape, hknown⟩, ht⟩, by rw [hf]; exact hheight⟩
  · rintro ⟨⟨⟨value, rfl, hreads, hshape, hknown⟩, ht⟩, hheight⟩
    rw [hf] at hheight
    exact ⟨value, rfl, ⟨hreads, ht⟩, hshape, hknown, hheight⟩

theorem countsNesting_expressionStmt :
    CountsNesting expressionStmt fun a => a.value.callHeight :=
  .backtrack (.currentKind_ite .semicolon (.advance_pure rfl)
    (countsNesting_assignment_semicolon fun _ => rfl))

theorem countsNesting_returnStmt : CountsNesting returnStmt fun a => a.value.callHeight :=
  .backtrack (.expect_bind .ret (countsNesting_assignment_semicolon fun _ => rfl))

end Grammar

namespace Session

open Rule

/-! ## 3. The rules by name -/

/-- The largest number of argument lists inside one another, in an expression or a statement. -/
def Node.callHeight : Node → Nat
  | .expr e => e.callHeight
  | .stmt a => a.value.callHeight
  | .program _ | .external _ | .prototype _ | .function _ | .body _ | .varDecl _ => 0

/-- The rules for statements, and those for expressions that read an assignment only as an
argument. -/
def Nonterminal.nesting : List Nonterminal :=
  [.call, .operand, .multiplicative, .additive, .expressionStmt, .returnStmt]

theorem Nonterminal.countsNesting_rule {n : Nonterminal} (hn : n ∈ Nonterminal.nesting) :
    CountsNesting n.rule Node.callHeight := by
  simp only [Nonterminal.nesting, List.mem_cons, List.not_mem_nil, or_false] at hn
  rcases hn with rfl | rfl | rfl | rfl | rfl | rfl
  · exact Grammar.countsNesting_call.map fun _ => rfl
  · exact Grammar.countsNesting_operand.map fun _ => rfl
  · exact Grammar.countsNesting_multiplicative.map fun _ => rfl
  · exact Grammar.countsNesting_additive.map fun _ => rfl
  · exact Grammar.countsNesting_expressionStmt.map fun _ => rfl
  · exact Grammar.countsNesting_returnStmt.map fun _ => rfl

/-- **The nesting limit counts argument lists inside one another, and nothing else.**  Inside of `d`
argument lists each of these rules succeeds with a tree and a cursor exactly if it does so outside
of any and the tree has at most `maxNesting - d` argument lists inside one another. -/
theorem rule_atDepth_iff {n : Nonterminal} (hn : n ∈ Nonterminal.nesting) (s : State) (d : Nat)
    (node : Node) (c : Cursor) :
    (∃ t, n.rule (s.atDepth d) = .ok node t ∧ t.cursor = c) ↔
      (∃ t, n.rule (s.atDepth 0) = .ok node t ∧ t.cursor = c) ∧
        node.callHeight ≤ maxNesting - d :=
  (Nonterminal.countsNesting_rule hn).atDepth_iff

/-- A state at `printnum(printnum(1))`. -/
def twiceNested : State :=
  .ofTexts [(.identifier, "printnum"), (.openParen, "("), (.identifier, "printnum"),
    (.openParen, "("), (.number, "1"), (.closeParen, ")"), (.closeParen, ")")]

/-- With two argument lists left to open, the operand at `twiceNested` is read up to the end of its
tokens, and with one left it is not. -/
theorem rule_atDepth_iff_twiceNested :
    Nonterminal.operand ∈ Nonterminal.nesting ∧
      (∃ t, Nonterminal.operand.rule (twiceNested.atDepth 126) =
        .ok (.expr (.call "printnum" [.call "printnum" [.num 1]])) t ∧
          t.cursor = twiceNested.cursor.seek 7) ∧
      ¬ ∃ t, Nonterminal.operand.rule (twiceNested.atDepth 127) =
        .ok (.expr (.call "printnum" [.call "printnum" [.num 1]])) t ∧
          t.cursor = twiceNested.cursor.seek 7 := by
  have hn : Nonterminal.operand ∈ Nonterminal.nesting := by decide
  have hread : ∃ t, Nonterminal.operand.rule (twiceNested.atDepth 0) =
      .ok (.expr (.call "printnum" [.call "printnum" [.num 1]])) t ∧
        t.cursor = twiceNested.cursor.seek 7 := ⟨_, rfl, rfl⟩
  refine ⟨hn, (rule_atDepth_iff hn _ 126 _ _).mpr ⟨hread, by decide⟩, fun h => ?_⟩
  have hheight := ((rule_atDepth_iff hn _ 127 _ _).mp h).2
  exact absurd hheight (by decide)

end Session

end IntC
