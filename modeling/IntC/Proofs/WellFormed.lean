/-
# Every program that is read is well formed

The tables of a scope see one name at a time, while what is wanted of a program concerns all of it
at once: signatures agree, functions are defined once, and whatever is called has been declared or
defined before.  The link between the two is `Records`: the tables hold exactly the signatures of
the program so far.

* `Program.WellFormed`: what is wanted of a program, with `FunctionDef.WellFormed` for one function.
* `Records.add`, `wellFormed_add`: one more declaration keeps both, if it is valid in the scope.
* `wellFormed_addAll`: so do valid declarations one after the other.
* `ofSource_wellFormed`: every program that is read from a source is well formed.
-/
import Mathlib.Control.Monad.Basic
import IntC.Proofs.Programs

namespace IntC

/-! ## 1. Well-formed programs -/

/-- The signature that a declaration or definition starts with. -/
def External.signature : External → Prototype
  | .prototype p => p
  | .function f => f.prototype

namespace Program

/-- All signatures, of declarations and of definitions. -/
def signatures (u : Program) : List Prototype :=
  u.prototypes ++ u.functions.map FunctionDef.prototype

/-- The signatures that the function at place `k` can refer to: all that are declared, and those of
the functions before it. -/
def callable (u : Program) (k : Nat) : List Prototype :=
  u.prototypes ++ (u.functions.take k).map FunctionDef.prototype

end Program

/-- The function is well formed where the functions with the signatures `callable` are known. -/
structure FunctionDef.WellFormed (callable : List Prototype) (f : FunctionDef) : Prop where
  /-- The variables are the parameters, in their order, and then those of the body itself. -/
  decls : ∃ locals, f.body.decls = f.prototype.params.map (⟨·, .parameter⟩) ++ locals ∧
    ∀ decl ∈ locals, decl.role = .inBody
  /-- All variables have different names. -/
  names : (f.body.decls.map VarDecl.name).Nodup
  /-- Every variable that is read or assigned is one of them. -/
  vars : ∀ a ∈ f.body.stmts, ∀ x, .var x ∈ a.value.nodes → x ∈ f.body.decls.map VarDecl.name
  /-- Every call names a known function that no variable hides, and passes as many arguments as that
  function has parameters. -/
  calls : ∀ a ∈ f.body.stmts, ∀ g args, .call g args ∈ a.value.nodes →
    g ∉ f.body.decls.map VarDecl.name ∧ ∃ p ∈ callable, p.name = g ∧ p.arity = args.length
  /-- The last statement is a return. -/
  last : ∃ value, f.body.stmts.getLast? = some (.ret value)
  /-- Nothing at all is only ever a whole expression statement. -/
  empty : ∀ a ∈ f.body.stmts, .empty ∈ a.value.nodes → a = .expr .empty
  /-- Only a variable is assigned to. -/
  assigns : ∀ a ∈ f.body.stmts, ∀ left right, .binary .assign left right ∈ a.value.nodes →
    ∃ x, left = .var x

/-- The signatures of a program agree, no function is defined twice, parameters are different, and
every function is well formed with what is declared and defined before it. -/
structure Program.WellFormed (u : Program) : Prop where
  agree : ∀ p ∈ u.signatures, ∀ q ∈ u.signatures, p.name = q.name → p.arity = q.arity
  distinct : (u.functions.map FunctionDef.name).Nodup
  params : ∀ p ∈ u.signatures, p.params.Nodup
  functions : ∀ k (f : FunctionDef), u.functions[k]? = some f → f.WellFormed (u.callable k)

/-- More functions to refer to do no harm. -/
theorem FunctionDef.WellFormed.mono {callable callable' : List Prototype} {f : FunctionDef}
    (h : f.WellFormed callable) (hsub : ∀ p ∈ callable, p ∈ callable') :
    f.WellFormed callable' := by
  refine { h with calls := ?_ }
  intro a ha g args hcall
  obtain ⟨hg, p, hp, hname, harity⟩ := h.calls a ha g args hcall
  exact ⟨hg, p, hsub p hp, hname, harity⟩

/-! ## 2. The tables hold the signatures so far -/

/-- The tables of the scope hold exactly the signatures of the program. -/
structure Records (scope : Scope) (u : Program) : Prop where
  declared : ∀ p ∈ u.prototypes, scope.prototypes.lookup p.name = some p.arity
  defined : ∀ f ∈ u.functions, scope.functions.lookup f.name = some f.prototype.arity
  ofDeclared : ∀ name n, scope.prototypes.lookup name = some n →
    ∃ p ∈ u.prototypes, p.name = name ∧ p.arity = n
  ofDefined : ∀ name n, scope.functions.lookup name = some n →
    ∃ f ∈ u.functions, f.name = name ∧ f.prototype.arity = n

theorem records_initial : Records .initial Grammar.initialProgram := by
  have htables : Scope.initial.prototypes = [("printnum", 1)] ∧ Scope.initial.functions = [] := by
    decide
  have hprogram : Grammar.initialProgram = ⟨[⟨"printnum", ["i"]⟩], []⟩ := rfl
  refine ⟨?_, ?_, ?_, ?_⟩
  · rw [htables.1, hprogram]
    decide
  · rw [hprogram]
    simp
  · intro name n h
    rw [htables.1, List.lookup_cons] at h
    rw [hprogram]
    split at h
    · next hname =>
      exact ⟨_, List.mem_singleton_self _, (beq_iff_eq.mp hname).symm, Option.some.inj h⟩
    · cases h
  · intro name n h
    rw [htables.2] at h
    cases h

variable {scope : Scope} {u : Program}

/-- The variables in scope are no matter for the functions. -/
theorem Records.withVars (h : Records scope u) (vars : List String) :
    Records { scope with vars } u :=
  ⟨h.declared, h.defined, h.ofDeclared, h.ofDefined⟩

/-- A defined function has no further declaration. -/
theorem Records.name_ne (h : Records scope u) {p : Prototype} (hp : p.AllowedIn scope)
    {f : FunctionDef} (hf : f ∈ u.functions) : f.name ≠ p.name := by
  intro hname
  have hundefined := hp.undefined
  rw [Scope.isDefined, ← hname, h.defined f hf] at hundefined
  cases hundefined

/-- A signature that is allowed agrees with all that are there. -/
theorem Records.arity_eq (h : Records scope u) {p : Prototype} (hp : p.AllowedIn scope)
    {q : Prototype} (hq : q ∈ u.signatures) (hname : q.name = p.name) : q.arity = p.arity := by
  rcases List.mem_append.mp hq with hq | hq
  · exact hp.agrees q.arity (hname ▸ h.declared q hq)
  · obtain ⟨f, hf, rfl⟩ := List.mem_map.mp hq
    exact absurd hname (h.name_ne hp hf)

/-- What has an arity in the scope has a signature in the program. -/
theorem Records.exists_signature (h : Records scope u) {g : String} {n : Nat}
    (harity : scope.arity? g = some n) : ∃ p ∈ u.signatures, p.name = g ∧ p.arity = n := by
  rw [Scope.arity?] at harity
  cases hp : scope.prototypes.lookup g with
  | some m =>
    rw [hp] at harity
    obtain rfl : m = n := Option.some.inj harity
    obtain ⟨p, hmem, hname, harity⟩ := h.ofDeclared g m hp
    exact ⟨p, List.mem_append_left _ hmem, hname, harity⟩
  | none =>
    rw [hp] at harity
    obtain ⟨f, hmem, hname, harity⟩ := h.ofDefined g n harity
    exact ⟨f.prototype, List.mem_append_right _ (List.mem_map_of_mem hmem), hname, harity⟩

/-- What has a signature in the program has an arity in the scope. -/
theorem Records.exists_arity? (h : Records scope u) {p : Prototype} (hp : p ∈ u.signatures) :
    ∃ n, scope.arity? p.name = some n := by
  rcases List.mem_append.mp hp with hp | hp
  · exact ⟨p.arity, by rw [Scope.arity?, h.declared p hp]; rfl⟩
  · obtain ⟨f, hf, rfl⟩ := List.mem_map.mp hp
    cases hlookup : scope.prototypes.lookup f.prototype.name with
    | some n => exact ⟨n, by rw [Scope.arity?, hlookup]; rfl⟩
    | none =>
      refine ⟨f.prototype.arity, ?_⟩
      rw [Scope.arity?, hlookup]
      exact h.defined f hf

theorem External.ValidIn.allowed {d : External} (h : d.ValidIn scope) :
    d.signature.AllowedIn scope := by
  cases d with
  | prototype p => exact h
  | function f => exact h.1

/-- **One more declaration**: the tables still hold exactly the signatures. -/
theorem Records.add (h : Records scope u) {d : External} (hd : d.ValidIn scope) :
    Records (scope.after d) (u.add d) := by
  have hallowed := hd.allowed
  cases d with
  | prototype p =>
    refine ⟨?_, h.defined, ?_, h.ofDefined⟩
    · intro q hq
      rw [Scope.after, Scope.lookup_declare]
      rcases List.mem_append.mp hq with hq | hq
      · by_cases hname : q.name = p.name
        · rw [if_pos hname, h.arity_eq hallowed (List.mem_append_left _ hq) hname]
          rfl
        · rw [if_neg hname]
          exact h.declared q hq
      · obtain rfl := List.mem_singleton.mp hq
        rw [if_pos rfl]
    · intro name n hlookup
      rw [Scope.after, Scope.lookup_declare] at hlookup
      by_cases hname : name = p.name
      · rw [if_pos hname] at hlookup
        exact ⟨p, by simp [Program.add, Program.addPrototype], hname.symm, Option.some.inj hlookup⟩
      · rw [if_neg hname] at hlookup
        obtain ⟨q, hq, hqname, hqarity⟩ := h.ofDeclared name n hlookup
        exact ⟨q, List.mem_append_left _ hq, hqname, hqarity⟩
  | function f =>
    refine ⟨h.declared, ?_, h.ofDeclared, ?_⟩
    · intro g hg
      rw [Scope.after, Scope.lookup_define]
      rcases List.mem_append.mp hg with hg | hg
      · have hne : g.name ≠ f.prototype.name := h.name_ne hallowed hg
        rw [if_neg hne]
        exact h.defined g hg
      · obtain rfl := List.mem_singleton.mp hg
        rw [FunctionDef.name, if_pos rfl]
    · intro name n hlookup
      rw [Scope.after, Scope.lookup_define] at hlookup
      by_cases hname : name = f.prototype.name
      · rw [if_pos hname] at hlookup
        exact ⟨f, by simp [Program.add, Program.addFunction], hname.symm, Option.some.inj hlookup⟩
      · rw [if_neg hname] at hlookup
        obtain ⟨g, hg, hgname, hgarity⟩ := h.ofDefined name n hlookup
        exact ⟨g, List.mem_append_left _ hg, hgname, hgarity⟩

/-- The variables that a definition leaves in scope are no matter for this. -/
theorem Records.behind (h : Records scope u) {d : External} (hd : d.ValidIn scope) :
    Records (scope.behind d) (u.add d) := by
  cases d with
  | prototype p => exact h.add hd
  | function f => exact (h.add hd).withVars _

/-! ## 3. One more declaration keeps a program well formed -/

theorem Stmt.Shaped.eq_of_empty_mem {a : Stmt} (h : a.Shaped) (hmem : .empty ∈ a.value.nodes) :
    a = .expr .empty := by
  have hnot {e : Expr} (he : e.shaped 0 = true) : .empty ∉ e.nodes := by
    intro hin
    have hshaped := Expr.shaped_of_mem_nodes he hin
    cases hshaped
  cases a with
  | ret value => exact absurd hmem (hnot h.1)
  | expr value =>
    rcases h with rfl | h
    · rfl
    · exact absurd hmem (hnot h.1)

theorem Stmt.Shaped.exists_var_of_assign_mem {a : Stmt} (h : a.Shaped) {left right : Expr}
    (hmem : .binary .assign left right ∈ a.value.nodes) : ∃ x, left = .var x := by
  have hvar {e : Expr} (he : e.shaped 0 = true) (hin : .binary .assign left right ∈ e.nodes) :
      ∃ x, left = .var x :=
    ((Expr.shaped_assign _ _ _).mp (Expr.shaped_of_mem_nodes he hin)).2.1
  cases a with
  | ret value => exact hvar h.1 hmem
  | expr value =>
    rcases h with rfl | h
    · simp [Stmt.value, Expr.nodes] at hmem
    · exact hvar h.1 hmem

/-- A function whose body is valid in the scope is well formed with all signatures so far. -/
theorem Records.wellFormed (h : Records scope u) {f : FunctionDef}
    (hbody : f.body.ValidIn scope f.prototype) : f.WellFormed u.signatures := by
  have hvalid : ∀ a ∈ f.body.stmts, a.Shaped ∧
      a.value.KnownIn { scope with vars := f.body.decls.map VarDecl.name } :=
    fun a ha => Stmt.validIn_iff.mp (hbody.stmts a ha)
  refine ⟨⟨f.body.locals, hbody.decls, ?_⟩, hbody.nodup, ?_, ?_, hbody.last, ?_, ?_⟩
  · intro decl hdecl
    simpa using (List.mem_filter.mp hdecl).2
  · intro a ha x hx
    exact (hvalid a ha).2.vars x hx
  · intro a ha g args hcall
    obtain ⟨hg, harity⟩ := (hvalid a ha).2.calls g args hcall
    exact ⟨hg, h.exists_signature harity⟩
  · intro a ha hempty
    exact (hvalid a ha).1.eq_of_empty_mem hempty
  · intro a ha left right hassign
    exact (hvalid a ha).1.exists_var_of_assign_mem hassign

theorem mem_signatures_add {d : External} {p : Prototype} :
    p ∈ (u.add d).signatures ↔ p ∈ u.signatures ∨ p = d.signature := by
  cases d with
  | prototype q =>
    simp only [Program.add, Program.addPrototype, Program.signatures, External.signature,
      List.mem_append, List.mem_singleton]
    grind
  | function f =>
    simp only [Program.add, Program.addFunction, Program.signatures, External.signature,
      List.map_append, List.map_cons, List.map_nil, List.mem_append, List.mem_singleton]
    grind

/-- A function at the end is not one that those before it can refer to. -/
theorem Program.callable_addFunction {f : FunctionDef} {k : Nat} (hk : k ≤ u.functions.length) :
    (u.addFunction f).callable k = u.callable k := by
  rw [Program.callable, Program.callable, Program.addFunction, List.take_append_of_le_length hk]

theorem Program.callable_length : u.callable u.functions.length = u.signatures := by
  rw [Program.callable, Program.signatures, List.take_length]

/-- **One more declaration keeps a program well formed**, if it is valid where the program ends. -/
theorem wellFormed_add (hu : u.WellFormed) (h : Records scope u) {d : External}
    (hd : d.ValidIn scope) : (u.add d).WellFormed := by
  have hallowed := hd.allowed
  have hagree : ∀ p ∈ (u.add d).signatures, ∀ q ∈ (u.add d).signatures,
      p.name = q.name → p.arity = q.arity := by
    intro p hp q hq hname
    rcases mem_signatures_add.mp hp with hp | rfl
    · rcases mem_signatures_add.mp hq with hq | rfl
      · exact hu.agree p hp q hq hname
      · exact h.arity_eq hallowed hp hname
    · rcases mem_signatures_add.mp hq with hq | rfl
      · exact (h.arity_eq hallowed hq hname.symm).symm
      · rfl
  have hparams : ∀ p ∈ (u.add d).signatures, p.params.Nodup := by
    intro p hp
    rcases mem_signatures_add.mp hp with hp | rfl
    · exact hu.params p hp
    · exact hallowed.nodup
  cases d with
  | prototype p =>
    refine ⟨hagree, hu.distinct, hparams, ?_⟩
    intro k f hf
    refine (hu.functions k f hf).mono ?_
    intro q hq
    rcases List.mem_append.mp hq with hq | hq
    · exact List.mem_append_left _ (List.mem_append_left _ hq)
    · exact List.mem_append_right _ hq
  | function f =>
    refine ⟨hagree, ?_, hparams, ?_⟩
    · show ((u.functions ++ [f]).map FunctionDef.name).Nodup
      rw [List.map_append, List.nodup_append]
      refine ⟨hu.distinct, by simp, ?_⟩
      intro x hx y hy
      obtain ⟨g, hg, rfl⟩ := List.mem_map.mp hx
      obtain rfl := List.mem_singleton.mp hy
      exact h.name_ne hallowed hg
    · intro k g hg
      have hg' : (u.functions ++ [f])[k]? = some g := hg
      rcases Nat.lt_or_ge k u.functions.length with hlt | hge
      · rw [List.getElem?_append_left hlt] at hg'
        rw [Program.add, Program.callable_addFunction (Nat.le_of_lt hlt)]
        exact hu.functions k g hg'
      · have hlen : k < (u.functions ++ [f]).length := (List.getElem?_eq_some_iff.mp hg').1
        rw [List.length_append, List.length_singleton] at hlen
        obtain rfl : k = u.functions.length := by omega
        obtain rfl : f = g := by simpa using hg'
        rw [Program.add, Program.callable_addFunction (Nat.le_refl _), Program.callable_length]
        exact h.wellFormed hd.2

/-! ## 4. Every program that is read is well formed -/

theorem wellFormed_initialProgram : Grammar.initialProgram.WellFormed := by
  have hsignatures : Grammar.initialProgram.signatures = [⟨"printnum", ["i"]⟩] := rfl
  refine ⟨?_, List.nodup_nil, ?_, ?_⟩
  · rw [hsignatures]
    decide
  · rw [hsignatures]
    decide
  · intro k f hf
    simp [Grammar.initialProgram] at hf

theorem Program.addAll_cons {d : External} {ds : List External} :
    u.addAll (d :: ds) = (u.add d).addAll ds := by
  rw [Program.addAll_eq_foldl, Program.addAll_eq_foldl, List.foldl_cons]

/-- Valid declarations one after the other keep a program well formed. -/
theorem wellFormed_addAll : ∀ {ds : List External} {scope : Scope} {u : Program}, u.WellFormed →
    Records scope u → ValidFrom scope ds → (u.addAll ds).WellFormed := by
  intro ds
  induction ds with
  | nil =>
    intro scope u hu _ _
    simpa [Program.addAll] using hu
  | cons d ds ih =>
    intro scope u hu hrecords hvalid
    obtain ⟨hd, hds⟩ := hvalid
    rw [Program.addAll_cons]
    exact ih (wellFormed_add hu hrecords hd) (hrecords.add hd) hds

theorem ofSource_eq_ok_iff {source file : String} :
    Program.ofSource source file = .ok u ↔
      ∃ tokens, Lexer.tokens source (some file) = .ok tokens ∧
        Program.ofTokens tokens file = .ok u := by
  show (Lexer.tokens source (some file) >>= fun tokens => Program.ofTokens tokens file) = .ok u ↔ _
  cases Lexer.tokens source (some file) with
  | error e =>
    constructor
    · intro h
      cases h
    · intro h
      obtain ⟨tokens, h, -⟩ := h
      cases h
  | ok tokens =>
    constructor
    · intro h
      exact ⟨tokens, rfl, h⟩
    · intro h
      obtain ⟨tokens', heq, h⟩ := h
      cases heq
      exact h

/-- **Every program that is read from a source is well formed.** -/
theorem ofSource_wellFormed {source file : String} (h : Program.ofSource source file = .ok u) :
    u.WellFormed := by
  obtain ⟨tokens, -, h⟩ := ofSource_eq_ok_iff.mp h
  obtain ⟨ds, c, -, -, hvalid, rfl⟩ := Grammar.ofTokens_eq_ok_iff.mp h
  exact wellFormed_addAll wellFormed_initialProgram records_initial hvalid

/-- A source with a function that is declared, called, and then hidden by a parameter. -/
def hiddenName : String :=
  "int g(int a);int f(int x){;x = g(2);return x;}int h(int g){int y;return f(g);}"

/-- The program of `hiddenName`. -/
def hiddenNameProgram : Program where
  prototypes := predeclared ++ [⟨"g", ["a"]⟩]
  functions := [
    ⟨⟨"f", ["x"]⟩, ⟨[⟨"x", .parameter⟩],
      [.expr .empty, .expr (.binary .assign (.var "x") (.call "g" [.num 2])),
        .ret (.var "x")]⟩⟩,
    ⟨⟨"h", ["g"]⟩, ⟨[⟨"g", .parameter⟩, ⟨"y", .inBody⟩], [.ret (.call "f" [.var "g"])]⟩⟩]

theorem ofSource_wellFormed_hiddenName :
    Program.ofSource hiddenName "hidden" = .ok hiddenNameProgram ∧
      hiddenNameProgram.WellFormed := by
  have h : Program.ofSource hiddenName "hidden" = .ok hiddenNameProgram := by decide +kernel
  exact ⟨h, ofSource_wellFormed h⟩

end IntC
