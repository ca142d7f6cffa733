/-
# A printed program is read back

Printing puts all prototypes before all functions, so a printed program is read in scopes that the
source it came from never had.  That its declarations are valid there follows from the program being
well formed, which does not mention an order between prototypes and functions.

* `validFrom_hoisted`: the printed order of a well-formed program is a valid one.
* `printable_of_mem_tokens`: names and numbers that were read from a text can be printed.
* `ofSource_text`: reading the printed text gives the same functions, and one more time the
  predeclared prototypes.
-/
import IntC.Proofs.Acceptance
import IntC.Proofs.Printing
import IntC.Proofs.WellFormed

namespace IntC

open Lexer

/-! ## 1. Prototypes first -/

section Hoisting

variable {scope : Scope} {u v : Program}

/-- What the tables hold has one arity, if the signatures agree. -/
theorem Records.arity?_eq (h : Records scope v)
    (hagree : ∀ p ∈ v.signatures, ∀ q ∈ v.signatures, p.name = q.name → p.arity = q.arity)
    {p : Prototype} (hp : p ∈ v.signatures) : scope.arity? p.name = some p.arity := by
  obtain ⟨n, hn⟩ := h.exists_arity? hp
  obtain ⟨q, hq, hname, rfl⟩ := h.exists_signature hn
  rw [hn, hagree q hq p hp hname]

/-- A signature of a well-formed program is allowed after others of it, as long as its function is
not among those that are defined. -/
theorem Records.allowedIn (h : Records scope v) (hu : u.WellFormed)
    (hv : ∀ q ∈ v.signatures, q ∈ u.signatures) {p : Prototype} (hp : p ∈ u.signatures)
    (hundefined : ∀ f ∈ v.functions, f.name ≠ p.name) : p.AllowedIn scope := by
  refine ⟨hu.params p hp, ?_, ?_⟩
  · rw [Scope.isDefined]
    cases hlookup : scope.functions.lookup p.name with
    | none => rfl
    | some n =>
      obtain ⟨f, hf, hname, -⟩ := h.ofDefined p.name n hlookup
      exact absurd hname (hundefined f hf)
  · intro n hlookup
    obtain ⟨q, hq, hname, rfl⟩ := h.ofDeclared p.name n hlookup
    exact hu.agree q (hv q (List.mem_append_left _ hq)) p hp hname

/-- The prototypes of a well-formed program can stand one after the other. -/
theorem validFrom_prototypes (hu : u.WellFormed) :
    ∀ {ps : List Prototype} {scope : Scope} {v : Program}, Records scope v → v.functions = [] →
      (∀ q ∈ v.signatures, q ∈ u.signatures) → (∀ p ∈ ps, p ∈ u.signatures) →
      ValidFrom scope (ps.map .prototype) ∧
        Records ((ps.map .prototype).foldl Scope.after scope) (v.addAll (ps.map .prototype)) := by
  intro ps
  induction ps with
  | nil =>
    intro scope v hrecords _ _ _
    exact ⟨trivial, by simpa [Program.addAll] using hrecords⟩
  | cons p ps ih =>
    intro scope v hrecords hnone hv hps
    obtain ⟨hp, hps'⟩ := List.forall_mem_cons.mp hps
    have hallowed : p.AllowedIn scope := hrecords.allowedIn hu hv hp (by simp [hnone])
    have hv' : ∀ q ∈ (v.add (.prototype p)).signatures, q ∈ u.signatures := by
      intro q hq
      rcases mem_signatures_add.mp hq with hq | rfl
      · exact hv q hq
      · exact hp
    have hadd : Records (scope.after (.prototype p)) (v.add (.prototype p)) :=
      hrecords.add (d := .prototype p) hallowed
    obtain ⟨hvalid, hrecords'⟩ := ih hadd hnone hv' hps'
    refine ⟨⟨hallowed, hvalid⟩, ?_⟩
    rw [List.map_cons, List.foldl_cons, Program.addAll_cons]
    exact hrecords'

/-- The body of a well-formed function is valid wherever what it calls is recorded. -/
theorem Records.validIn_body (h : Records scope v)
    (hagree : ∀ p ∈ v.signatures, ∀ q ∈ v.signatures, p.name = q.name → p.arity = q.arity)
    {f : FunctionDef} {callable : List Prototype} (hf : f.WellFormed callable)
    (hcallable : ∀ p ∈ callable, p ∈ v.signatures) (hshaped : ∀ a ∈ f.body.stmts, a.Shaped) :
    f.body.ValidIn scope f.prototype := by
  have hdecls : f.body.decls = f.prototype.params.map (⟨·, .parameter⟩) ++ f.body.locals := by
    obtain ⟨locals, hdecls, hroles⟩ := hf.decls
    rw [Body.locals_eq hdecls hroles]
    exact hdecls
  refine ⟨hdecls, hf.names, ?_, hf.last⟩
  intro a ha
  refine Stmt.validIn_iff.mpr ⟨hshaped a ha, hf.vars a ha, ?_⟩
  intro g args hcall
  obtain ⟨hg, p, hp, rfl, harity⟩ := hf.calls a ha g args hcall
  refine ⟨hg, ?_⟩
  rw [← harity]
  exact h.arity?_eq hagree (hcallable p hp)

/-- The functions of a well-formed program can stand after its prototypes, in their order. -/
theorem validFrom_functions (hu : u.WellFormed)
    (hshaped : ∀ f ∈ u.functions, ∀ a ∈ f.body.stmts, a.Shaped) :
    ∀ {fs : List FunctionDef} {scope : Scope} {v : Program}, Records scope v →
      u.functions = v.functions ++ fs → (∀ p ∈ u.prototypes, p ∈ v.prototypes) →
      (∀ q ∈ v.signatures, q ∈ u.signatures) → ValidFrom scope (fs.map .function) := by
  intro fs
  induction fs with
  | nil =>
    intro scope v _ _ _ _
    exact trivial
  | cons f fs ih =>
    intro scope v hrecords hsplit hprototypes hv
    have hmem : f ∈ u.functions := by rw [hsplit]; simp
    have hsignature : f.prototype ∈ u.signatures :=
      List.mem_append_right _ (List.mem_map_of_mem hmem)
    have hundefined : ∀ g ∈ v.functions, g.name ≠ f.name := by
      intro g hg
      have hdistinct := hu.distinct
      rw [hsplit, List.map_append, List.nodup_append] at hdistinct
      exact hdistinct.2.2 g.name (List.mem_map_of_mem hg) f.name (by simp)
    have hf : f.WellFormed (u.callable v.functions.length) :=
      hu.functions v.functions.length f (by rw [hsplit]; simp)
    have hcallable : ∀ p ∈ u.callable v.functions.length, p ∈ v.signatures := by
      intro p hp
      rw [Program.callable, hsplit, List.take_left] at hp
      rcases List.mem_append.mp hp with hp | hp
      · exact List.mem_append_left _ (hprototypes p hp)
      · exact List.mem_append_right _ hp
    have hagree : ∀ p ∈ v.signatures, ∀ q ∈ v.signatures, p.name = q.name → p.arity = q.arity :=
      fun p hp q hq => hu.agree p (hv p hp) q (hv q hq)
    have hvalid : (External.function f).ValidIn scope :=
      ⟨hrecords.allowedIn hu hv hsignature hundefined,
        hrecords.validIn_body hagree hf hcallable (hshaped f hmem)⟩
    refine ⟨hvalid, ih (hrecords.add hvalid) ?_ hprototypes ?_⟩
    · show u.functions = v.functions ++ [f] ++ fs
      rw [hsplit, List.append_assoc, List.singleton_append]
    · intro q hq
      rcases mem_signatures_add.mp hq with hq | rfl
      · exact hv q hq
      · exact hsignature

/-- **The printed order is a valid one**: all prototypes of a well-formed program, and then its
functions. -/
theorem validFrom_hoisted (hu : u.WellFormed)
    (hshaped : ∀ f ∈ u.functions, ∀ a ∈ f.body.stmts, a.Shaped)
    (hpredeclared : ∀ p ∈ predeclared, p ∈ u.prototypes) : ValidFrom .initial u.hoisted := by
  have hinitial : ∀ q ∈ Grammar.initialProgram.signatures, q ∈ u.signatures := by
    intro q hq
    refine List.mem_append_left _ (hpredeclared q ?_)
    simpa [Program.signatures, Grammar.initialProgram] using hq
  obtain ⟨hprototypes, hrecords⟩ :=
    validFrom_prototypes hu records_initial rfl hinitial fun p hp => List.mem_append_left _ hp
  have hthen : Grammar.initialProgram.addAll (u.prototypes.map .prototype) =
      ⟨predeclared ++ u.prototypes, []⟩ := by
    simp [Program.addAll, Grammar.initialProgram, External.prototype?, External.function?,
      List.filterMap_map, Function.comp_def]
  rw [hthen] at hrecords
  refine validFrom_append.mpr ⟨hprototypes, validFrom_functions hu hshaped hrecords rfl ?_ ?_⟩
  · intro p hp
    exact List.mem_append_right _ hp
  · intro q hq
    simp only [Program.signatures, List.map_nil, List.append_nil] at hq
    rcases List.mem_append.mp hq with hq | hq
    · exact List.mem_append_left _ (hpredeclared q hq)
    · exact List.mem_append_left _ hq

/-- Valid declarations have statements that can be written down. -/
theorem shaped_of_validFrom : ∀ {ds : List External} {scope : Scope}, ValidFrom scope ds →
    ∀ f, .function f ∈ ds → ∀ a ∈ f.body.stmts, a.Shaped := by
  intro ds
  induction ds with
  | nil =>
    intro scope _ f hf
    cases hf
  | cons d ds ih =>
    intro scope h f hf a ha
    rcases List.mem_cons.mp hf with rfl | hf
    · exact (Stmt.validIn_iff.mp (h.1.2.stmts a ha)).1
    · exact ih h.2 f hf a ha

theorem mem_hoisted_addAll {ds : List External} {d : External}
    (h : d ∈ (Grammar.initialProgram.addAll ds).hoisted) :
    d ∈ ds ∨ ∃ p ∈ predeclared, d = .prototype p := by
  rcases List.mem_append.mp h with hd | hd
  · obtain ⟨p, hp, rfl⟩ := List.mem_map.mp hd
    rcases List.mem_append.mp hp with hp | hp
    · exact .inr ⟨p, hp, rfl⟩
    · obtain ⟨d, hin, hsome⟩ := List.mem_filterMap.mp hp
      cases d with
      | prototype q =>
        obtain rfl : q = p := Option.some.inj hsome
        exact .inl hin
      | function f => cases hsome
  · obtain ⟨f, hf, rfl⟩ := List.mem_map.mp hd
    obtain ⟨d, hin, hsome⟩ := List.mem_filterMap.mp hf
    cases d with
    | prototype q => cases hsome
    | function g =>
      obtain rfl : g = f := Option.some.inj hsome
      exact .inl hin

end Hoisting

/-! ## 2. Names and numbers that were read can be printed -/

theorem printable_of_matches {l : Lexeme} {t : Token} (h : l.Matches t)
    (ht : t.kind = .eof ∧ t.value = "EOF" ∨ IsText t.kind t.value.toList) : l.Printable := by
  cases l with
  | word name =>
    obtain ⟨hkind, rfl⟩ := h
    rcases ht with ⟨heof, -⟩ | ht
    · rw [hkind] at heof
      cases heof
    · rw [hkind] at ht
      exact ht
  | number value => exact ((matches_iff_spells (isSpelled_of_isText ht)).mp h).2 value rfl
  | mark kind => exact trivial

/-- Whatever the tokens of a text say can be printed. -/
theorem printable_of_mem_tokens {source : String} {file : Option String} {tokens : List Token}
    (htokens : Lexer.tokens source file = .ok tokens) {ls : List Lexeme}
    (h : List.Forall₂ Lexeme.Matches ls tokens.dropLast) : ∀ l ∈ ls, l.Printable := by
  obtain ⟨-, hfrom⟩ := tokens_eq_ok_iff.mp htokens
  have htexts : ∀ t ∈ tokens.dropLast,
      t.kind = .eof ∧ t.value = "EOF" ∨ IsText t.kind t.value.toList :=
    fun t ht => isText_of_mem_tokensFrom hfrom t ((List.dropLast_sublist tokens).subset ht)
  generalize tokens.dropLast = ts at h htexts
  induction h with
  | nil => simp
  | @cons l t ls ts hfirst _ ih =>
    obtain ⟨ht, hts⟩ := List.forall_mem_cons.mp htexts
    exact List.forall_mem_cons.mpr ⟨printable_of_matches hfirst ht, ih hts⟩

theorem printable_predeclared :
    ∀ p ∈ predeclared, ∀ l ∈ (External.prototype p).yield, l.Printable := by
  have hname : (Lexeme.word "printnum").Printable :=
    @IsText.word 'p' ['r', 'i', 'n', 't', 'n', 'u', 'm'] rfl (List.all_eq_true.mp rfl)
  have hparam : (Lexeme.word "i").Printable := @IsText.word 'i' [] rfl (List.forall_mem_nil _)
  intro p hp l hl
  obtain rfl := List.mem_singleton.mp hp
  simp only [External.yield, Prototype.yield, Prototype.paramsYield, List.cons_append,
    List.nil_append, List.mem_cons, List.not_mem_nil, or_false] at hl
  rcases hl with rfl | rfl | rfl | rfl | rfl | rfl | rfl
  · exact trivial
  · exact hname
  · exact trivial
  · exact trivial
  · exact hparam
  · exact trivial
  · exact trivial

/-! ## 3. Reading what is printed -/

/-- Tokens with the printed kinds and texts say the lexemes. -/
theorem forall₂_matches_of_print {ls : List Lexeme} (hls : ∀ l ∈ ls, l.Printable) {ts : List Token}
    (h : ts.map (fun t => (t.kind, t.value)) = ls.map Lexeme.print) :
    List.Forall₂ Lexeme.Matches ls ts := by
  induction ls generalizing ts with
  | nil =>
    obtain rfl : ts = [] := by simpa using h
    exact .nil
  | cons l ls ih =>
    obtain ⟨hl, hls'⟩ := List.forall_mem_cons.mp hls
    cases ts with
    | nil => cases h
    | cons t ts =>
      obtain ⟨hfirst, hrest⟩ := List.cons.inj h
      exact .cons (Lexeme.matches_of_print_eq hl hfirst.symm) (ih hls' hrest)

/-- A program with the predeclared prototypes that is well formed and can be printed is read back
from its text, with the predeclared prototypes once more in front. -/
theorem ofSource_text_of_printable {u : Program} (hu : u.WellFormed)
    (hshaped : ∀ f ∈ u.functions, ∀ a ∈ f.body.stmts, a.Shaped)
    (hpredeclared : ∀ p ∈ predeclared, p ∈ u.prototypes)
    (hprintable : ∀ l ∈ u.hoisted.flatMap External.yield, l.Printable)
    (hsize : u.text.utf8ByteSize ≤ maxSourceSize) (file : String) :
    Program.ofSource u.text file = .ok ⟨predeclared ++ u.prototypes, u.functions⟩ := by
  have hwritten : Written u.text.toList ((u.hoisted.flatMap External.yield).map Lexeme.print) := by
    have h := prints_program hshaped hprintable [] [] trivial .nil
    rwa [List.append_nil, List.append_nil] at h
  obtain ⟨body, last, htokens, hlast, hbody⟩ := hwritten.hasTokens file 0
  have hread : Lexer.tokens u.text (some file) = .ok (body ++ [last]) :=
    tokens_eq_ok_iff.mpr ⟨hsize, htokens⟩
  have hmatches : List.Forall₂ Lexeme.Matches (u.hoisted.flatMap External.yield)
      (body ++ [last]).dropLast := by
    rw [List.dropLast_concat]
    exact forall₂_matches_of_print hprintable hbody
  have hprogram : Grammar.initialProgram.addAll u.hoisted =
      ⟨predeclared ++ u.prototypes, u.functions⟩ := by
    simp [Program.addAll, Program.hoisted, Grammar.initialProgram, External.prototype?,
      External.function?, List.filterMap_map, Function.comp_def]
  refine ofSource_eq_ok_iff.mpr ⟨_, hread, ?_⟩
  exact (ofTokens_eq_ok_iff_matches (lexical_tokens hread)).mpr
    ⟨u.hoisted, hmatches, validFrom_hoisted hu hshaped hpredeclared, hprogram.symm⟩

/-- **A printed program is read back.**  The text of a program that was read from a source is read
as a program with the same functions and with the predeclared prototypes once more in front, so that
printing that one again gives the same text after one more line for each of them. -/
theorem ofSource_text {source file : String} {u : Program}
    (h : Program.ofSource source file = .ok u) (hsize : u.text.utf8ByteSize ≤ maxSourceSize)
    (file' : String) :
    ∃ u', Program.ofSource u.text file' = .ok u' ∧ u'.functions = u.functions ∧
      u'.prototypes = predeclared ++ u.prototypes ∧
      u'.text = String.join (predeclared.map fun p => p.text ++ ";\n") ++ u.text := by
  obtain ⟨tokens, htokens, hprogram⟩ := ofSource_eq_ok_iff.mp h
  obtain ⟨ds, hmatches, hvalid, rfl⟩ :=
    (ofTokens_eq_ok_iff_matches (lexical_tokens htokens)).mp hprogram
  have hu : (Grammar.initialProgram.addAll ds).WellFormed :=
    wellFormed_addAll wellFormed_initialProgram records_initial hvalid
  have hshaped : ∀ f ∈ (Grammar.initialProgram.addAll ds).functions,
      ∀ a ∈ f.body.stmts, a.Shaped := by
    intro f hf
    have hmem : .function f ∈ (Grammar.initialProgram.addAll ds).hoisted :=
      List.mem_append_right _ (List.mem_map_of_mem hf)
    rcases mem_hoisted_addAll hmem with hmem | ⟨p, -, hp⟩
    · exact shaped_of_validFrom hvalid f hmem
    · cases hp
  have hprintable : ∀ l ∈ (Grammar.initialProgram.addAll ds).hoisted.flatMap External.yield,
      l.Printable := by
    intro l hl
    obtain ⟨d, hd, hl⟩ := List.mem_flatMap.mp hl
    rcases mem_hoisted_addAll hd with hd | ⟨p, hp, rfl⟩
    · exact printable_of_mem_tokens htokens hmatches l (List.mem_flatMap.mpr ⟨d, hd, hl⟩)
    · exact printable_predeclared p hp l hl
  refine ⟨_, ofSource_text_of_printable hu hshaped (fun p hp => List.mem_append_left _ hp)
    hprintable hsize file', rfl, rfl, ?_⟩
  simp [Program.text, String.append_assoc]

/-- A source that defines a predeclared function, and declares another after its first body. -/
def lateDeclaration : String :=
  "int printnum(int n){;return n - 007;}int late();" ++
    "int f(int printnum){int y;y = late() * 2;return y + printnum;}"

/-- The program of `lateDeclaration`. -/
def lateDeclarationProgram : Program where
  prototypes := predeclared ++ [⟨"late", []⟩]
  functions := [
    ⟨⟨"printnum", ["n"]⟩, ⟨[⟨"n", .parameter⟩],
      [.expr .empty, .ret (.binary .subtract (.var "n") (.num 7))]⟩⟩,
    ⟨⟨"f", ["printnum"]⟩, ⟨[⟨"printnum", .parameter⟩, ⟨"y", .inBody⟩],
      [.expr (.binary .assign (.var "y") (.binary .multiply (.call "late" []) (.num 2))),
        .ret (.binary .add (.var "y") (.var "printnum"))]⟩⟩]

theorem ofSource_text_lateDeclaration :
    Program.ofSource lateDeclaration "late" = .ok lateDeclarationProgram ∧
      ∃ u', Program.ofSource lateDeclarationProgram.text "printed" = .ok u' ∧
        u'.functions = lateDeclarationProgram.functions ∧
        u'.prototypes = predeclared ++ lateDeclarationProgram.prototypes ∧
        u'.text = String.join (predeclared.map fun p => p.text ++ ";\n") ++
          lateDeclarationProgram.text := by
  have h : Program.ofSource lateDeclaration "late" = .ok lateDeclarationProgram := by
    decide +kernel
  have hsize : lateDeclarationProgram.text.utf8ByteSize ≤ maxSourceSize := by decide +kernel
  exact ⟨h, ofSource_text h hsize "printed"⟩

end IntC
