/-
# Which token lists are programs

A token list that a text can have is read as a program exactly if its tokens, without the last, are
those of declarations that are valid one after the other.

* `Lexeme.Spells`: the token has the lexeme's kind and text; a number counts by its decimal value.
* `Lexical`: the token list is one that a text can have.
* `forall₂_matches_iff`: for such a list, what the rules look at in a token is how it is spelled.
* `ofTokens_eq_ok_iff_spelled`: the acceptance theorem.
-/
import Mathlib.Data.List.Forall2
import IntC.Proofs.Decimal
import IntC.Proofs.Programs
import IntC.Proofs.Written

namespace IntC

/-! ## 1. How tokens are spelled -/

/-- The token is the lexeme, as a reader of the text sees it: the same kind and the same text, where
a number may have zeros in front. -/
def Lexeme.Spells : Lexeme → Token → Prop
  | word name, t => t.kind = .identifier ∧ t.value = name
  | number value, t => t.kind = .number ∧ (Nat.ofDigitChars 10 t.value.toList 0 : Int) = value
  | mark kind, t => t.kind = kind ∧ ∀ text ∈ kind.text?, t.value = text

/-- The token has a text that its kind allows; of a name nothing is asked. -/
structure Token.IsSpelled (t : Token) : Prop where
  number : t.kind = .number → t.value ≠ "" ∧ ∀ c ∈ t.value.toList, c.isDigit = true
  fixed : ∀ text ∈ t.kind.text?, t.value = text

-- The digits go through `List.all`: a quantifier over characters may be decided by trying them all.
instance (t : Token) : Decidable t.IsSpelled :=
  decidable_of_iff ((t.kind = .number → t.value ≠ "" ∧ t.value.toList.all Char.isDigit = true) ∧
    ∀ text ∈ t.kind.text?, t.value = text) <| by
      rw [List.all_eq_true]
      exact ⟨fun h => ⟨h.1, h.2⟩, fun h => ⟨h.number, h.fixed⟩⟩

/-- The token list is one that a text can have: its last token is its only end token, and every
token has a text that its kind allows. -/
structure Lexical (tokens : List Token) : Prop where
  last : tokens.getLast?.map Token.kind = some .eof
  body : ∀ t ∈ tokens.dropLast, t.kind ≠ .eof
  spelled : ∀ t ∈ tokens, t.IsSpelled

instance (tokens : List Token) : Decidable (Lexical tokens) :=
  decidable_of_iff (tokens.getLast?.map Token.kind = some .eof ∧
    (∀ t ∈ tokens.dropLast, t.kind ≠ .eof) ∧ ∀ t ∈ tokens, t.IsSpelled)
    ⟨fun h => ⟨h.1, h.2.1, h.2.2⟩, fun h => ⟨h.last, h.body, h.spelled⟩⟩

/-- The tokens of a text have texts that their kinds allow. -/
theorem isSpelled_of_isText {t : Token}
    (h : t.kind = .eof ∧ t.value = "EOF" ∨ Lexer.IsText t.kind t.value.toList) : t.IsSpelled := by
  rcases h with ⟨hkind, hvalue⟩ | h
  · constructor
    · intro hnumber
      rw [hkind] at hnumber
      cases hnumber
    · intro text hfixed
      rw [hkind] at hfixed
      rw [hvalue]
      exact Option.some.inj hfixed
  · have hadmits := Lexer.isText_iff_admits.mp h
    constructor
    · intro hkind
      rw [hkind] at hadmits
      exact hadmits
    · intro text hfixed
      exact hadmits.eq_of_text? hfixed

/-- What is read from a text is lexical. -/
theorem lexical_tokens {source : String} {file : Option String} {tokens : List Token}
    (h : Lexer.tokens source file = .ok tokens) : Lexical tokens := by
  obtain ⟨-, hfrom⟩ := Lexer.tokens_eq_ok_iff.mp h
  have hspelled : ∀ t ∈ tokens, t.IsSpelled :=
    fun t ht => isSpelled_of_isText (Lexer.isText_of_mem_tokensFrom hfrom t ht)
  obtain ⟨body, last, rfl, hlast, hbody⟩ := Lexer.tokensFrom_kind hfrom
  refine ⟨?_, ?_, hspelled⟩
  · rw [List.getLast?_concat, Option.map_some, hlast]
  · rw [List.dropLast_concat]
    exact hbody

/-- A token that says a lexeme spells it, and its number is in the range. -/
theorem matches_iff_spells {l : Lexeme} {t : Token} (ht : t.IsSpelled) :
    l.Matches t ↔ l.Spells t ∧ ∀ v, l = .number v → 0 ≤ v ∧ v ≤ Literal.greatest := by
  cases l with
  | word name => simp [Lexeme.Matches, Lexeme.Spells]
  | mark kind =>
    constructor
    · intro h
      have hkind : t.kind = kind := h
      refine ⟨⟨hkind, fun text htext => ht.fixed text ?_⟩, by simp⟩
      rw [hkind]
      exact htext
    · intro h
      exact h.1.1
  | number value =>
    have hread (hkind : t.kind = .number) {v : Int} := by
      obtain ⟨hne, hdigits⟩ := ht.number hkind
      exact @Literal.read_eq_ok_iff_of_digits t.value hne hdigits v
    constructor
    · intro h
      obtain ⟨hkind, hvalue⟩ := h
      obtain ⟨rfl, hle⟩ := (hread hkind).mp hvalue
      refine ⟨⟨hkind, rfl⟩, ?_⟩
      intro v hv
      obtain rfl := Lexeme.number.inj hv
      exact ⟨Int.natCast_nonneg _, hle⟩
    · intro h
      obtain ⟨⟨hkind, hvalue⟩, hrange⟩ := h
      exact ⟨hkind, (hread hkind).mpr ⟨hvalue.symm, (hrange value rfl).2⟩⟩

/-- **What the rules look at in a token is how it is spelled**, as far as the numbers are in the
range. -/
theorem forall₂_matches_iff {ls : List Lexeme} {ts : List Token} (hts : ∀ t ∈ ts, t.IsSpelled) :
    List.Forall₂ Lexeme.Matches ls ts ↔ List.Forall₂ Lexeme.Spells ls ts ∧
      ∀ v, .number v ∈ ls → 0 ≤ v ∧ v ≤ Literal.greatest := by
  induction ts generalizing ls with
  | nil =>
    rw [List.forall₂_nil_right_iff, List.forall₂_nil_right_iff]
    constructor
    · rintro rfl
      simp
    · intro h
      exact h.1
  | cons t ts ih =>
    obtain ⟨ht, hts'⟩ := List.forall_mem_cons.mp hts
    cases ls with
    | nil => simp
    | cons l ls =>
      rw [List.forall₂_cons, List.forall₂_cons, matches_iff_spells ht, ih hts']
      constructor
      · intro h
        obtain ⟨⟨hl, hfirst⟩, hls, hmore⟩ := h
        refine ⟨⟨hl, hls⟩, fun v hv => ?_⟩
        rcases List.mem_cons.mp hv with hv | hv
        · exact hfirst v hv.symm
        · exact hmore v hv
      · intro h
        obtain ⟨⟨hl, hls⟩, hrange⟩ := h
        refine ⟨⟨hl, fun v hv => hrange v ?_⟩, hls, fun v hv => hrange v ?_⟩
        · rw [hv]
          exact List.mem_cons_self
        · exact List.mem_cons_of_mem _ hv

/-! ## 2. Reading up to the end token -/

namespace Cursor

/-- The tokens from the cursor on, without the last of the list. -/
def rest (c : Cursor) : List Token := c.body.toList.drop c.pos

theorem rest_of_kind_ne {c : Cursor} (h : c.current.kind ≠ .eof) :
    c.rest = c.current :: c.advance.rest := by
  have hlt : c.pos < c.body.size := lt_of_current_kind_ne h
  have hcurrent : c.current = c.body.toList[c.pos] := by
    simp [current, peek, Array.getD, hlt]
  rw [rest, rest, body_advance, pos_advance, if_neg h, hcurrent]
  exact List.drop_eq_getElem_cons (by simpa using hlt)

theorem rest_eq_nil_iff {c : Cursor} (hbody : ∀ t ∈ c.body.toList, t.kind ≠ .eof) :
    c.rest = [] ↔ c.current.kind = .eof := by
  constructor
  · intro h
    by_cases hne : c.current.kind = .eof
    · exact hne
    · rw [rest_of_kind_ne hne] at h
      cases h
  · intro h
    cases hrest : c.rest with
    | nil => rfl
    | cons t ts =>
      have hlt : c.pos < c.body.size := by
        rcases Nat.lt_or_ge c.pos c.body.size with hlt | hge
        · exact hlt
        · rw [rest, List.drop_eq_nil_of_le (by simpa using hge)] at hrest
          cases hrest
      have hmem : c.current ∈ c.body.toList := by
        simp [current, peek, Array.getD, hlt]
      exact absurd h (hbody _ hmem)

/-- Up to the only end token, the lexemes at a cursor match the tokens that are left. -/
theorem reads_eof_iff {ls : List Lexeme} {c : Cursor}
    (hbody : ∀ t ∈ c.body.toList, t.kind ≠ .eof) :
    (∃ d, c.Reads ls d ∧ d.current.kind = .eof) ↔ List.Forall₂ Lexeme.Matches ls c.rest := by
  induction ls generalizing c with
  | nil =>
    rw [List.forall₂_nil_left_iff, rest_eq_nil_iff hbody]
    constructor
    · intro h
      obtain ⟨d, rfl, hd⟩ := h
      exact hd
    · intro h
      exact ⟨c, rfl, h⟩
  | cons l ls ih =>
    have hbody' : ∀ t ∈ c.advance.body.toList, t.kind ≠ .eof := by simpa using hbody
    by_cases heof : c.current.kind = .eof
    · -- no lexeme is an end token, and none is left to match
      rw [(rest_eq_nil_iff hbody).mpr heof]
      constructor
      · intro h
        obtain ⟨d, ⟨hl, hne, -⟩, -⟩ := h
        exact absurd (hl.kind_eq.symm.trans heof) hne
      · intro h
        cases h
    · rw [rest_of_kind_ne heof, List.forall₂_cons, ← ih hbody']
      constructor
      · intro h
        obtain ⟨d, ⟨hl, -, hls⟩, hd⟩ := h
        exact ⟨hl, d, hls, hd⟩
      · intro h
        obtain ⟨hl, d, hls, hd⟩ := h
        exact ⟨d, ⟨hl, hl.kind_eq ▸ heof, hls⟩, hd⟩

/-- The cursor at the start of a closed list has all its tokens but the last ahead. -/
theorem rest_ofList {tokens : List Token} {final : Token} (hlast : tokens.getLast? = some final)
    (hfinal : final.kind = .eof) :
    (ofList tokens).body.toList = tokens.dropLast ∧ (ofList tokens).rest = tokens.dropLast := by
  have hcursor : ofList tokens =
      { body := tokens.dropLast.toArray, final := final, pos := 0, final_kind := hfinal } := by
    unfold ofList
    split
    · next h => rw [hlast] at h; cases h
    · next last h =>
      obtain rfl : final = last := Option.some.inj (hlast.symm.trans h)
      rw [dif_pos hfinal]
  rw [hcursor]
  exact ⟨rfl, rfl⟩

end Cursor

/-! ## 3. Acceptance -/

theorem Prototype.number_not_mem_yield (v : Int) (p : Prototype) : .number v ∉ p.yield := by
  have hparams : ∀ params : List String, .number v ∉ paramsYield params := by
    intro params
    induction params with
    | nil => simp [paramsYield]
    | cons param more ih =>
      cases more with
      | nil => simp [paramsYield]
      | cons param' more => simpa [paramsYield] using ih
  simpa [yield] using hparams p.params

/-- The numbers among the lexemes of a declaration are those in its expressions. -/
theorem External.number_mem_yield_iff {v : Int} {d : External} :
    .number v ∈ d.yield ↔ ∃ e ∈ d.exprs, .num v ∈ e.nodes := by
  have hstmt (a : Stmt) : .number v ∈ a.yield ↔ .num v ∈ a.value.nodes := by
    cases a <;> simp [Stmt.yield, Stmt.value, Expr.number_mem_yield_iff]
  cases d with
  | prototype p => simp [External.yield, External.exprs, Prototype.number_not_mem_yield]
  | function f =>
    simp [External.yield, External.exprs, Prototype.number_not_mem_yield, Body.yield,
      VarDecl.yield, hstmt]

/-- Every number in the expressions of a declaration can be written as a literal. -/
def External.LiteralsFit (d : External) : Prop :=
  ∀ e ∈ d.exprs, ∀ v, .num v ∈ e.nodes → 0 ≤ v ∧ v ≤ Literal.greatest

theorem literalsFit_iff {ds : List External} :
    (∀ v, .number v ∈ ds.flatMap External.yield → 0 ≤ v ∧ v ≤ Literal.greatest) ↔
      ∀ d ∈ ds, d.LiteralsFit := by
  constructor
  · intro h d hd e he v hv
    exact h v (List.mem_flatMap.mpr ⟨d, hd, External.number_mem_yield_iff.mpr ⟨e, he, hv⟩⟩)
  · intro h v hv
    obtain ⟨d, hd, hv⟩ := List.mem_flatMap.mp hv
    obtain ⟨e, he, hv⟩ := External.number_mem_yield_iff.mp hv
    exact h d hd e he v hv

/-- A token list whose last token is its only end token is a program if its tokens, without the last,
say the lexemes of valid declarations. -/
theorem ofTokens_eq_ok_iff_of_closed {tokens : List Token}
    (hend : tokens.getLast?.map Token.kind = some .eof)
    (hmiddle : ∀ t ∈ tokens.dropLast, t.kind ≠ .eof) {file : String} {u : Program} :
    Program.ofTokens tokens file = .ok u ↔
      ∃ ds, List.Forall₂ Lexeme.Matches (ds.flatMap External.yield) tokens.dropLast ∧
        ValidFrom .initial ds ∧ u = Grammar.initialProgram.addAll ds := by
  obtain ⟨final, hlast, hfinal⟩ := Option.map_eq_some_iff.mp hend
  obtain ⟨hbody, hrest⟩ := Cursor.rest_ofList hlast hfinal
  have hreads (ls : List Lexeme) :
      (∃ c, (Cursor.ofList tokens).Reads ls c ∧ c.current.kind = .eof) ↔
        List.Forall₂ Lexeme.Matches ls tokens.dropLast := by
    rw [Cursor.reads_eof_iff (hbody ▸ hmiddle), hrest]
  rw [Grammar.ofTokens_eq_ok_iff]
  constructor
  · intro hds
    obtain ⟨ds, c, hds, hc, hvalid, hu⟩ := hds
    exact ⟨ds, (hreads _).mp ⟨c, hds, hc⟩, hvalid, hu⟩
  · intro hds
    obtain ⟨ds, hmatches, hvalid, hu⟩ := hds
    obtain ⟨c, hds, hc⟩ := (hreads _).mpr hmatches
    exact ⟨ds, c, hds, hc, hvalid, hu⟩

/-- The same for a token list that a text can have. -/
theorem ofTokens_eq_ok_iff_matches {tokens : List Token} (h : Lexical tokens) {file : String}
    {u : Program} :
    Program.ofTokens tokens file = .ok u ↔
      ∃ ds, List.Forall₂ Lexeme.Matches (ds.flatMap External.yield) tokens.dropLast ∧
        ValidFrom .initial ds ∧ u = Grammar.initialProgram.addAll ds :=
  ofTokens_eq_ok_iff_of_closed h.last h.body

/-- **Exact acceptance.**  A token list that a text can have is read as the program `u` exactly if
there are declarations whose lexemes are its tokens without the last, which are valid one after the
other from the scope with only the predeclared functions on, and which make up `u` after these
functions. -/
theorem ofTokens_eq_ok_iff_spelled {tokens : List Token} (h : Lexical tokens) {file : String}
    {u : Program} :
    Program.ofTokens tokens file = .ok u ↔
      ∃ ds, List.Forall₂ Lexeme.Spells (ds.flatMap External.yield) tokens.dropLast ∧
        (∀ d ∈ ds, d.LiteralsFit) ∧ ValidFrom .initial ds ∧
        u = Grammar.initialProgram.addAll ds := by
  have hspelled : ∀ t ∈ tokens.dropLast, t.IsSpelled :=
    fun t ht => h.spelled t ((List.dropLast_sublist tokens).subset ht)
  rw [ofTokens_eq_ok_iff_matches h]
  constructor
  · intro hds
    obtain ⟨ds, hmatches, hvalid, hu⟩ := hds
    obtain ⟨hspells, hrange⟩ := (forall₂_matches_iff hspelled).mp hmatches
    exact ⟨ds, hspells, literalsFit_iff.mp hrange, hvalid, hu⟩
  · intro hds
    obtain ⟨ds, hspells, hfit, hvalid, hu⟩ := hds
    exact ⟨ds, (forall₂_matches_iff hspelled).mpr ⟨hspells, literalsFit_iff.mpr hfit⟩, hvalid, hu⟩

/-- The tokens of a function that returns `007 * x`. -/
def leadingZeros : List Token :=
  [(.int, "int"), (.identifier, "f"), (.openParen, "("), (.int, "int"), (.identifier, "x"),
    (.closeParen, ")"), (.openCurly, String.singleton '{'), (.ret, "return"), (.number, "007"),
    (.star, "*"), (.identifier, "x"), (.semicolon, ";"), (.closeCurly, String.singleton '}'),
    (.eof, "EOF")].map fun (kind, value) => ⟨kind, value, .empty .null⟩

/-- The function that `leadingZeros` defines. -/
def leadingZerosFunction : FunctionDef :=
  ⟨⟨"f", ["x"]⟩, ⟨[⟨"x", .parameter⟩], [.ret (.binary .multiply (.num 7) (.var "x"))]⟩⟩

theorem ofTokens_eq_ok_iff_spelled_leadingZeros :
    Lexical leadingZeros ∧
      Program.ofTokens leadingZeros "zeros" = .ok ⟨predeclared, [leadingZerosFunction]⟩ ∧
      ∃ ds, List.Forall₂ Lexeme.Spells (ds.flatMap External.yield) leadingZeros.dropLast ∧
        (∀ d ∈ ds, d.LiteralsFit) ∧ ValidFrom .initial ds ∧
        ⟨predeclared, [leadingZerosFunction]⟩ = Grammar.initialProgram.addAll ds := by
  have hlexical : Lexical leadingZeros := by decide +kernel
  have hread : Program.ofTokens leadingZeros "zeros" =
      .ok ⟨predeclared, [leadingZerosFunction]⟩ := by decide +kernel
  exact ⟨hlexical, hread, (ofTokens_eq_ok_iff_spelled hlexical).mp hread⟩

end IntC
