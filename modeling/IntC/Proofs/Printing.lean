/-
# What is printed is written with the lexemes of the tree

The text of a tree is read back token by token if it is written with the lexemes of the tree
(`Written`).  Texts are put together from pieces, and a piece only knows its own lexemes, not what
follows it.  So `Prints May text ls` says it for whatever may follow: a word can be followed by
anything that does not continue it, a mark or a blank by anything at all.

* `Prints.append`: two pieces, the second of which may follow the first.
* `prints_expr`: an expression that needs no parentheses is printed without any.
* `prints_program`: a program is printed as its prototypes and then its functions (`hoisted`).
-/
import IntC.Proofs.Language
import IntC.Proofs.Decimal
import IntC.Proofs.Written

namespace IntC

open Lexer

/-! ## 1. Printed lexemes -/

namespace Lexeme

/-- The kind and the text that a lexeme is printed with. -/
def print : Lexeme → Token.Kind × String
  | word name => (.identifier, name)
  | number value => (.number, toString value)
  | mark kind => (kind, kind.text?.getD "")

/-- The lexeme can be printed: names are words and no keywords, and numbers are literals. -/
def Printable : Lexeme → Prop
  | word name => IsText .identifier name.toList
  | number value => 0 ≤ value ∧ value ≤ Literal.greatest
  | mark _ => True

/-- A token that has the printed kind and text says the lexeme. -/
theorem matches_of_print_eq {l : Lexeme} (hl : l.Printable) {t : Token}
    (h : l.print = (t.kind, t.value)) : l.Matches t := by
  obtain ⟨hkind, hvalue⟩ := Prod.mk.inj h
  cases l with
  | word name => exact ⟨hkind.symm, hvalue.symm⟩
  | mark kind => exact hkind.symm
  | number value =>
    obtain ⟨n, rfl⟩ := Int.eq_ofNat_of_zero_le hl.1
    refine ⟨hkind.symm, ?_⟩
    rw [← hvalue]
    exact Literal.read_toString hl.2

end Lexeme

/-! ## 2. Pieces of text -/

/-- The text does not go on with a character that a word or a number could go on with. -/
def EndsWord (rest : List Char) : Prop := ∀ c ∈ rest.head?, isWordChar c = false

/-- In front of any text that may follow it, the piece stands for these lexemes. -/
def Prints (May : List Char → Prop) (text : String) (ls : List Lexeme) : Prop :=
  ∀ rest ts, May rest → Written rest ts → Written (text.toList ++ rest) (ls.map Lexeme.print ++ ts)

/-- Nothing is asked of what follows. -/
def Anything (_ : List Char) : Prop := True

section Pieces

variable {P Q : List Char → Prop} {a b : String} {la lb : List Lexeme}

theorem Prints.append (ha : Prints P a la) (hb : Prints Q b lb)
    (h : ∀ rest, Q rest → P (b.toList ++ rest)) : Prints Q (a ++ b) (la ++ lb) := by
  intro rest ts hrest hwritten
  rw [String.toList_append, List.map_append, List.append_assoc, List.append_assoc]
  exact ha _ _ (h rest hrest) (hb rest ts hrest hwritten)

/-- After a mark or a blank, anything can follow. -/
theorem Prints.append_of_anything (ha : Prints Anything a la) (hb : Prints Q b lb) :
    Prints Q (a ++ b) (la ++ lb) := ha.append hb fun _ _ => trivial

theorem Prints.nil (P : List Char → Prop) : Prints P "" [] := fun _ _ _ h => h

theorem Prints.blank {c : Char} (hc : Text.isBlank c = true) (hb : Prints P b lb) :
    Prints P (String.singleton c ++ b) lb := by
  intro rest ts hrest hwritten
  rw [String.toList_append, String.toList_singleton, List.append_assoc]
  exact .blank hc (hb rest ts hrest hwritten)

/-- A piece that is one token. -/
theorem prints_token {l : Lexeme} {kind : Token.Kind} {text : String} (hl : l.print = (kind, text))
    (htext : IsText kind text.toList) (hstops : ∀ rest, P rest → Stops kind rest) :
    Prints P text [l] := by
  intro rest ts hrest hwritten
  rw [List.map_singleton, hl]
  exact .token htext (hstops rest hrest) hwritten

theorem prints_word {name : String} (h : (Lexeme.word name).Printable) :
    Prints EndsWord name [.word name] :=
  prints_token rfl h fun _ hrest => hrest

theorem EndsWord.stops_number {rest : List Char} (h : EndsWord rest) : Stops .number rest := by
  intro c hc
  have hword : isWordChar c = false := h c hc
  simp only [isWordChar, Char.isAlphanum, Bool.or_eq_false_iff] at hword
  exact hword.1.2

theorem prints_number {v : Int} (h : (Lexeme.number v).Printable) :
    Prints EndsWord (toString v) [.number v] := by
  obtain ⟨n, rfl⟩ := Int.eq_ofNat_of_zero_le h.1
  refine prints_token rfl ?_ fun _ hrest => hrest.stops_number
  have hdigits : (toString (n : Int)).toList = Nat.toDigits 10 n := by
    show (toString n).toList = _
    rw [Nat.toString_eq_ofList_toDigits, String.toList_ofList]
  obtain ⟨c, cs, hcs⟩ := List.exists_cons_of_ne_nil (Nat.toDigits_ne_nil (n := n) (b := 10))
  have hall : ∀ d ∈ Nat.toDigits 10 n, d.isDigit = true :=
    fun d hd => Nat.isDigit_of_mem_toDigits (by decide) (by decide) hd
  rw [hcs] at hall
  rw [hdigits, hcs]
  exact .number (hall c (by simp)) fun d hd => hall d (by simp [hd])

/-- A mark is printed as its character. -/
theorem prints_mark_of_stops {c : Char} {kind : Token.Kind} (h : Token.Kind.ofMark? c = some kind)
    (hstops : ∀ rest, P rest → Stops kind rest) : Prints P (String.singleton c) [.mark kind] := by
  have hprint : (Lexeme.mark kind).print = (kind, String.singleton c) := by
    rw [Lexeme.print, Token.Kind.text?_of_ofMark? h]
    rfl
  refine prints_token hprint ?_ hstops
  rw [String.toList_singleton]
  exact .mark h

/-- After a mark other than a slash, anything can follow. -/
theorem prints_mark {c : Char} {kind : Token.Kind} (h : Token.Kind.ofMark? c = some kind)
    (hslash : c ≠ '/') : Prints Anything (String.singleton c) [.mark kind] :=
  prints_mark_of_stops h fun _ _ d _ => continues_of_ofMark? h hslash d

theorem Prints.of_anything (h : Prints Anything a la) : Prints P a la :=
  fun rest ts _ => h rest ts trivial

theorem endsWord_cons {c : Char} {rest : List Char} (h : isWordChar c = false) :
    EndsWord (c :: rest) := by
  intro d hd
  obtain rfl : c = d := Option.some.inj hd
  exact h

end Pieces

theorem prints_space : Prints Anything " " [] := .blank (c := ' ') rfl (.nil _)

theorem prints_newline : Prints Anything "\n" [] := .blank (c := '\n') rfl (.nil _)

theorem prints_openParen : Prints Anything "(" [.mark .openParen] :=
  prints_mark (c := '(') rfl (by decide)

theorem prints_closeParen : Prints Anything ")" [.mark .closeParen] :=
  prints_mark (c := ')') rfl (by decide)

theorem prints_semicolon : Prints Anything ";" [.mark .semicolon] :=
  prints_mark (c := ';') rfl (by decide)

theorem prints_comma : Prints Anything ", " [.mark .comma] :=
  (prints_mark (c := ',') rfl (by decide)).append_of_anything prints_space

/-- A keyword with the blank behind it. -/
theorem prints_int : Prints Anything "int " [.mark .int] := by
  have hword : Prints EndsWord "int" [.mark .int] :=
    prints_token rfl (@IsText.word 'i' ['n', 't'] rfl (List.all_eq_true.mp rfl)) fun _ h => h
  exact hword.append prints_space fun _ _ => endsWord_cons rfl

theorem prints_return : Prints Anything "return " [.mark .ret] := by
  have hword : Prints EndsWord "return" [.mark .ret] :=
    prints_token rfl (@IsText.word 'r' ['e', 't', 'u', 'r', 'n'] rfl (List.all_eq_true.mp rfl))
      fun _ h => h
  exact hword.append prints_space fun _ _ => endsWord_cons rfl

/-- An operator with a blank on both sides.  The second one keeps a slash from starting a
comment. -/
theorem prints_operator (op : Operator) :
    Prints Anything (" " ++ (op.text ++ " ")) [.mark op.kind] := by
  have hmark {c : Char} {kind : Token.Kind} (h : Token.Kind.ofMark? c = some kind) :
      Prints Anything (String.singleton c ++ " ") [.mark kind] := by
    have htoken : Prints (fun rest => rest.head? = some ' ') (String.singleton c) [.mark kind] := by
      refine prints_mark_of_stops h ?_
      intro rest hrest d hd
      obtain rfl : ' ' = d := Option.some.inj (hrest.symm.trans hd)
      by_cases hslash : c = '/'
      · subst hslash
        obtain rfl : Token.Kind.slash = kind := Option.some.inj h
        rfl
      · exact continues_of_ofMark? h hslash ' '
    exact htoken.append prints_space fun _ _ => rfl
  have hop : Prints Anything (op.text ++ " ") [.mark op.kind] := by
    cases op with
    | assign => exact hmark (c := '=') rfl
    | add => exact hmark (c := '+') rfl
    | subtract => exact hmark (c := '-') rfl
    | multiply => exact hmark (c := '*') rfl
    | divide => exact hmark (c := '/') rfl
  exact prints_space.append_of_anything hop

/-! ## 3. Trees -/

/-- The operands of a shaped expression are printed without parentheses. -/
theorem Expr.text_binary_of_shaped {op : Operator} {left right : Expr} {least : Nat}
    (h : (Expr.binary op left right).shaped least = true) :
    (Expr.binary op left right).text = left.text ++ (" " ++ (op.text ++ " ")) ++ right.text := by
  have hplain : ¬ left.strength < op.strength ∧ ¬ right.strength ≤ op.strength := by
    by_cases hop : op = .assign
    · subst hop
      obtain ⟨-, -, hright⟩ := (shaped_assign _ _ _).mp h
      have hle : 1 ≤ right.strength := le_strength_of_shaped (by decide) hright
      exact ⟨Nat.not_lt_zero _, Nat.not_le.mpr hle⟩
    · obtain ⟨-, hleft, hright⟩ := (shaped_binary hop _ _ _).mp h
      have hstrength : op.strength ≤ 2 := by cases op <;> decide
      have hl := le_strength_of_shaped (by omega) hleft
      have hr := le_strength_of_shaped (by omega) hright
      omega
  simp only [text, operandText, decide_eq_true_eq, if_neg hplain.1, if_neg hplain.2,
    String.append_assoc]

mutual

/-- **A shaped expression is printed with its lexemes.** -/
theorem prints_expr : ∀ {e : Expr} {least : Nat}, e.shaped least = true →
    (∀ l ∈ e.yield, l.Printable) → Prints EndsWord e.text e.yield
  | .num value, _, _, hl => by
    rw [Expr.yield] at hl ⊢
    rw [Expr.text]
    exact prints_number (hl _ (List.mem_singleton_self _))
  | .var x, _, _, hl => by
    rw [Expr.yield] at hl ⊢
    rw [Expr.text]
    exact prints_word (hl _ (List.mem_singleton_self _))
  | .call f args, _, h, hl => by
    rw [Expr.yield] at hl ⊢
    rw [Expr.text]
    have hname : Prints EndsWord f [.word f] := prints_word (hl _ List.mem_cons_self)
    have hargs : Prints EndsWord (Expr.argsText args) (Expr.argsYield args) :=
      prints_args (by simpa [Expr.shaped] using h) fun l hmem => hl l (by simp [hmem])
    have hopen := hname.append prints_openParen fun _ _ => endsWord_cons rfl
    have hinside := hopen.append_of_anything hargs
    have hclose := hinside.append prints_closeParen fun _ _ => endsWord_cons rfl
    simpa using hclose.of_anything
  | .binary op left right, _, h, hl => by
    rw [Expr.yield] at hl ⊢
    rw [Expr.text_binary_of_shaped h]
    obtain ⟨⟨_, hleft⟩, _, hright⟩ := Expr.shaped_operands h
    have hl' : Prints EndsWord left.text left.yield :=
      prints_expr hleft fun l hmem => hl l (List.mem_append_left _ hmem)
    have hr' : Prints EndsWord right.text right.yield :=
      prints_expr hright fun l hmem =>
        hl l (List.mem_append_right _ (List.mem_cons_of_mem _ hmem))
    have hspace (rest : List Char) : EndsWord ((" " ++ (op.text ++ " ")).toList ++ rest) := by
      rw [String.toList_append]
      exact endsWord_cons rfl
    have hop := hl'.append (prints_operator op) fun rest _ => hspace rest
    simpa using hop.append_of_anything hr'

/-- Arguments are printed with commas between them. -/
theorem prints_args : ∀ {args : List Expr}, Expr.argsShaped args = true →
    (∀ l ∈ Expr.argsYield args, l.Printable) →
      Prints EndsWord (Expr.argsText args) (Expr.argsYield args)
  | [], _, _ => by
    rw [Expr.argsText, Expr.argsYield]
    exact .nil _
  | [arg], h, hl => by
    obtain ⟨harg, -⟩ := Bool.and_eq_true_iff.mp h
    rw [Expr.argsYield] at hl ⊢
    rw [Expr.argsText]
    exact prints_expr harg hl
  | arg :: arg' :: more, h, hl => by
    obtain ⟨harg, hmore⟩ := Bool.and_eq_true_iff.mp h
    have hyield : Expr.argsYield (arg :: arg' :: more) =
        arg.yield ++ .mark .comma :: Expr.argsYield (arg' :: more) := by
      rw [Expr.argsYield]
      exact List.cons_ne_nil _ _
    have htext : Expr.argsText (arg :: arg' :: more) =
        arg.text ++ ", " ++ Expr.argsText (arg' :: more) := by
      rw [Expr.argsText]
      exact List.cons_ne_nil _ _
    rw [hyield] at hl ⊢
    rw [htext]
    have hfirst : Prints EndsWord arg.text arg.yield :=
      prints_expr harg fun l hmem => hl l (List.mem_append_left _ hmem)
    have hrest : Prints EndsWord (Expr.argsText (arg' :: more)) (Expr.argsYield (arg' :: more)) :=
      prints_args hmore fun l hmem =>
        hl l (List.mem_append_right _ (List.mem_cons_of_mem _ hmem))
    have hcomma := hfirst.append prints_comma fun _ _ => endsWord_cons rfl
    simpa using hcomma.append_of_anything hrest

end

theorem prints_stmt {a : Stmt} (h : a.Shaped) (hl : ∀ l ∈ a.yield, l.Printable) :
    Prints Anything a.text a.yield := by
  have hvalue {e : Expr} (he : e = .empty ∨ e.shaped 0 = true)
      (hprint : ∀ l ∈ e.yield, l.Printable) :
      Prints Anything (e.text ++ ";") (e.yield ++ [.mark .semicolon]) := by
    rcases he with rfl | he
    · simpa [Expr.text, Expr.yield] using prints_semicolon
    · exact (prints_expr he hprint).append prints_semicolon fun _ _ => endsWord_cons rfl
  cases a with
  | expr value =>
    exact hvalue (h.imp_right And.left) fun l hmem => hl l (List.mem_append_left _ hmem)
  | ret value =>
    have hrest := hvalue (.inr h.1) fun l hmem =>
      hl l (List.mem_cons_of_mem _ (List.mem_append_left _ hmem))
    have hall := prints_return.append_of_anything hrest
    rw [← String.append_assoc] at hall
    exact hall

theorem prints_params : ∀ {params : List String},
    (∀ l ∈ Prototype.paramsYield params, l.Printable) →
      Prints EndsWord (Prototype.paramsText params) (Prototype.paramsYield params)
  | [], _ => .nil _
  | [param], hl => by
    have hname : Prints EndsWord param [.word param] :=
      prints_word (hl _ (by simp [Prototype.paramsYield]))
    exact prints_int.append_of_anything hname
  | param :: param' :: more, hl => by
    have hname : Prints EndsWord param [.word param] :=
      prints_word (hl _ (by simp [Prototype.paramsYield]))
    have hrest : Prints EndsWord (Prototype.paramsText (param' :: more))
        (Prototype.paramsYield (param' :: more)) :=
      prints_params fun l hmem => hl l (by simp [Prototype.paramsYield, hmem])
    have hfirst := prints_int.append_of_anything hname
    have hcomma := hfirst.append prints_comma fun _ _ => endsWord_cons rfl
    exact hcomma.append_of_anything hrest

theorem prints_prototype {p : Prototype} (hl : ∀ l ∈ p.yield, l.Printable) :
    Prints Anything p.text p.yield := by
  have hname : Prints EndsWord p.name [.word p.name] :=
    prints_word (hl _ (by simp [Prototype.yield]))
  have hparams : Prints EndsWord (Prototype.paramsText p.params)
      (Prototype.paramsYield p.params) :=
    prints_params fun l hmem => hl l (by simp [Prototype.yield, hmem])
  have hstart := prints_int.append_of_anything hname
  have hopen := hstart.append prints_openParen fun _ _ => endsWord_cons rfl
  have hinside := hopen.append_of_anything hparams
  have hclose := hinside.append prints_closeParen fun _ _ => endsWord_cons rfl
  simpa [Prototype.text, Prototype.yield] using hclose

/-- A line for each member of a list. -/
theorem prints_join {α : Type} {f : α → String} {g : α → List Lexeme} :
    ∀ {xs : List α}, (∀ x ∈ xs, Prints Anything (f x) (g x)) →
      Prints Anything (String.join (xs.map f)) (xs.flatMap g)
  | [], _ => by
    rw [List.map_nil, String.join_nil, List.flatMap_nil]
    exact .nil _
  | x :: xs, h => by
    obtain ⟨hx, hxs⟩ := List.forall_mem_cons.mp h
    rw [List.map_cons, String.join_cons, List.flatMap_cons]
    exact hx.append_of_anything (prints_join hxs)

theorem prints_local {decl : VarDecl} (hl : ∀ l ∈ decl.yield, l.Printable) :
    Prints Anything ("    int " ++ decl.name ++ ";\n") decl.yield := by
  have hint : Prints Anything "    int " [.mark .int] :=
    .blank (c := ' ') rfl (.blank (c := ' ') rfl (.blank (c := ' ') rfl
      (.blank (c := ' ') rfl prints_int)))
  have hname : Prints EndsWord decl.name [.word decl.name] :=
    prints_word (hl _ (by simp [VarDecl.yield]))
  have hend : Prints Anything ";\n" [.mark .semicolon] :=
    prints_semicolon.append_of_anything prints_newline
  exact (hint.append_of_anything hname).append hend fun _ _ => endsWord_cons rfl

theorem prints_stmtLine {a : Stmt} (h : a.Shaped) (hl : ∀ l ∈ a.yield, l.Printable) :
    Prints Anything ("    " ++ a.text ++ "\n") a.yield := by
  have hindent : Prints Anything "    " [] :=
    .blank (c := ' ') rfl (.blank (c := ' ') rfl (.blank (c := ' ') rfl prints_space))
  have hline := (hindent.append_of_anything (prints_stmt h hl)).append_of_anything prints_newline
  simpa using hline

/-- A function is printed with the lexemes of its signature and its body. -/
theorem prints_function {f : FunctionDef} (h : ∀ a ∈ f.body.stmts, a.Shaped)
    (hl : ∀ l ∈ (External.function f).yield, l.Printable) :
    Prints Anything f.text (External.function f).yield := by
  have hproto : Prints Anything f.prototype.text f.prototype.yield :=
    prints_prototype fun l hmem => hl l (List.mem_append_left _ hmem)
  have hopen : Prints Anything " \x7b\n" [.mark .openCurly] :=
    .blank (c := ' ') rfl
      ((prints_mark (c := '{') rfl (by decide)).append_of_anything prints_newline)
  have hclose : Prints Anything "\x7d" [.mark .closeCurly] :=
    prints_mark (c := '}') rfl (by decide)
  have hin {l : Lexeme} (hmem : l ∈ f.body.yield) : l.Printable :=
    hl l (List.mem_append_right _ hmem)
  have hlocals : Prints Anything
      (String.join (f.body.locals.map fun decl => "    int " ++ decl.name ++ ";\n"))
      (f.body.locals.flatMap VarDecl.yield) := by
    refine prints_join fun decl hdecl => prints_local fun l hmem => hin ?_
    have hflat : l ∈ f.body.locals.flatMap VarDecl.yield := List.mem_flatMap.mpr ⟨decl, hdecl, hmem⟩
    simp only [Body.yield, List.mem_cons, List.mem_append, hflat, true_or, or_true]
  have hstmts : Prints Anything
      (String.join (f.body.stmts.map fun a => "    " ++ a.text ++ "\n"))
      (f.body.stmts.flatMap Stmt.yield) := by
    refine prints_join fun a ha => prints_stmtLine (h a ha) fun l hmem => hin ?_
    have hflat : l ∈ f.body.stmts.flatMap Stmt.yield := List.mem_flatMap.mpr ⟨a, ha, hmem⟩
    simp only [Body.yield, List.mem_cons, List.mem_append, hflat, true_or, or_true]
  have hhead := hproto.append_of_anything hopen
  have hbody := hlocals.append_of_anything hstmts
  have hall := (hhead.append_of_anything hbody).append_of_anything hclose
  simpa [FunctionDef.text, FunctionDef.bodyText, External.yield, Body.yield] using hall

/-- The declarations of a program in the order in which it is printed: prototypes first. -/
def Program.hoisted (u : Program) : List External :=
  u.prototypes.map .prototype ++ u.functions.map .function

/-- **A program is printed with the lexemes of its declarations**, prototypes first. -/
theorem prints_program {u : Program} (h : ∀ f ∈ u.functions, ∀ a ∈ f.body.stmts, a.Shaped)
    (hl : ∀ l ∈ u.hoisted.flatMap External.yield, l.Printable) :
    Prints Anything u.text (u.hoisted.flatMap External.yield) := by
  have hin {d : External} (hd : d ∈ u.hoisted) {l : Lexeme} (hmem : l ∈ d.yield) : l.Printable :=
    hl l (List.mem_flatMap.mpr ⟨d, hd, hmem⟩)
  have hprototypes : Prints Anything (String.join (u.prototypes.map fun p => p.text ++ ";\n"))
      (u.prototypes.flatMap fun p => (External.prototype p).yield) := by
    refine prints_join fun p hp => ?_
    have hmem : .prototype p ∈ u.hoisted := List.mem_append_left _ (List.mem_map_of_mem hp)
    have hproto : Prints Anything p.text p.yield :=
      prints_prototype fun l hl' => hin hmem (List.mem_append_left _ hl')
    exact hproto.append_of_anything (prints_semicolon.append_of_anything prints_newline)
  have hfunctions : Prints Anything (String.join (u.functions.map fun f => f.text ++ "\n"))
      (u.functions.flatMap fun f => (External.function f).yield) := by
    refine prints_join fun f hf => ?_
    have hmem : .function f ∈ u.hoisted := List.mem_append_right _ (List.mem_map_of_mem hf)
    have hfun : Prints Anything f.text (External.function f).yield :=
      prints_function (h f hf) fun l hl' => hin hmem hl'
    simpa using hfun.append_of_anything prints_newline
  simpa [Program.text, Program.hoisted, List.flatMap_map] using
    hprototypes.append_of_anything hfunctions

end IntC
