/-
# Layout does not matter

What comes of a source depends on the kinds and the texts of its tokens alone.  Where they stand,
and so the blanks and comments between them, shows only in the position of a diagnostic, and there
it is always the position of the same token.

* `ofTokens_layout`: for token lists, and for sources that have such tokens.
-/
import IntC.Proofs.Renaming

namespace IntC

/-- Both parses give the same program, or both fail for the same cause, each at its own token of one
index. -/
inductive SameOutcome (ts ts' : List Token) :
    Except Diagnostic Program → Except Diagnostic Program → Prop
  | program (u : Program) : SameOutcome ts ts' (.ok u) (.ok u)
  | fault (cause : Cause) {i : Nat} {t t' : Token} (ht : ts[i]? = some t)
      (ht' : ts'[i]? = some t') :
      SameOutcome ts ts' (.error ⟨cause, t.span.start⟩) (.error ⟨cause, t'.span.start⟩)

/-- A fault that is the same but for the names is the same where the names are. -/
theorem SameFault.sameOutcome {ts ts' : List Token} {e e' : Diagnostic}
    (h : SameFault .id ts ts' e e') : SameOutcome ts ts' (.error e) (.error e') := by
  cases h with
  | @token t t' htwins =>
    obtain ⟨⟨i, ht, ht'⟩, -, hvalue⟩ := htwins
    rw [Token.renamed_id] at hvalue
    rw [hvalue]
    exact .fault _ ht ht'
  | names hplace cause =>
    obtain ⟨t, t', ⟨⟨i, ht, ht'⟩, -, -⟩, rfl, rfl⟩ := hplace
    rw [Cause.rename_id]
    exact .fault cause ht ht'

theorem sameOutcome_ofTokens {ts ts' : List Token}
    (hsame : ts.map (fun t => (t.kind, t.value)) = ts'.map (fun t => (t.kind, t.value)))
    (hend : ts.getLast?.map Token.kind = some .eof) (file file' : String) :
    SameOutcome ts ts' (Program.ofTokens ts file) (Program.ofTokens ts' file') := by
  have hrenamed : ts'.map (fun t => (t.kind, t.value)) = ts.map (Token.renamed .id) := by
    rw [← hsame]
    exact List.map_congr_left fun t _ => t.renamed_id.symm
  rcases ofTokens_alike hrenamed hend file file' with
    ⟨u, hu, hu'⟩ | ⟨e, e', he, he', hfault⟩
  · rw [hu, hu', Program.rename_id]
    exact .program u
  · rw [he, he']
    exact hfault.sameOutcome

theorem ofSource_of_tokens {source file : String} {ts : List Token}
    (h : Lexer.tokens source (some file) = .ok ts) :
    Program.ofSource source file = Program.ofTokens ts file := by
  rw [Program.ofSource, h]
  rfl

/-- **Layout independence.**  Two token lists that end in an end token and have the same kinds and
texts come to the same thing, and so do two sources with these tokens. -/
theorem ofTokens_layout {ts ts' : List Token}
    (hsame : ts.map (fun t => (t.kind, t.value)) = ts'.map (fun t => (t.kind, t.value)))
    (hend : ts.getLast?.map Token.kind = some .eof) (file file' : String) :
    SameOutcome ts ts' (Program.ofTokens ts file) (Program.ofTokens ts' file') ∧
      ∀ source source' : String, Lexer.tokens source (some file) = .ok ts →
        Lexer.tokens source' (some file') = .ok ts' →
        SameOutcome ts ts' (Program.ofSource source file) (Program.ofSource source' file') := by
  have houtcome := sameOutcome_ofTokens hsame hend file file'
  refine ⟨houtcome, fun source source' h h' => ?_⟩
  rw [ofSource_of_tokens h, ofSource_of_tokens h']
  exact houtcome

/-- The tokens of a signature that names a parameter twice, at given places. -/
def twiceNamed (file : String) (places : List (Nat × Nat)) : List Token :=
  List.zipWith (fun (kind, value) (start, stop) => ⟨kind, value, ⟨⟨start, file⟩, ⟨stop, file⟩⟩⟩)
    [(.int, "int"), (.identifier, "f"), (.openParen, "("), (.int, "int"), (.identifier, "x"),
      (.comma, ","), (.int, "int"), (.identifier, "x"), (.eof, "EOF")] places

theorem ofTokens_layout_twiceNamed :
    let ts := twiceNamed "a" [(0, 3), (4, 5), (5, 6), (6, 9), (10, 11), (11, 12), (12, 15), (16, 17),
      (17, 17)]
    let ts' := twiceNamed "b" [(0, 3), (6, 7), (8, 9), (9, 12), (13, 14), (15, 16), (17, 20),
      (26, 27), (30, 30)]
    Lexer.tokens "int f(int x,int x" (some "a") = .ok ts ∧
      Lexer.tokens "int\n\n\nf (int x , int/*x*/ x //" (some "b") = .ok ts' ∧
      SameOutcome ts ts' (Program.ofSource "int f(int x,int x" "a")
        (Program.ofSource "int\n\n\nf (int x , int/*x*/ x //" "b") := by
  intro ts ts'
  have h : Lexer.tokens "int f(int x,int x" (some "a") = .ok ts := by cbv
  have h' : Lexer.tokens "int\n\n\nf (int x , int/*x*/ x //" (some "b") = .ok ts' := by cbv
  exact ⟨h, h', (ofTokens_layout (by decide) (by decide) "a" "b").2 _ _ h h'⟩

end IntC
