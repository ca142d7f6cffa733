/-
# Which diagnostics can be shown

A source is refused by the lexer, for the text that is left where it stops, or by the grammar, for
one of the tokens.  Either way the diagnostic is for a place between two characters of the source,
at the latest the one behind the last.  Every such place is in a line of the source, so a report
never goes without an excerpt.  But there is no report at all for a place that is too far to the
right in its line.

* `faultAt_of_tokensFrom_eq_error`: where the lexer stops.
* `isPlace_of_mem_tokens`: where the tokens of a source start.
* `exists_mem_of_ofTokens_eq_error`: the token that the grammar stops at.
* `ofSource_eq_error_shown`: what a report of a diagnostic for a source shows, and when there is one.
* `ofSource_overlong`, `render?_overlong`: a source whose diagnostic has no report.
-/
import IntC.Proofs.Composition
import IntC.Proofs.Layout
import IntC.Proofs.LexicalFaults
import IntC.Proofs.Lines

namespace IntC

/-! ## 1. Places of a source -/

/-- The position is a place between two characters of a source, or at one of its ends. -/
def Position.IsPlace (source file : String) (p : Position) : Prop :=
  ∃ before behind : String, source = before ++ behind ∧ p = ⟨before.utf8ByteSize, file⟩

theorem Position.isPlace_of_toList {source file : String} {before behind : List Char}
    (h : source.toList = before ++ behind) :
    Position.IsPlace source file ⟨Text.size before, file⟩ := by
  refine ⟨String.ofList before, String.ofList behind, ?_, ?_⟩
  · rw [← String.ofList_append, ← h, String.ofList_toList]
  · rw [Text.utf8ByteSize_ofList]

/-! ## 2. The lexer -/

namespace Lexer

/-- The diagnostic is for a place in a text that starts at byte `offset` of its file, where something
stands that is an error. -/
def FaultAt (file : String) (offset : Nat) (cs : List Char) (e : Diagnostic) : Prop :=
  ∃ before c rest, cs = before ++ c :: rest ∧ front c rest = .fault e.cause ∧
    e.position = ⟨offset + Text.size before, file⟩

/-- **Where the lexer stops**, the text that is left starts with something that is an error. -/
theorem faultAt_of_tokensFrom_eq_error {file : String} {offset : Nat} {cs : List Char}
    {e : Diagnostic} (h : tokensFrom file offset cs = .error e)
    (hsize : offset + Text.size cs ≤ maxSourceSize) : FaultAt file offset cs e := by
  obtain ⟨before, c, rest, hsplit, -, hfault, hplace⟩ := exists_cut_of_eq_error h hsize
  exact ⟨before, c, rest, hsplit, hfault, hplace⟩

/-- The lexer stops at a place of the source; one that is too long is refused at its start. -/
theorem isPlace_of_tokens_eq_error {source : String} {file : Option String} {e : Diagnostic}
    (h : tokens source file = .error e) : e.position.IsPlace source (file.getD defaultFile) := by
  unfold tokens at h
  split at h
  · next hsize =>
    rw [← Text.size_toList] at hsize
    obtain ⟨before, c, rest, hsplit, -, hplace⟩ :=
      faultAt_of_tokensFrom_eq_error h (by simpa using hsize)
    rw [hplace, Nat.zero_add]
    exact Position.isPlace_of_toList hsplit
  · cases h
    exact ⟨"", source, by simp, rfl⟩

/-- **Every token of a source starts at a place of it**, the end token at its end. -/
theorem isPlace_of_mem_tokens {source : String} {file : Option String} {ts : List Token}
    (h : tokens source file = .ok ts) {t : Token} (ht : t ∈ ts) :
    t.span.start.IsPlace source (file.getD defaultFile) := by
  obtain ⟨hsize, hfrom⟩ := tokens_eq_ok_iff.mp h
  rw [← Text.size_toList] at hsize
  obtain ⟨pieces, last, htext, rfl, htiled⟩ := exists_tiled hfrom [] rfl (by simpa using hsize)
  rcases List.mem_append.mp ht with ht | ht
  · obtain ⟨⟨gap, t⟩, hmem, rfl⟩ := List.mem_map.mp ht
    obtain ⟨front, back, rfl⟩ := List.append_of_mem hmem
    have hsplit : source.toList =
        ([] ++ weave front ++ gap) ++ (t.value.toList ++ (weave back ++ last)) := by
      rw [htext]
      simp [weave]
    rw [htiled.placed.span]
    exact Position.isPlace_of_toList hsplit
  · obtain rfl := List.mem_singleton.mp ht
    have hend : source.toList = source.toList ++ [] := by simp
    simpa [Token.endAt, Span.empty] using Position.isPlace_of_toList hend

end Lexer

/-! ## 3. The grammar -/

/-- **The token that the grammar stops at.** -/
theorem exists_mem_of_ofTokens_eq_error {tokens : List Token}
    (hend : tokens.getLast?.map Token.kind = some .eof) {file : String} {e : Diagnostic}
    (h : Program.ofTokens tokens file = .error e) : ∃ t ∈ tokens, e.position = t.span.start := by
  -- the declarations in front are none
  have hreads : (Cursor.ofList tokens).Reads (([] : List External).flatMap External.yield)
      (Cursor.ofList tokens) := rfl
  rcases Grammar.ofTokens_behind hreads trivial file with
    ⟨more, hu⟩ | ⟨e', he, before, t, behind, hsplit, hplace⟩
  · rw [hu] at h
    cases h
  · rw [he] at h
    cases h
    rw [Cursor.ahead_ofList hend] at hsplit
    exact ⟨t, by simp [hsplit], hplace⟩

/-- Where a source is refused: by the lexer, or by the grammar at one of the tokens. -/
theorem ofSource_eq_error_cases {source file : String} {e : Diagnostic}
    (h : Program.ofSource source file = .error e) :
    Lexer.tokens source (some file) = .error e ∨
      ∃ ts, Lexer.tokens source (some file) = .ok ts ∧ ∃ t ∈ ts, e.position = t.span.start := by
  cases hlex : Lexer.tokens source (some file) with
  | error e' =>
    rw [Program.ofSource, hlex] at h
    cases h
    exact .inl rfl
  | ok ts =>
    rw [ofSource_of_tokens hlex] at h
    obtain ⟨body, last, rfl, hlast, -⟩ := Lexer.tokensFrom_kind (Lexer.tokens_eq_ok_iff.mp hlex).2
    exact .inr ⟨_, rfl, exists_mem_of_ofTokens_eq_error (by simp [hlast]) h⟩

/-! ## 4. The report -/

/-- The middle row of an excerpt has the number of the line and its text. -/
theorem Excerpt.row_infix_of_rows?_eq_some {line : Line} {excerpt : String}
    (h : rows? line = some excerpt) :
    ("\n" ++ toString line.number ++ " | " ++ String.ofList (shown line.text) ++ "\n").toList <:+:
      excerpt.toList := by
  obtain ⟨-, rfl⟩ := rows?_eq_some_iff.mp h
  exact ⟨'\n' :: margin line, margin line ++ ' ' :: (List.replicate (dashes line) '-' ++ ['^']),
    by simp [layout]⟩

/-- **Which diagnostics can be shown.**  A source is refused in its own file, for the place where
the lexer stops or the start of one of its tokens.  This is a place between two characters or at an
end of the source, and it is in a line of the source.  If the place is less than `maxWidth` bytes
behind the spaces and tabs that the line starts with, the report has an excerpt with that line,
whose number is one more than the number of newlines before the place; else there is no report. -/
theorem ofSource_eq_error_shown {source file : String} {e : Diagnostic}
    (h : Program.ofSource source file = .error e) :
    e.position.file = file ∧ e.position.offset ≤ source.utf8ByteSize ∧
      (Lexer.tokens source (some file) = .error e ∨
        ∃ ts, Lexer.tokens source (some file) = .ok ts ∧ ∃ t ∈ ts, e.position = t.span.start) ∧
      ∃ before behind : String, source = before ++ behind ∧
        before.utf8ByteSize = e.position.offset ∧
        ∃ line, lineAt? source e.position.offset = some line ∧
          line.number = 1 + before.toList.count '\n' ∧
          line.column = Text.size (Text.lineStart before.toList) ∧
          (line.column - Excerpt.indentation line.text < Excerpt.maxWidth ∧
              (∃ excerpt, Excerpt.rows? line = some excerpt ∧
                e.render? source = some (e.headline ++ "\n-> " ++ file ++ excerpt) ∧
                ("\n" ++ toString (1 + before.toList.count '\n') ++ " | " ++
                  String.ofList (Excerpt.shown line.text) ++ "\n").toList <:+: excerpt.toList) ∨
            Excerpt.maxWidth ≤ line.column - Excerpt.indentation line.text ∧
              e.render? source = none) := by
  have hcases := ofSource_eq_error_cases h
  have hplace : e.position.IsPlace source file := by
    rcases hcases with hlex | ⟨ts, hlex, t, ht, hstart⟩
    · exact Lexer.isPlace_of_tokens_eq_error hlex
    · rw [hstart]
      exact Lexer.isPlace_of_mem_tokens hlex ht
  obtain ⟨before, behind, rfl, hposition⟩ := hplace
  have hfile : e.position.file = file := by rw [hposition]
  have hoffset : before.utf8ByteSize = e.position.offset := by rw [hposition]
  have hle : e.position.offset ≤ (before ++ behind).utf8ByteSize := by
    rw [← hoffset, String.utf8ByteSize_append]
    exact Nat.le_add_right _ _
  obtain ⟨line, hline, hnumber, hcolumn⟩ : ∃ line,
      lineAt? (before ++ behind) e.position.offset = some line ∧
        line.number = 1 + before.toList.count '\n' ∧
        line.column = Text.size (Text.lineStart before.toList) := by
    rw [← hoffset]
    exact ⟨_, lineAt?_append before behind, rfl, rfl⟩
  refine ⟨hfile, hle, hcases, before, behind, rfl, hoffset, line, hline, hnumber, hcolumn, ?_⟩
  rcases Nat.lt_or_ge (Excerpt.dashes line) Excerpt.maxWidth with hwidth | hwidth
  · have hrows := Excerpt.rows?_eq_some_iff.mpr ⟨hwidth, rfl⟩
    have hrow := Excerpt.row_infix_of_rows?_eq_some hrows
    have hreport := e.render?_of_rows? hline hrows
    rw [hnumber] at hrow
    rw [hfile] at hreport
    exact .inl ⟨hwidth, _, hrows, hreport, hrow⟩
  · exact .inr ⟨hwidth, Diagnostic.render?_eq_none_iff.mpr ⟨line, hline, hwidth⟩⟩

/-- A source that ends inside of a body, behind a comment with a character of two bytes and a
newline. -/
def unfinished : String := "int f()".push '{' ++ "\n// é\n"

theorem ofSource_eq_error_shown_unfinished :
    let e : Diagnostic := ⟨.unexpectedToken "EOF", ⟨15, "u"⟩⟩
    Program.ofSource unfinished "u" = .error e ∧
      ∃ before behind : String, unfinished = before ++ behind ∧ before.utf8ByteSize = 15 ∧
        ∃ line, lineAt? unfinished 15 = some line ∧
          line.number = 1 + before.toList.count '\n' ∧
          ∃ excerpt, e.render? unfinished = some (e.headline ++ "\n-> " ++ "u" ++ excerpt) := by
  intro e
  have h : Program.ofSource unfinished "u" = .error e := by cbv
  obtain ⟨-, -, -, before, behind, hsplit, hsize, line, hline, hnumber, -, hcase⟩ :=
    ofSource_eq_error_shown h
  refine ⟨h, before, behind, hsplit, hsize, line, hline, hnumber, ?_⟩
  rcases hcase with ⟨-, excerpt, -, hreport, -⟩ | ⟨-, hnone⟩
  · exact ⟨excerpt, hreport⟩
  · exact absurd hnone (by decide +kernel)

/-! ## 5. A place that is too far to the right -/

/-- A word of any length, and behind it a character that no token starts with. -/
def overlong (length : Nat) : String := String.ofList (List.replicate length 'a' ++ ['@'])

theorem size_replicate_letter (n : Nat) : Text.size (List.replicate n 'a') = n := by
  rw [Text.size_replicate]
  exact Nat.mul_one n

theorem utf8ByteSize_overlong (n : Nat) : (overlong n).utf8ByteSize = n + 1 := by
  rw [overlong, Text.utf8ByteSize_ofList, Text.size_append, size_replicate_letter]
  rfl

theorem cut_overlong (n : Nat) : Lexer.Cut (List.replicate n 'a') ['@'] := by
  cases n with
  | zero => exact .nil
  | succ n =>
    have htext : ∀ c ∈ List.replicate n 'a', Lexer.isWordChar c = true := by
      intro c hc
      rw [List.eq_of_mem_replicate hc]
      decide
    have hstops (word : String) : Lexer.Stops (.ofWord word) ['@'] := by
      intro c hc
      rw [Lexer.continues_ofWord, ← Option.some.inj hc]
      decide
    rw [List.replicate_succ, ← List.append_nil ('a' :: _)]
    exact .token (.word (by decide) htext) (hstops _) .nil

/-- The lexer stops behind the word. -/
theorem ofSource_overlong {n : Nat} (hn : n < maxSourceSize) (file : String) :
    Program.ofSource (overlong n) file = .error ⟨.strayCharacter "@", ⟨n, file⟩⟩ := by
  have hstray : Lexer.IsStray '@' := ⟨by decide, by decide, by decide⟩
  have hfault := (cut_overlong n).tokensFrom_stray hstray file
  rw [size_replicate_letter] at hfault
  rw [Program.ofSource, Lexer.tokens_of_le (by rw [utf8ByteSize_overlong]; omega), overlong,
    String.toList_ofList, Option.getD_some, hfault (Nat.le_of_lt hn)]
  rfl

/-- The place where it stops is in the only line, as far to the right as the word is long. -/
theorem render?_overlong {n : Nat} (hn : Excerpt.maxWidth ≤ n) {d : Diagnostic}
    (hplace : d.position.offset = n) : d.render? (overlong n) = none := by
  have hlines : '\n' ∉ List.replicate n 'a' ++ ['@'] := by simp
  have hline : lineAt? (overlong n) n = some ⟨1, List.replicate n 'a' ++ ['@'], n⟩ := by
    rw [lineAt?, overlong, String.toList_ofList, Line.find?_of_not_mem hlines, if_pos]
    rw [← Text.utf8ByteSize_ofList, ← overlong, utf8ByteSize_overlong]
    exact Nat.le_succ n
  have hindent : Excerpt.indentation (List.replicate n 'a' ++ ['@']) = 0 := by
    cases n <;> rfl
  refine Diagnostic.render?_eq_none_iff.mpr ⟨_, by rw [hplace]; exact hline, ?_⟩
  rw [Excerpt.dashes, hindent]
  exact hn

/-- With 65535 letters, the diagnostic is for a place of the source, which is no longer than it may
be, and still it has no report. -/
theorem ofSource_overlong_unshown :
    (overlong 65535).utf8ByteSize ≤ maxSourceSize ∧
      ∃ e, Program.ofSource (overlong 65535) "t.c" = .error e ∧
        e.render? (overlong 65535) = none := by
  refine ⟨by rw [utf8ByteSize_overlong]; decide, _, ofSource_overlong (by decide) _, ?_⟩
  exact render?_overlong (Nat.le_refl _) rfl

end IntC
