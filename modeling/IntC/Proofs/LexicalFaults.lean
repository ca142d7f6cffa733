/-
# Where the lexer stops

A text is refused at the first place where neither a token nor a gap starts.  Up to there it has
been cut into pieces, and every cut was made by looking at one character behind the piece at most:
a word and a number end where their characters do, a slash is a token unless it starts a comment, a
line comment ends in front of a newline or at the end, and a block comment brings its own closing.
So the pieces stay the same if the text behind them is cut off, or replaced by one that starts with
the same character.

* `Cut`: a row of gaps and tokens, in front of the text behind it.
* `Cut.of_head?`: of the text behind, only the first character counts.
* `tokensFrom_cut`: the pieces are read first, and then the text behind.
* `exists_cut_of_eq_error`: the text before a fault is such a row.
* `fault_cases`, `front_of_isStray`: what can stand at a fault, and that a stray character is one.
* `tokens_eq_error_localised`: the theorem for whole sources.
-/
import IntC.Proofs.Tiling

namespace IntC.Lexer

/-! ## 1. What a piece has to know of the text behind it -/

section Behind

variable {behind behind' : List Char}

/-- Putting the same text in front keeps the first character of the second text that of the
first. -/
theorem head?_append_of_head? (h : ∀ c ∈ behind'.head?, c ∈ behind.head?) (text : List Char) :
    ∀ c ∈ (text ++ behind').head?, c ∈ (text ++ behind).head? := by
  cases text with
  | nil => exact h
  | cons d text => exact fun c hc => hc

theorem Stops.of_head? {kind : Token.Kind} (hstops : Stops kind behind)
    (h : ∀ c ∈ behind'.head?, c ∈ behind.head?) : Stops kind behind' :=
  fun c hc => hstops c (h c hc)

theorem GapPiece.of_head? {piece : List Char} (hpiece : GapPiece piece behind)
    (h : ∀ c ∈ behind'.head?, c ∈ behind.head?) : GapPiece piece behind' := by
  cases hpiece with
  | blank hc => exact .blank hc
  | line hbody hrest => exact .line hbody fun c hc => hrest c (h c hc)
  | block hbody => exact .block hbody

theorem Gap.of_head? {gap : List Char} (hgap : Gap gap behind)
    (h : ∀ c ∈ behind'.head?, c ∈ behind.head?) : Gap gap behind' := by
  induction hgap with
  | nil => exact .nil
  | @cons piece more behind hpiece _ ih =>
    exact .cons (hpiece.of_head? (head?_append_of_head? h more)) (ih h)

end Behind

/-! ## 2. Rows of gaps and tokens -/

/-- The first text is a row of gaps and tokens, in front of the second. -/
inductive Cut : List Char → List Char → Prop
  | nil {behind : List Char} : Cut [] behind
  | gap {gap more behind : List Char} (hgap : Gap gap (more ++ behind)) (hmore : Cut more behind) :
      Cut (gap ++ more) behind
  | token {kind : Token.Kind} {text more behind : List Char} (htext : IsText kind text)
      (hstops : Stops kind (more ++ behind)) (hmore : Cut more behind) : Cut (text ++ more) behind

/-- **Of the text behind, only the first character counts**, and no text at all is as good. -/
theorem Cut.of_head? {before behind behind' : List Char} (hcut : Cut before behind)
    (h : ∀ c ∈ behind'.head?, c ∈ behind.head?) : Cut before behind' := by
  induction hcut with
  | nil => exact .nil
  | @gap gap more behind hgap _ ih =>
    exact .gap (hgap.of_head? (head?_append_of_head? h more)) (ih h)
  | @token kind text more behind htext hstops _ ih =>
    exact .token htext (Stops.of_head? hstops (head?_append_of_head? h more)) (ih h)

/-- **The pieces are read first**, and then whatever comes of the text behind them. -/
theorem tokensFrom_cut {before behind : List Char} (h : Cut before behind) (file : String) :
    ∀ offset : Nat, ∃ ts, tokensFrom file offset (before ++ behind) = do
      return ts ++ (← tokensFrom file (offset + Text.size before) behind) := by
  induction h with
  | nil =>
    intro offset
    exact ⟨[], by simp⟩
  | @gap gap more behind hgap _ ih =>
    intro offset
    obtain ⟨ts, hts⟩ := ih (offset + Text.size gap)
    refine ⟨ts, ?_⟩
    rw [List.append_assoc, tokensFrom_gap hgap, hts, Text.size_append, Nat.add_assoc]
  | @token kind text more behind htext hstops _ ih =>
    intro offset
    obtain ⟨ts, hts⟩ := ih (offset + Text.size text)
    have htext' : IsText kind (String.ofList text).toList := by rwa [String.toList_ofList]
    have hfirst := @tokensFrom_token file offset kind (String.ofList text) _ htext' hstops
    rw [String.toList_ofList, hts] at hfirst
    refine ⟨tokenAt file offset kind text :: ts, ?_⟩
    rw [List.append_assoc, hfirst, Text.size_append, Nat.add_assoc]
    simp only [bind_assoc, pure_bind, List.cons_append]

/-- **The text before a fault** is a row of gaps and tokens, in front of something that is an
error. -/
theorem exists_cut_of_eq_error {file : String} {offset : Nat} {cs : List Char} {e : Diagnostic}
    (h : tokensFrom file offset cs = .error e) (hsize : offset + Text.size cs ≤ maxSourceSize) :
    ∃ before c rest, cs = before ++ c :: rest ∧ Cut before (c :: rest) ∧
      front c rest = .fault e.cause ∧ e.position = ⟨offset + Text.size before, file⟩ := by
  fun_induction tokensFrom file offset cs with
  | case1 => cases h
  | case2 offset c rest cause hfront =>
    cases h
    refine ⟨[], c, rest, rfl, .nil, hfront, ?_⟩
    rw [Span.ofBytes_of_le (by omega)]
    rfl
  | case3 offset c rest more hfront ih =>
    rw [← size_take_add_drop c rest more] at hsize
    obtain ⟨before, d, behind, hsplit, hcut, hfault, hplace⟩ := ih h (by omega)
    have hgap := gap_of_front hfront
    rw [hsplit] at hgap
    refine ⟨c :: rest.take more ++ before, d, behind, ?_, .gap hgap hcut, hfault, ?_⟩
    · rw [List.append_assoc, ← hsplit, List.cons_append, List.take_append_drop]
    · rw [hplace, Text.size_append, Nat.add_assoc]
  | case4 offset c rest kind more hfront ih =>
    rw [← size_take_add_drop c rest more] at hsize
    cases hrest : tokensFrom file (offset + Text.size (c :: rest.take more)) (rest.drop more) with
    | ok others => rw [hrest] at h; cases h
    | error e' =>
      rw [hrest] at h
      cases h
      obtain ⟨before, d, behind, hsplit, hcut, hfault, hplace⟩ := ih hrest (by omega)
      obtain ⟨htext, hstops⟩ := isText_of_front hfront
      rw [hsplit] at hstops
      refine ⟨c :: rest.take more ++ before, d, behind, ?_, .token htext hstops hcut, hfault, ?_⟩
      · rw [List.append_assoc, ← hsplit, List.cons_append, List.take_append_drop]
      · rw [hplace, Text.size_append, Nat.add_assoc]

/-! ## 3. What can stand at a fault -/

/-- A character that no token and no gap starts with. -/
structure IsStray (c : Char) : Prop where
  notBlank : Text.isBlank c = false
  notWord : isWordChar c = false
  notMark : c ∉ ['{', '}', '(', ')', '=', ';', ',', '+', '-', '/', '*']

theorem ofMark?_eq_none_iff {c : Char} :
    Token.Kind.ofMark? c = none ↔
      c ∉ ['{', '}', '(', ')', '=', ';', ',', '+', '-', '/', '*'] := by
  unfold Token.Kind.ofMark?
  split <;> simp_all

/-- What a word goes on with is what it starts with, or a digit. -/
theorem isWordChar_eq_false_iff {c : Char} :
    isWordChar c = false ↔ isWordStart c = false ∧ c.isDigit = false := by
  simp only [isWordChar, isWordStart, Char.isAlphanum, Bool.or_eq_false_iff]
  tauto

/-- A block comment is never closed if nothing behind its opening looks like a closing. -/
theorem commentTail?_eq_none_iff {cs : List Char} :
    commentTail? cs = none ↔ ¬ ['*', '/'] <:+: cs := by
  fun_induction commentTail? cs with
  | case1 tail => simpa using ⟨[], tail, rfl⟩
  | case2 c tail hne ih =>
    have hstart : ¬ ['*', '/'] <+: c :: tail := by
      rintro ⟨more, h⟩
      obtain ⟨rfl, rfl⟩ := List.cons.inj h
      exact hne more rfl rfl
    rw [Option.map_eq_none_iff, ih, List.infix_cons_iff, or_iff_right hstart]
  | case3 => simp

/-- A slash is an error only where it opens a block comment that is never closed. -/
theorem openComment_of_frontSlash {rest : List Char} {cause : Cause}
    (h : frontSlash rest = .fault cause) :
    cause = .openComment ∧ ∃ body, rest = '*' :: body ∧ ¬ ['*', '/'] <:+: body := by
  unfold frontSlash at h
  split at h
  · cases h
  · next body =>
    split at h
    · cases h
    · next hopen =>
      cases h
      exact ⟨rfl, body, rfl, commentTail?_eq_none_iff.mp hopen⟩
  · cases h

/-- **Faults.**  What is an error is a block comment that is never closed or a stray character. -/
theorem fault_cases {c : Char} {rest : List Char} {cause : Cause}
    (h : front c rest = .fault cause) :
    (cause = .openComment ∧ c = '/' ∧ ∃ body, rest = '*' :: body ∧ ¬ ['*', '/'] <:+: body) ∨
      cause = .strayCharacter (String.singleton c) ∧ IsStray c := by
  unfold front at h
  split at h
  · cases h
  next hword =>
  split at h
  · cases h
  next hdigit =>
  split at h
  · cases h
  next hblank =>
  split at h
  · next hslash => exact .inl ⟨(openComment_of_frontSlash h).1, hslash,
      (openComment_of_frontSlash h).2⟩
  split at h
  · cases h
  · next hmark =>
    cases h
    have hnotWord := isWordChar_eq_false_iff.mpr
      ⟨Bool.eq_false_iff.mpr hword, Bool.eq_false_iff.mpr hdigit⟩
    exact .inr ⟨rfl, Bool.eq_false_iff.mpr hblank, hnotWord, ofMark?_eq_none_iff.mp hmark⟩

/-- A stray character is an error whatever stands behind it. -/
theorem front_of_isStray {c : Char} (h : IsStray c) (rest : List Char) :
    front c rest = .fault (.strayCharacter (String.singleton c)) := by
  obtain ⟨hword, hdigit⟩ := isWordChar_eq_false_iff.mp h.notWord
  have hslash : c ≠ '/' := by
    rintro rfl
    exact h.notMark (by decide)
  rw [front, if_neg (by simp [hword]), if_neg (by simp [hdigit]), if_neg (by simp [h.notBlank]),
    if_neg hslash, ofMark?_eq_none_iff.mpr h.notMark]

/-! ## 4. Whole sources -/

/-- A source of admissible size is refused where its text is. -/
theorem tokens_of_le {source : String} (hsize : source.utf8ByteSize ≤ maxSourceSize)
    (file : Option String) :
    tokens source file = tokensFrom (file.getD defaultFile) 0 source.toList := by
  rw [tokens, if_pos hsize]

/-- A row of gaps and tokens with nothing behind it has tokens. -/
theorem Cut.exists_tokens {before : List Char} (h : Cut before []) (file : String) :
    ∃ ts, tokensFrom file 0 before = .ok ts := by
  obtain ⟨ts, hts⟩ := tokensFrom_cut h file 0
  rw [List.append_nil, tokensFrom] at hts
  exact ⟨_, hts⟩

/-- Behind a row of gaps and tokens, a stray character is the fault. -/
theorem Cut.tokensFrom_stray {before rest : List Char} {c : Char} (h : Cut before (c :: rest))
    (hc : IsStray c) (file : String) (hsize : Text.size before ≤ maxSourceSize) :
    tokensFrom file 0 (before ++ c :: rest) =
      .error ⟨.strayCharacter (String.singleton c), ⟨Text.size before, file⟩⟩ := by
  obtain ⟨ts, hts⟩ := tokensFrom_cut h file 0
  rw [hts, tokensFrom, front_of_isStray hc, Nat.zero_add, Span.ofBytes_of_le (by omega)]
  rfl

/-- **Lexical faults are local.**  A source that has no tokens, and is not too long, is refused at a
place between two characters and not at its end.  The text before this place has tokens, and what
stands at it is a block comment that is never closed, or a stray character.  A stray character is
refused at that place in the same way whatever stands behind it. -/
theorem tokens_eq_error_localised {source : String} {file : Option String} {e : Diagnostic}
    (hsize : source.utf8ByteSize ≤ maxSourceSize) (h : tokens source file = .error e) :
    ∃ before behind : String, source = before ++ behind ∧
      e.position = ⟨before.utf8ByteSize, file.getD "shell"⟩ ∧
      e.position.offset < source.utf8ByteSize ∧
      (∃ ts, tokens before file = .ok ts) ∧
      ((e.cause = .openComment ∧
          ∃ rest, behind = "/*" ++ rest ∧ ¬ ['*', '/'] <:+: rest.toList) ∨
        ∃ c rest, behind = String.singleton c ++ rest ∧
          e.cause = .strayCharacter (String.singleton c) ∧ IsStray c ∧
          ∀ other : String,
            (before ++ String.singleton c ++ other).utf8ByteSize ≤ maxSourceSize →
            tokens (before ++ String.singleton c ++ other) file = .error e) := by
  rw [tokens_of_le hsize] at h
  rw [← Text.size_toList] at hsize ⊢
  obtain ⟨before, c, rest, hsplit, hcut, hfault, hplace⟩ :=
    exists_cut_of_eq_error h (by simpa using hsize)
  rw [Nat.zero_add] at hplace
  have hbefore : Text.size before < Text.size source.toList := by
    have hc := Char.utf8Size_pos c
    rw [hsplit, Text.size_append, Text.size_cons]
    omega
  refine ⟨String.ofList before, String.ofList (c :: rest), ?_, ?_, ?_, ?_, ?_⟩
  · rw [← String.ofList_append, ← hsplit, String.ofList_toList]
  · rw [hplace, Text.utf8ByteSize_ofList]
    rfl
  · rw [hplace]
    exact hbefore
  · have hcut' : Cut before [] := hcut.of_head? (by simp)
    rw [tokens_of_le (by rw [Text.utf8ByteSize_ofList]; omega), String.toList_ofList]
    exact hcut'.exists_tokens _
  rcases fault_cases hfault with ⟨hcause, rfl, body, rfl, hopen⟩ | ⟨hcause, hstray⟩
  · refine .inl ⟨hcause, String.ofList body, ?_, ?_⟩
    · rw [← String.toList_inj]
      simp
    · rwa [String.toList_ofList]
  · refine .inr ⟨c, String.ofList rest, ?_, hcause, hstray, fun other hother => ?_⟩
    · rw [← String.toList_inj]
      simp
    · have hcut' : Cut before (c :: other.toList) := hcut.of_head? (by simp)
      have htext : (String.ofList before ++ String.singleton c ++ other).toList =
          before ++ c :: other.toList := by simp
      rw [tokens_of_le hother, htext, hcut'.tokensFrom_stray hstray _ (by omega), ← hcause,
        ← hplace]

/-- A source with a stray character behind a slash, and the start and the end of a comment behind
that. -/
def strayed : String := "a/*@*/9/é/**/"

/-- Neither the slash nor the comment behind it makes a difference. -/
theorem tokens_eq_error_localised_strayed :
    strayed.utf8ByteSize ≤ maxSourceSize ∧
      tokens strayed none = .error ⟨.strayCharacter "é", ⟨8, "shell"⟩⟩ ∧
      ∃ before behind : String, strayed = before ++ behind ∧ before.utf8ByteSize = 8 ∧
        (∃ ts, tokens before none = .ok ts) ∧ IsStray 'é' ∧
        ∀ other : String, (before ++ "é" ++ other).utf8ByteSize ≤ maxSourceSize →
          tokens (before ++ "é" ++ other) none = .error ⟨.strayCharacter "é", ⟨8, "shell"⟩⟩ := by
  have hsize : strayed.utf8ByteSize ≤ maxSourceSize := by decide
  have h : tokens strayed none = .error ⟨.strayCharacter "é", ⟨8, "shell"⟩⟩ := by cbv
  obtain ⟨before, behind, hsplit, hplace, -, hbefore, hfault⟩ := tokens_eq_error_localised hsize h
  rcases hfault with hopen | ⟨c, rest, -, hcause, hstray, hsame⟩
  · cases hopen.1
  · have hc : c = 'é' := by
      have htext := congrArg String.toList (Cause.strayCharacter.inj hcause)
      simpa using htext.symm
    subst hc
    have hoffset := (congrArg Position.offset hplace).symm
    exact ⟨hsize, h, before, behind, hsplit, hoffset, hbefore, hstray, hsame⟩

end IntC.Lexer
