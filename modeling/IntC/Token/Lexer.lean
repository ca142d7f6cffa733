/-
# From text to tokens

At every place the first character decides what stands there (`front`): a word, a number, a run of
blanks, a comment, a mark, or something that is an error.  A word, a number and a run of blanks go
on for as long as their characters do; a line comment goes on up to the next newline; a block
comment is closed by the first `*/` after its opening.  `tokensFrom` repeats this to the end of the
text, and ends because every step reads at least one character.

* `commentTail?_eq_some_iff`: how a block comment is closed.
* `tokensFrom_kind`: the last token, and no other, is the end of the input.
-/
import IntC.Diagnostic
import IntC.Text.Blank
import IntC.Text.Size
import IntC.Token.Basic

namespace IntC.Lexer

/-! ## 1. What stands at the front of a text -/

/-- A character that a word can start with. -/
def isWordStart (c : Char) : Bool := c.isAlpha || c == '_'

/-- A character that a word can go on with. -/
def isWordChar (c : Char) : Bool := c.isAlphanum || c == '_'

/-- What stands at the front of a text.  `more` counts the characters after the first. -/
inductive Front
  | token (kind : Token.Kind) (more : Nat)
  | gap (more : Nat)
  | fault (cause : Cause)
  deriving DecidableEq, Repr

/-- The number of characters up to and including the first `*/`. -/
def commentTail? : List Char → Option Nat
  | '*' :: '/' :: _ => some 2
  | _ :: rest => (commentTail? rest).map (· + 1)
  | [] => none

/-- A block comment's closing is the first one: the text before it, even with the star that begins
it, holds no other. -/
theorem commentTail?_eq_some_iff {cs : List Char} {n : Nat} :
    commentTail? cs = some n ↔
      ∃ body rest, cs = body ++ '*' :: '/' :: rest ∧ n = body.length + 2 ∧
        ¬ ['*', '/'] <:+: body ++ ['*'] := by
  fun_induction commentTail? cs generalizing n with
  | case1 tail =>
    constructor
    · rintro ⟨⟩
      exact ⟨[], tail, rfl, rfl, by decide⟩
    · rintro ⟨body, rest, h, rfl, hfirst⟩
      cases body with
      | nil => rfl
      | cons b body =>
        obtain ⟨rfl, htail⟩ := List.cons.inj h
        refine absurd ?_ hfirst
        cases body with
        | nil => cases htail
        | cons b' body =>
          obtain ⟨rfl, -⟩ := List.cons.inj htail
          exact ⟨[], body ++ ['*'], rfl⟩
  | case2 c tail hne ih =>
    simp only [Option.map_eq_some_iff, ih]
    constructor
    · rintro ⟨_, ⟨body, rest, rfl, rfl, hfirst⟩, rfl⟩
      refine ⟨c :: body, rest, rfl, rfl, ?_⟩
      intro h
      rw [List.cons_append, List.infix_cons_iff] at h
      rcases h with h | h
      · obtain ⟨more, h⟩ := h
        obtain ⟨rfl, htail⟩ := List.cons.inj h
        cases body with
        | nil => cases htail
        | cons b body =>
          obtain ⟨rfl, -⟩ := List.cons.inj htail
          exact hne _ rfl rfl
      · exact hfirst h
    · rintro ⟨body, rest, h, rfl, hfirst⟩
      cases body with
      | nil =>
        obtain ⟨rfl, rfl⟩ := List.cons.inj h
        exact absurd rfl (hne _ rfl)
      | cons b body =>
        obtain ⟨rfl, rfl⟩ := List.cons.inj h
        refine ⟨_, ⟨body, rest, rfl, rfl, fun h => hfirst ?_⟩, rfl⟩
        rw [List.cons_append]
        exact List.infix_cons h
  | case3 => simp

/-- What a slash starts, given the text after it: a comment of either sort, or itself. -/
def frontSlash : List Char → Front
  | '/' :: rest => .gap (1 + (rest.takeWhile (· != '\n')).length)
  | '*' :: rest =>
    match commentTail? rest with
    | some tail => .gap (1 + tail)
    | none => .fault .openComment
  | _ => .token .slash 0

/-- What stands at the front of the text `c :: rest`. -/
def front (c : Char) (rest : List Char) : Front :=
  if isWordStart c then
    let tail := rest.takeWhile isWordChar
    .token (.ofWord (String.ofList (c :: tail))) tail.length
  else if c.isDigit then .token .number (rest.takeWhile Char.isDigit).length
  else if Text.isBlank c then .gap (rest.takeWhile Text.isBlank).length
  else if c = '/' then frontSlash rest
  else match Token.Kind.ofMark? c with
    | some kind => .token kind 0
    | none => .fault (.strayCharacter (String.singleton c))

/-- No text is read as an end token. -/
theorem front_kind_ne_eof {c : Char} {rest : List Char} {kind : Token.Kind} {more : Nat}
    (h : front c rest = .token kind more) : kind ≠ .eof := by
  rintro rfl
  unfold front at h
  split at h
  · rw [Front.token.injEq, Token.Kind.ofWord] at h
    obtain ⟨h, -⟩ := h
    split at h
    · cases h
    · split at h <;> cases h
  · split at h
    · cases h
    · split at h
      · cases h
      · split at h
        · unfold frontSlash at h
          split at h
          · cases h
          · split at h <;> cases h
          · cases h
        · split at h
          · next hmark =>
            cases h
            unfold Token.Kind.ofMark? at hmark
            split at hmark <;> cases hmark
          · cases h

/-! ## 2. The tokens of a text -/

/-- The token of a kind that is read from a text at byte `offset` of its file. -/
def tokenAt (file : String) (offset : Nat) (kind : Token.Kind) (text : List Char) : Token :=
  ⟨kind, String.ofList text, Span.ofBytes file offset (Text.size text)⟩

/-- The tokens of a text that starts at byte `offset` of its file, closed by the end token. -/
def tokensFrom (file : String) (offset : Nat) : List Char → Except Diagnostic (List Token)
  | [] => .ok [.endAt (Span.ofBytes file offset 0).start]
  | c :: rest =>
    match front c rest with
    | .fault cause => .error ⟨cause, (Span.ofBytes file offset 0).start⟩
    | .gap more =>
      tokensFrom file (offset + Text.size (c :: rest.take more)) (rest.drop more)
    | .token kind more => do
      let others ← tokensFrom file (offset + Text.size (c :: rest.take more)) (rest.drop more)
      return tokenAt file offset kind (c :: rest.take more) :: others
termination_by text => text.length
decreasing_by all_goals simp only [List.length_cons, List.length_drop]; omega

/-- A token list has an end token in its last place and nowhere else. -/
theorem tokensFrom_kind {file : String} {offset : Nat} {cs : List Char} {tokens : List Token}
    (h : tokensFrom file offset cs = .ok tokens) :
    ∃ body last, tokens = body ++ [last] ∧ last.kind = .eof ∧ ∀ t ∈ body, t.kind ≠ .eof := by
  fun_induction tokensFrom file offset cs generalizing tokens with
  | case1 offset =>
    cases h
    exact ⟨[], _, rfl, rfl, by simp⟩
  | case2 => cases h
  | case3 offset c rest more hfront ih => exact ih h
  | case4 offset c rest kind more hfront ih =>
    cases hrest : tokensFrom file (offset + Text.size (c :: rest.take more)) (rest.drop more) with
    | error e => rw [hrest] at h; cases h
    | ok others =>
      rw [hrest] at h
      cases h
      obtain ⟨body, last, rfl, hlast, hbody⟩ := ih hrest
      refine ⟨_ :: body, last, rfl, hlast, ?_⟩
      simpa using ⟨front_kind_ne_eof hfront, hbody⟩

/-- The name of a source that comes without one. -/
def defaultFile : String := "shell"

/-- The tokens of a source, or the first place where it has none. -/
def tokens (source : String) (file : Option String) : Except Diagnostic (List Token) :=
  let file := file.getD defaultFile
  if source.utf8ByteSize ≤ maxSourceSize then tokensFrom file 0 source.toList
  else .error ⟨.sourceTooLong maxSourceSize, ⟨0, file⟩⟩

/-! ## 3. Stepping through a text by hand -/

/-- A place in a text: what is left to read, and how many bytes have been read. -/
structure Reader where
  file : String
  offset : Nat
  rest : List Char
  deriving Repr

namespace Reader

/-- The start of a source. -/
def ofSource (source : String) (file : Option String) : Reader :=
  ⟨file.getD defaultFile, 0, source.toList⟩

/-- The span of the next `size` bytes. -/
def span (r : Reader) (size : Nat) : Span := .ofBytes r.file r.offset size

/-- The rest of a text after its first `size` bytes, unless they end inside a character or run past
the end. -/
def dropBytes? : Nat → List Char → Option (List Char)
  | 0, cs => some cs
  | _ + 1, [] => none
  | size + 1, c :: cs =>
    if c.utf8Size ≤ size + 1 then dropBytes? (size + 1 - c.utf8Size) cs else none

/-- The place `size` bytes further on, if it is one between two characters. -/
def advance? (r : Reader) (size : Nat) : Option Reader :=
  (dropBytes? size r.rest).map fun rest => { r with offset := r.offset + size, rest }

/-- The character at the place; past the last one there is the NUL character. -/
def here (r : Reader) : Char := r.rest.headD '\x00'

/-- Everything has been read. -/
def isAtEnd (r : Reader) : Bool := r.rest.isEmpty

end Reader

end IntC.Lexer
