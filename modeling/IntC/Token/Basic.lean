/-
# Tokens

A token has a kind, the text it was read from and the span of that text.  Sixteen kinds cover the
language: names, numbers, the two keywords, eleven marks and the end of the input.
-/
import IntC.Position

namespace IntC

/-- What sort of token it is. -/
inductive Token.Kind
  | eof
  | number
  | identifier
  | openCurly
  | closeCurly
  | openParen
  | closeParen
  | assignment
  | semicolon
  | comma
  | plus
  | dash
  | slash
  | star
  | int
  | ret
  deriving DecidableEq, Repr, Inhabited

/-- A token: its kind, its text and where the text stands. -/
structure Token where
  kind : Token.Kind
  value : String
  span : Span
  deriving DecidableEq, Repr, Inhabited

namespace Token

/-- The name of a kind, as listings show it. -/
def Kind.name : Kind → String
  | eof => "EOF"
  | number => "Number"
  | identifier => "Identifier"
  | openCurly => "OpenCurly"
  | closeCurly => "CloseCurly"
  | openParen => "OpenParen"
  | closeParen => "CloseParen"
  | assignment => "Assignment"
  | semicolon => "Semicolon"
  | comma => "Comma"
  | plus => "Plus"
  | dash => "Dash"
  | slash => "Slash"
  | star => "Star"
  | int => "Int"
  | ret => "Return"

/-- All kinds, in the order of their declaration. -/
def Kind.all : List Kind :=
  [eof, number, identifier, openCurly, closeCurly, openParen, closeParen, assignment, semicolon,
    comma, plus, dash, slash, star, int, ret]

/-- The kind with a given name. -/
def Kind.ofName? (name : String) : Option Kind := Kind.all.find? fun kind => kind.name == name

theorem Kind.ofName?_name (kind : Kind) : Kind.ofName? kind.name = some kind := by
  cases kind <;> decide

/-- The kind of a one-character mark. -/
def Kind.ofMark? : Char → Option Kind
  | '{' => some openCurly
  | '}' => some closeCurly
  | '(' => some openParen
  | ')' => some closeParen
  | '=' => some assignment
  | ';' => some semicolon
  | ',' => some comma
  | '+' => some plus
  | '-' => some dash
  | '/' => some slash
  | '*' => some star
  | _ => none

/-- The kind of a word: one of the two keywords, or an identifier. -/
def Kind.ofWord (word : String) : Kind :=
  if word = "int" then int else if word = "return" then ret else identifier

/-- The one text that tokens of a kind can have, for the kinds with only one. -/
def Kind.text? : Kind → Option String
  | eof => some "EOF"
  | number => none
  | identifier => none
  | openCurly => some (String.singleton '{')
  | closeCurly => some (String.singleton '}')
  | openParen => some "("
  | closeParen => some ")"
  | assignment => some "="
  | semicolon => some ";"
  | comma => some ","
  | plus => some "+"
  | dash => some "-"
  | slash => some "/"
  | star => some "*"
  | int => some "int"
  | ret => some "return"

/-- A mark's kind has exactly that mark as its text. -/
theorem Kind.text?_of_ofMark? {c : Char} {kind : Kind} (h : Kind.ofMark? c = some kind) :
    kind.text? = some (String.singleton c) := by
  unfold Kind.ofMark? at h
  split at h <;> cases h <;> rfl

/-- The token that closes every token list, standing at a position. -/
def endAt (p : Position) : Token := ⟨.eof, "EOF", .empty p⟩

/-- One line of a token listing.  Names and numbers show their text. -/
def summary (t : Token) : String :=
  match t.kind with
  | .identifier | .number =>
    t.kind.name ++ " (" ++ t.value ++ ") @ " ++ toString t.span.start.offset
  | _ => t.kind.name ++ " @ " ++ toString t.span.start.offset

end Token

end IntC
