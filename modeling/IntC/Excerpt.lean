/-
# Excerpts

A report shows the source line it is about, with a caret under the place.

* `lineAt?` finds the line that holds a byte offset.  A line holds the offsets of its bytes, its
  newline included; the last line also holds the offset just past its end, if no newline closes it.
* `Diagnostic.render?` puts headline, file and excerpt together.
* `Diagnostic.render?_eq_none_iff`: a report fails exactly if the place is too far behind the
  indentation of its line.
-/
import IntC.Diagnostic
import IntC.Text.Blank
import IntC.Text.Size

namespace IntC

namespace Text

/-- The lines of a text, each with the newline that closes it.  The empty text has no lines. -/
def lines : List Char → List (List Char)
  | [] => []
  | c :: cs =>
    if c = '\n' then [c] :: lines cs
    else match lines cs with
      | [] => [[c]]
      | first :: rest => (c :: first) :: rest

end Text

/-- A line of a source: its number, its text with the newline, and a byte offset inside it. -/
structure Line where
  number : Nat
  text : List Char
  column : Nat
  deriving DecidableEq, Repr

namespace Line

/-- The line is closed by a newline. -/
def isClosed (line : List Char) : Bool := line.getLast? == some '\n'

/-- The line holds the offset, counted from its own start. -/
def holds (line : List Char) (offset : Nat) : Bool :=
  offset < Text.size line || (offset == Text.size line && !isClosed line)

/-- Looks for an offset in consecutive lines, of which the first has the given number. -/
def find? : List (List Char) → Nat → Nat → Option Line
  | [], number, offset => if offset = 0 then some ⟨number, [], 0⟩ else none
  | line :: rest, number, offset =>
    if holds line offset then some ⟨number, line, offset⟩
    else find? rest (number + 1) (offset - Text.size line)

end Line

/-- The line that holds a byte offset.  The end of a text that is empty or ends with a newline is
an empty line of its own. -/
def lineAt? (source : String) (offset : Nat) : Option Line :=
  Line.find? (Text.lines source.toList) 1 offset

namespace Excerpt

/-- A space or a tab, which is what lines are indented with. -/
def isIndent (c : Char) : Bool := c == ' ' || c == '\t'

/-- The number of spaces and tabs that a line starts with. -/
def indentation (line : List Char) : Nat := (line.takeWhile isIndent).length

/-- The line as it is shown: without its indentation, and without blanks at either end. -/
def shown (line : List Char) : List Char := Text.trim (line.drop (indentation line))

/-- The number of dashes before the caret: the bytes between the indentation and the place. -/
def dashes (line : Line) : Nat := line.column - indentation line.text

/-- The blank margin, as wide as a line number and a space, and its rule. -/
def margin (line : Line) : List Char :=
  List.replicate ((toString line.number).length + 1) ' ' ++ ['|']

/-- The widest row of dashes and caret that can be drawn: its width is kept in 16 bits. -/
def maxWidth : Nat := 65535

/-- The three rows of an excerpt, each after a newline: an empty one, the line, and the caret behind
its dashes. -/
def layout (line : Line) : String :=
  String.ofList <|
    ['\n'] ++ margin line ++
    ['\n'] ++ (toString line.number).toList ++ [' ', '|', ' '] ++ shown line.text ++
    ['\n'] ++ margin line ++ [' '] ++ List.replicate (dashes line) '-' ++ ['^']

/-- The rows of an excerpt.  There are none if the dashes and the caret behind them are more than
`maxWidth`. -/
def rows? (line : Line) : Option String :=
  if dashes line < maxWidth then some (layout line) else none

theorem rows?_eq_some_iff {line : Line} {excerpt : String} :
    rows? line = some excerpt ↔ dashes line < maxWidth ∧ excerpt = layout line := by
  simp [rows?, eq_comm]

theorem rows?_eq_none_iff {line : Line} : rows? line = none ↔ maxWidth ≤ dashes line := by
  simp [rows?]

end Excerpt

/-- The report of a diagnostic: headline, file and, if the source has the place, an excerpt.  If the
excerpt cannot be drawn, there is no report at all. -/
def Diagnostic.render? (d : Diagnostic) (source : String) : Option String :=
  let heading := d.headline ++ "\n-> " ++ d.position.file
  match lineAt? source d.position.offset with
  | none => some heading
  | some line => (Excerpt.rows? line).map (heading ++ ·)

/-- A diagnostic for a place in a line of the source is shown with an excerpt. -/
theorem Diagnostic.render?_of_rows? {d : Diagnostic} {source excerpt : String} {line : Line}
    (h : lineAt? source d.position.offset = some line) (hrows : Excerpt.rows? line = some excerpt) :
    d.render? source = some (d.headline ++ "\n-> " ++ d.position.file ++ excerpt) := by
  simp only [render?, h, hrows, Option.map_some]

/-- A report fails exactly if the place is too far behind the indentation of its line. -/
theorem Diagnostic.render?_eq_none_iff {d : Diagnostic} {source : String} :
    d.render? source = none ↔
      ∃ line, lineAt? source d.position.offset = some line ∧
        Excerpt.maxWidth ≤ Excerpt.dashes line := by
  cases h : lineAt? source d.position.offset with
  | none => simp [render?, h]
  | some line => simp [render?, h, Excerpt.rows?_eq_none_iff]

end IntC
