/-
# Rules for statements, declarations and whole sources

    program        := external* END
    external       := declaration | definition
    declaration    := prototype ';'
    definition     := prototype body
    prototype      := 'int' IDENT '(' ('int' IDENT (',' 'int' IDENT)*)? ')'
    body           := '{' variable* statement+ '}'
    variable       := 'int' IDENT ';'
    statement      := expression | return
    expression     := ';' | assignment ';'
    return         := 'return' assignment ';'

The last statement of a body has to be a return, the parameters and variables of a function have
different names, and a function is declared with one number of parameters and defined at most once.

As in the rules for expressions, a loop is bounded by the number of tokens left when it starts.
-/
import IntC.Grammar.Expr
import IntC.Token.Lexer

namespace IntC.Grammar

open Rule

/-! ## 1. Statements -/

/-- Reads an expression with its semicolon, or the semicolon alone. -/
def expressionStmt : Rule Stmt := backtrack do
  if (← currentKind) = .semicolon then
    let _ ← advance
    return .expr .empty
  else
    let value ← assignment
    let _ ← expect .semicolon
    return .expr value

/-- Reads a return with its value. -/
def returnStmt : Rule Stmt := backtrack do
  let _ ← expect .ret
  let value ← assignment
  let _ ← expect .semicolon
  return .ret value

/-- Reads a statement. -/
def stmt : Rule Stmt := do
  if (← currentKind) = .ret then returnStmt else expressionStmt

/-- Reads statements up to the first failure, which ends them and is handed on as a value. -/
def stmtsFrom : Nat → Rule (List Stmt × Diagnostic)
  | 0 => do return ([], ← look State.unexpected)
  | rounds + 1 => do
    match ← attempt stmt with
    | .ok first =>
      let (more, stop) ← stmtsFrom rounds
      return (first :: more, stop)
    | .error stop => return ([], stop)

/-! ## 2. Functions -/

/-- Reads a parameter, and for as long as a comma follows, another one.  `earlier` holds the names
that are taken. -/
def paramsFrom (earlier : List String) : Nat → Rule (List String)
  | 0 => unexpected
  | rounds + 1 => do
    let _ ← expect .int
    let param ← expect .identifier
    if earlier.contains param.value then
      failAt param.span.start (.repeatedParameter param.value)
    else if (← currentKind) = .comma then
      let _ ← advance
      let more ← paramsFrom (earlier ++ [param.value]) rounds
      return param.value :: more
    else return [param.value]

/-- Reads a signature. -/
def prototype : Rule Prototype := backtrack do
  let _ ← expect .int
  let name ← expect .identifier
  let _ ← expect .openParen
  let params ← if (← currentKind) = .int then paramsFrom [] (← tokensLeft) else pure []
  let _ ← expect .closeParen
  return ⟨name.value, params⟩

/-- Reads the declaration of a variable in a body. -/
def varDecl : Rule VarDecl := backtrack do
  let _ ← expect .int
  let name ← expect .identifier
  let _ ← expect .semicolon
  return ⟨name.value, .inBody⟩

/-- Takes a variable into scope; a name that is taken is reported at the given place. -/
def enterVariable (start : Position) (name : String) : Rule Unit := do
  match (← scope).declareVariable name with
  | .ok changed => update fun _ => changed
  | .error cause => failAt start cause

/-- Reads the declarations at the start of a body. -/
def varDeclsFrom : Nat → Rule (List VarDecl)
  | 0 => return []
  | rounds + 1 => do
    if (← currentKind) = .int then
      let start ← position
      let decl ← varDecl
      enterVariable start decl.name
      let more ← varDeclsFrom rounds
      return decl :: more
    else return []

/-- Reads the body of a function.  A failure inside a statement is reported unless the statements
end at the closing brace. -/
def body (p : Prototype) : Rule Body := backtrack do
  let _ ← expect .openCurly
  update fun scope => scope.enter p
  let decls ← varDeclsFrom (← tokensLeft)
  let (stmts, stop) ← stmtsFrom (← tokensLeft)
  if (← currentKind) = .closeCurly then
    if stmts.getLast?.any Stmt.isReturn then
      let _ ← expect .closeCurly
      return { decls := p.params.map (⟨·, .parameter⟩) ++ decls, stmts }
    else fail (.missingReturn p.name)
  else throw stop

/-- Reads the rest of a declaration whose signature has been read. -/
def declaration (p : Prototype) : Rule Prototype := backtrack do
  let start ← position
  let _ ← expect .semicolon
  match (← scope).checkPrototype p with
  | .ok _ =>
    update fun scope => scope.declare p
    return p
  | .error cause => failAt start cause

/-- Reads the rest of a definition whose signature has been read. -/
def definition (p : Prototype) : Rule FunctionDef := backtrack do
  match (← scope).checkPrototype p with
  | .ok _ =>
    let body ← body p
    update fun scope => scope.define p
    return ⟨p, body⟩
  | .error cause => fail cause

/-! ## 3. Whole sources -/

/-- Reads a declaration or a definition; the token after the signature tells which. -/
def external : Rule External := backtrack do
  let p ← prototype
  match ← currentKind with
  | .semicolon => return .prototype (← declaration p)
  | .openCurly => return .function (← definition p)
  | _ => unexpected

/-- Reads declarations and definitions up to the end. -/
def externalsFrom : Nat → Rule (List External)
  | 0 => return []
  | rounds + 1 => do
    if (← currentKind) = .eof then return []
    else
      let first ← external
      let more ← externalsFrom rounds
      return first :: more

/-- The program of a source that declares nothing: the functions that are always there. -/
def initialProgram : Program := { prototypes := predeclared }

/-- The state a source is read from: the first token, with nothing in scope but what always is. -/
def rewind (s : State) : State := { s with
  cursor := s.cursor.seek 0
  scope := .initial
  depth := 0 }

/-- Reads a whole source, from its first token on and in a fresh scope. -/
def program : Rule Program := fun s =>
  backtrack (do return initialProgram.addAll (← externalsFrom (← tokensLeft))) (rewind s)

end IntC.Grammar

namespace IntC

/-- The program of a token list, or the first thing that is wrong with it. -/
def Program.ofTokens (tokens : List Token) (file : String) : Except Diagnostic Program :=
  match Grammar.program (.start tokens file) with
  | .ok program _ => .ok program
  | .error diagnostic _ => .error diagnostic

/-- The program of a source, or the first thing that is wrong with it. -/
def Program.ofSource (source file : String) : Except Diagnostic Program := do
  Program.ofTokens (← Lexer.tokens source (some file)) file

end IntC
