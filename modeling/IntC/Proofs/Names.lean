/-
# Names do not matter

Give the functions and variables of a source other names, so that different names stay different
and the predeclared ones keep theirs.  The source is then read in the same way: as the same program
with the new names, or with the same kind of fault at the same place.

The two sources are a case of `Renaming`, with every token where it was before.

* `Renaming.ofInjective`: the maps on names that can be used.
* `ofTokens_rename`: renaming and then parsing is parsing and then renaming.
-/
import IntC.Proofs.Renaming

namespace IntC

/-- An injective map that keeps the names of the predeclared function and its parameter. -/
def Renaming.ofInjective (r : String → String) (hr : Function.Injective r)
    (hfunction : r "printnum" = "printnum") (hparam : r "i" = "i") : Renaming where
  toFun := r
  injective h := hr h
  fixed := by simpa [predeclared] using ⟨hfunction, hparam⟩

/-- The token with another name, if it is an identifier. -/
def Token.rename (ρ : Renaming) (t : Token) : Token := { t with value := (t.renamed ρ).2 }

/-- The second parse gives the program of the first with other names, or both fail with the same
label at the same position. -/
inductive RenamedOutcome (ρ : Renaming) :
    Except Diagnostic Program → Except Diagnostic Program → Prop
  | program (u : Program) : RenamedOutcome ρ (.ok u) (.ok (u.rename ρ))
  | fault {e e' : Diagnostic} (hlabel : e'.cause.label = e.cause.label)
      (hposition : e'.position = e.position) : RenamedOutcome ρ (.error e) (.error e')

@[simp] theorem Cause.label_rename (ρ : Renaming) (cause : Cause) :
    (cause.rename ρ).label = cause.label := by
  cases cause <;> rfl

variable {ρ : Renaming} {ts : List Token}

/-- Tokens at the same index of a list and of the renamed list stand at the same place. -/
theorem Twins.span_eq {t t' : Token} (h : Twins ρ ts (ts.map (Token.rename ρ)) t t') :
    t'.span = t.span := by
  obtain ⟨i, ht, ht'⟩ := h.place
  rw [List.getElem?_map, ht] at ht'
  obtain rfl := Option.some.inj ht'
  rfl

/-- Where the tokens stay in their places, faults that are the same but for the names have the same
label and the same position. -/
theorem SameFault.renamedOutcome {e e' : Diagnostic}
    (h : SameFault ρ ts (ts.map (Token.rename ρ)) e e') :
    RenamedOutcome ρ (.error e) (.error e') := by
  cases h with
  | token htwins => exact .fault rfl (by rw [htwins.span_eq])
  | names hplace cause =>
    obtain ⟨t, t', htwins, rfl, rfl⟩ := hplace
    exact .fault (cause.label_rename ρ) (by rw [htwins.span_eq])

/-- **Renaming equivariance.**  Apply an injective map that keeps the predeclared names to every
identifier of a token list that ends in an end token.  It is then accepted exactly if it was before,
with the map applied to every name in the program, and refused with the same label at the same
position if it was refused. -/
theorem ofTokens_rename {r : String → String} (hr : Function.Injective r)
    (hfunction : r "printnum" = "printnum") (hparam : r "i" = "i") {ts : List Token}
    (hend : ts.getLast?.map Token.kind = some .eof) (file : String) :
    let ρ := Renaming.ofInjective r hr hfunction hparam
    RenamedOutcome ρ (Program.ofTokens ts file)
      (Program.ofTokens (ts.map (Token.rename ρ)) file) := by
  intro ρ
  have hsame : (ts.map (Token.rename ρ)).map (fun t => (t.kind, t.value)) =
      ts.map (Token.renamed ρ) := by
    rw [List.map_map]
    rfl
  rcases ofTokens_alike hsame hend file file with ⟨u, hu, hu'⟩ | ⟨e, e', he, he', hfault⟩
  · rw [hu, hu']
    exact .program u
  · rw [he, he']
    exact hfault.renamedOutcome

/-- The map that exchanges the names `f` and `x`. -/
def exchanged (name : String) : String :=
  if name = "f" then "x" else if name = "x" then "f" else name

theorem exchanged_involutive : Function.Involutive exchanged := by
  intro name
  unfold exchanged
  by_cases hf : name = "f"
  · simp [hf]
  · by_cases hx : name = "x"
    · simp [hx]
    · simp [hf, hx]

/-- The tokens of a function `f` that calls the predeclared function with its parameter `x`. -/
def printing : List Token :=
  (Lexer.tokens "int f(int x){return printnum(x);}" none).toOption.getD []

/-- The program of a function that calls the predeclared one with its parameter. -/
def printingProgram (name param : String) : Program :=
  ⟨predeclared,
    [⟨⟨name, [param]⟩, ⟨[⟨param, .parameter⟩], [.ret (.call "printnum" [.var param])]⟩⟩]⟩

theorem ofTokens_rename_printing :
    let ρ := Renaming.ofInjective exchanged exchanged_involutive.injective rfl rfl
    Program.ofTokens printing "p" = .ok (printingProgram "f" "x") ∧
      Program.ofTokens (printing.map (Token.rename ρ)) "p" = .ok (printingProgram "x" "f") := by
  intro ρ
  have hread : Program.ofTokens printing "p" = .ok (printingProgram "f" "x") := by cbv
  have houtcome := ofTokens_rename exchanged_involutive.injective rfl rfl
    (show printing.getLast?.map Token.kind = some .eof by decide +kernel) "p"
  simp only [hread] at houtcome
  refine ⟨hread, ?_⟩
  generalize Program.ofTokens (printing.map (Token.rename ρ)) "p" = outcome at houtcome
  cases houtcome with
  | program => rfl

end IntC
