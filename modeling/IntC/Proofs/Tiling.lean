/-
# How a text is cut up into tokens

A text is a row of tokens with gaps between them.  A gap is made of blanks and comments, and what
counts as the end of a line comment or as more of a word depends on the text behind it, so a gap and
a token are always looked at together with what follows (`Gap`, `Placed`).

* `tokensFrom_gap`: a gap is skipped, whatever stands behind it.
* `exists_tiled`: the tokens of a text stand in it one behind the other, with gaps between them.
* `tokens_eq_weave`: the tokens of a source, put together with the gaps, are the source.
* `tokens_interleave`: a row of token texts with separators between them has these tokens.
-/
import Mathlib
import IntC.Proofs.Written

namespace IntC.Lexer

/-! ## 1. Gaps -/

/-- One piece of a gap, in front of the text that follows it: a blank, a line comment up to the next
newline or the end of the text, or a block comment that is closed by the first `*/` after its
opening. -/
inductive GapPiece : List Char → List Char → Prop
  | blank {c : Char} {rest : List Char} (hc : Text.isBlank c = true) : GapPiece [c] rest
  | line {body rest : List Char} (hbody : '\n' ∉ body) (hrest : ∀ c ∈ rest.head?, c = '\n') :
      GapPiece ('/' :: '/' :: body) rest
  | block {body rest : List Char} (hbody : ¬ ['*', '/'] <:+: body ++ ['*']) :
      GapPiece ('/' :: '*' :: (body ++ ['*', '/'])) rest

/-- The first text is made of pieces of a gap, in front of the second. -/
inductive Gap : List Char → List Char → Prop
  | nil {rest : List Char} : Gap [] rest
  | cons {piece more rest : List Char} (hpiece : GapPiece piece (more ++ rest))
      (hmore : Gap more rest) : Gap (piece ++ more) rest

theorem GapPiece.gap {piece rest : List Char} (h : GapPiece piece rest) : Gap piece rest := by
  have hcons : Gap (piece ++ []) rest := .cons h .nil
  rwa [List.append_nil] at hcons

theorem Gap.append {gap gap' rest : List Char} (h : Gap gap (gap' ++ rest)) (h' : Gap gap' rest) :
    Gap (gap ++ gap') rest := by
  generalize htail : gap' ++ rest = tail at h
  induction h with
  | nil => exact h'
  | @cons piece more tail hpiece _ ih =>
    subst htail
    rw [List.append_assoc]
    refine .cons ?_ (ih rfl)
    rwa [List.append_assoc]

theorem gap_blanks {run rest : List Char} (h : ∀ c ∈ run, Text.isBlank c = true) :
    Gap run rest := by
  induction run with
  | nil => exact .nil
  | cons c run ih =>
    rw [List.forall_mem_cons] at h
    exact .cons (.blank h.1) (ih h.2)

/-- What is skipped at the front of a text is a gap. -/
theorem gap_of_front {c : Char} {rest : List Char} {more : Nat} (h : front c rest = .gap more) :
    Gap (c :: rest.take more) (rest.drop more) := by
  unfold front at h
  split at h
  · cases h
  split at h
  · cases h
  split at h
  · next hblank =>
    obtain ⟨htake, hall, -⟩ := run_spec Text.isBlank rest
    obtain rfl := Front.gap.inj h
    rw [htake]
    exact gap_blanks (List.forall_mem_cons.mpr ⟨hblank, hall⟩)
  split at h
  · next hslash =>
    subst hslash
    unfold frontSlash at h
    split at h
    · next rest =>
      obtain ⟨htake, hall, hend⟩ := run_spec (· != '\n') rest
      obtain rfl := Front.gap.inj h
      rw [Nat.add_comm, List.take_succ_cons, List.drop_succ_cons, htake]
      refine (GapPiece.line ?_ ?_).gap
      · intro hmem
        simpa using hall _ hmem
      · intro d hd
        simpa using hend d hd
    · next rest =>
      split at h
      · next tail htail =>
        obtain ⟨body, behind, rfl, rfl, hfirst⟩ := commentTail?_eq_some_iff.mp htail
        obtain rfl := Front.gap.inj h
        have hsplit : body ++ '*' :: '/' :: behind = (body ++ ['*', '/']) ++ behind := by simp
        have hlength : body.length + 2 = (body ++ ['*', '/']).length := by simp
        rw [Nat.add_comm, List.take_succ_cons, List.drop_succ_cons, hsplit, hlength,
          List.take_left, List.drop_left]
        exact (GapPiece.block hfirst).gap
      · cases h
    · cases h
  · split at h <;> cases h

/-! ## 2. Gaps are skipped -/

/-- A piece of a gap is skipped. -/
theorem tokensFrom_gapPiece {file : String} {offset : Nat} {piece rest : List Char}
    (h : GapPiece piece rest) :
    tokensFrom file offset (piece ++ rest) = tokensFrom file (offset + Text.size piece) rest := by
  have hslash (rest : List Char) : front '/' rest = frontSlash rest := by
    rw [front, if_neg (by decide), if_neg (by decide), if_neg (by decide), if_pos rfl]
  cases h with
  | blank hc => simpa using tokensFrom_blank hc
  | @line body _ hbody hrest =>
    have hrun : (body ++ rest).takeWhile (· != '\n') = body := by
      refine takeWhile_append_of_stops ?_ ?_
      · intro d hd
        simpa using fun heq : d = '\n' => hbody (heq ▸ hd)
      · intro d hd
        simpa using hrest d hd
    have hfront : front '/' ('/' :: (body ++ rest)) = .gap (1 + body.length) := by
      rw [hslash, frontSlash, hrun]
    rw [List.cons_append, List.cons_append, tokensFrom, hfront]
    simp only [Nat.add_comm 1, List.take_succ_cons, List.drop_succ_cons, List.take_left,
      List.drop_left]
  | @block body _ hbody =>
    have htail : commentTail? (body ++ '*' :: '/' :: rest) = some (body.length + 2) :=
      commentTail?_eq_some_iff.mpr ⟨body, rest, rfl, rfl, hbody⟩
    have hfront : front '/' ('*' :: (body ++ '*' :: '/' :: rest)) =
        .gap (1 + (body ++ ['*', '/']).length) := by
      rw [hslash, frontSlash, htail]
      simp
    have hsplit : body ++ '*' :: '/' :: rest = (body ++ ['*', '/']) ++ rest := by simp
    rw [List.cons_append, List.cons_append, ← hsplit, tokensFrom, hfront]
    simp only [Nat.add_comm 1, List.take_succ_cons, List.drop_succ_cons, hsplit, List.take_left,
      List.drop_left]

/-- **A gap is skipped**, whatever comes of the text behind it. -/
theorem tokensFrom_gap {file : String} {gap rest : List Char} (h : Gap gap rest) :
    ∀ {offset : Nat},
      tokensFrom file offset (gap ++ rest) = tokensFrom file (offset + Text.size gap) rest := by
  induction h with
  | nil => simp
  | cons hpiece _ ih =>
    intro offset
    rw [List.append_assoc, tokensFrom_gapPiece hpiece, ih, Text.size_append, Nat.add_assoc]

/-! ## 3. Tilings -/

/-- The token stands between the text that goes before the gap in front of it and the text behind:
its text is one that its kind admits and that the text behind does not continue, and its span is
the bytes it takes. -/
structure Placed (file : String) (before gap : List Char) (t : Token) (behind : List Char) :
    Prop where
  isGap : Gap gap (t.value.toList ++ behind)
  nonempty : t.value ≠ ""
  text : Admits t.kind t.value
  stops : Stops t.kind behind
  span : t.span = ⟨⟨Text.size (before ++ gap), file⟩,
    ⟨Text.size (before ++ gap ++ t.value.toList), file⟩⟩

/-- Gaps and the tokens behind them, put together. -/
def weave (pieces : List (List Char × Token)) : List Char :=
  pieces.flatMap fun (gap, t) => gap ++ t.value.toList

@[simp] theorem weave_nil : weave [] = [] := rfl

@[simp] theorem weave_cons (gap : List Char) (t : Token) (more : List (List Char × Token)) :
    weave ((gap, t) :: more) = gap ++ t.value.toList ++ weave more := rfl

/-- The tokens stand behind the text `before`, each in its place, up to a last gap. -/
def Tiled (file : String) (last : List Char) : List Char → List (List Char × Token) → Prop
  | _, [] => Gap last []
  | before, (gap, t) :: more =>
    Placed file before gap t (weave more ++ last) ∧
      Tiled file last (before ++ gap ++ t.value.toList) more

theorem Tiled.gap {file : String} {last before : List Char} {pieces : List (List Char × Token)}
    (h : Tiled file last before pieces) : Gap last [] := by
  induction pieces generalizing before with
  | nil => exact h
  | cons piece more ih => exact ih h.2

/-- Every token of a tiling is in its place. -/
theorem Tiled.placed {file : String} {last gap : List Char} {t : Token}
    {front back : List (List Char × Token)} {before : List Char}
    (h : Tiled file last before (front ++ (gap, t) :: back)) :
    Placed file (before ++ weave front) gap t (weave back ++ last) := by
  induction front generalizing before with
  | nil => simpa using h.1
  | cons piece front ih =>
    obtain ⟨gap', t'⟩ := piece
    simpa using ih h.2

/-- A gap in front of a tiling becomes part of its first gap. -/
theorem Tiled.skip {file : String} {last before gap : List Char}
    {pieces : List (List Char × Token)} (hgap : Gap gap (weave pieces ++ last))
    (h : Tiled file last (before ++ gap) pieces) :
    ∃ pieces' last', Tiled file last' before pieces' ∧
      weave pieces' ++ last' = gap ++ (weave pieces ++ last) ∧
      pieces'.map Prod.snd = pieces.map Prod.snd := by
  cases pieces with
  | nil => exact ⟨[], gap ++ last, Gap.append (by simpa using hgap) h, by simp, rfl⟩
  | cons piece more =>
    obtain ⟨gap', t⟩ := piece
    obtain ⟨⟨hgap', hne, htext, hstops, hspan⟩, hmore⟩ := h
    have hjoin : Gap (gap ++ gap') (t.value.toList ++ (weave more ++ last)) := by
      refine Gap.append ?_ hgap'
      simpa using hgap
    refine ⟨(gap ++ gap', t) :: more, last, ⟨⟨hjoin, hne, htext, hstops, ?_⟩, ?_⟩, ?_, rfl⟩
    · simpa using hspan
    · simpa using hmore
    · simp

theorem toList_value_tokenAt (file : String) (offset : Nat) (kind : Token.Kind)
    (text : List Char) : (tokenAt file offset kind text).value.toList = text :=
  String.toList_ofList

/-- A token that has just been cut off stands in its place. -/
theorem placed_tokenAt {file : String} {before text behind : List Char} {kind : Token.Kind}
    (htext : IsText kind text) (hstops : Stops kind behind)
    (hsize : Text.size before + Text.size text ≤ maxSourceSize) :
    Placed file before [] (tokenAt file (Text.size before) kind text) behind := by
  have hvalue := toList_value_tokenAt file (Text.size before) kind text
  refine ⟨.nil, ?_, ?_, hstops, ?_⟩
  · rw [ne_eq, ← String.toList_eq_nil_iff, hvalue]
    rintro rfl
    cases htext
  · rw [← isText_iff_admits, hvalue]
    exact htext
  · rw [hvalue]
    simp [tokenAt, Span.ofBytes_of_le hsize]

theorem size_take_add_drop (c : Char) (rest : List Char) (more : Nat) :
    Text.size (c :: rest.take more) + Text.size (rest.drop more) = Text.size (c :: rest) := by
  rw [← Text.size_append, List.cons_append, List.take_append_drop]

/-- **The tokens of a text tile it**, from the text before it on. -/
theorem exists_tiled {file : String} {offset : Nat} {cs : List Char} {tokens : List Token}
    (h : tokensFrom file offset cs = .ok tokens) :
    ∀ before : List Char, Text.size before = offset → offset + Text.size cs ≤ maxSourceSize →
      ∃ pieces last, cs = weave pieces ++ last ∧
        tokens = pieces.map Prod.snd ++ [.endAt ⟨offset + Text.size cs, file⟩] ∧
        Tiled file last before pieces := by
  fun_induction tokensFrom file offset cs generalizing tokens with
  | case1 offset =>
    intro before _ hsize
    cases h
    refine ⟨[], [], rfl, ?_, .nil⟩
    rw [Text.size_nil] at hsize ⊢
    rw [Span.ofBytes_of_le hsize]
    rfl
  | case2 => cases h
  | case3 offset c rest more hfront ih =>
    intro before hbefore hsize
    rw [← size_take_add_drop c rest more] at hsize ⊢
    obtain ⟨pieces, last, htext, htokens, htiled⟩ := ih h
      (before ++ (c :: rest.take more)) (by rw [Text.size_append, hbefore]) (by omega)
    have hgap := gap_of_front hfront
    rw [htext] at hgap
    obtain ⟨pieces', last', htiled', hweave, hsame⟩ := htiled.skip hgap
    refine ⟨pieces', last', ?_, ?_, htiled'⟩
    · rw [hweave, ← htext, List.cons_append, List.take_append_drop]
    · rw [hsame, htokens, Nat.add_assoc]
  | case4 offset c rest kind more hfront ih =>
    intro before hbefore hsize
    rw [← size_take_add_drop c rest more] at hsize ⊢
    cases hrest : tokensFrom file (offset + Text.size (c :: rest.take more)) (rest.drop more) with
    | error e => rw [hrest] at h; cases h
    | ok others =>
      rw [hrest] at h
      cases h
      obtain ⟨pieces, last, htext, rfl, htiled⟩ := ih hrest
        (before ++ (c :: rest.take more)) (by rw [Text.size_append, hbefore]) (by omega)
      obtain ⟨hkind, hstops⟩ := isText_of_front hfront
      rw [htext] at hstops
      refine ⟨([], tokenAt file offset kind (c :: rest.take more)) :: pieces, last, ?_, ?_, ?_, ?_⟩
      · rw [weave_cons, toList_value_tokenAt, List.nil_append, List.append_assoc, ← htext,
          List.cons_append, List.take_append_drop]
      · rw [← Nat.add_assoc]
        rfl
      · subst hbefore
        exact placed_tokenAt hkind hstops (by omega)
      · rw [toList_value_tokenAt, List.append_nil]
        exact htiled

/-- **Token tiling.**  A source that has tokens is made of gaps and the texts of its tokens in turn.
Each token stands in its place, no token but the last is an end token, and the last one stands at
the end of the source.  A source without a name is called `shell`. -/
theorem tokens_eq_weave {source : String} {file : Option String} {ts : List Token}
    (h : tokens source file = .ok ts) :
    ∃ pieces last, source.toList = weave pieces ++ last ∧ Gap last [] ∧
      ts = pieces.map Prod.snd ++ [⟨.eof, "EOF", ⟨⟨source.utf8ByteSize, file.getD "shell"⟩,
        ⟨source.utf8ByteSize, file.getD "shell"⟩⟩⟩] ∧
      (∀ t ∈ pieces.map Prod.snd, t.kind ≠ .eof) ∧
      ∀ front gap t back, pieces = front ++ (gap, t) :: back →
        Placed (file.getD "shell") (weave front) gap t (weave back ++ last) := by
  obtain ⟨hsize, hfrom⟩ := tokens_eq_ok_iff.mp h
  rw [← Text.size_toList] at hsize
  obtain ⟨pieces, last, htext, htokens, htiled⟩ :=
    exists_tiled hfrom [] rfl (by simpa using hsize)
  have hplaced : ∀ front gap t back, pieces = front ++ (gap, t) :: back →
      Placed (file.getD "shell") (weave front) gap t (weave back ++ last) := by
    rintro front gap t back rfl
    exact htiled.placed
  refine ⟨pieces, last, htext, htiled.gap, ?_, ?_, hplaced⟩
  · rw [htokens, Nat.zero_add, Text.size_toList]
    rfl
  · intro t ht hkind
    obtain ⟨⟨gap, _⟩, hmem, rfl⟩ := List.mem_map.mp ht
    obtain ⟨front, back, hsplit⟩ := List.append_of_mem hmem
    have htext' := (hplaced front gap _ back hsplit).text
    rw [hkind] at htext'
    exact htext'

/-- A source with comments, one of them closed behind a second star, and a slash of its own. -/
def slashes : String := "x/*é**/ /9// z"

/-- The tokens of `slashes`, in a source without a name. -/
def slashesTokens : List Token :=
  [⟨.identifier, "x", ⟨⟨0, "shell"⟩, ⟨1, "shell"⟩⟩⟩, ⟨.slash, "/", ⟨⟨9, "shell"⟩, ⟨10, "shell"⟩⟩⟩,
    ⟨.number, "9", ⟨⟨10, "shell"⟩, ⟨11, "shell"⟩⟩⟩, ⟨.eof, "EOF", ⟨⟨15, "shell"⟩, ⟨15, "shell"⟩⟩⟩]

theorem tokens_eq_weave_slashes :
    tokens slashes none = .ok slashesTokens ∧
      ∃ pieces last, slashes.toList = weave pieces ++ last ∧ Gap last [] ∧
        slashesTokens = pieces.map Prod.snd ++ [⟨.eof, "EOF", ⟨⟨15, "shell"⟩, ⟨15, "shell"⟩⟩⟩] ∧
        (∀ t ∈ pieces.map Prod.snd, t.kind ≠ .eof) ∧
        ∀ front gap t back, pieces = front ++ (gap, t) :: back →
          Placed "shell" (weave front) gap t (weave back ++ last) := by
  have h : tokens slashes none = .ok slashesTokens := by cbv
  exact ⟨h, tokens_eq_weave h⟩

/-! ## 4. Texts with separators between them -/

/-- Blanks, line comments with the newline that ends them, and closed block comments. -/
inductive Filler : List Char → Prop
  | nil : Filler []
  | blank {c : Char} {more : List Char} (hc : Text.isBlank c = true) (hmore : Filler more) :
      Filler (c :: more)
  | line {body more : List Char} (hbody : '\n' ∉ body) (hmore : Filler more) :
      Filler ('/' :: '/' :: (body ++ '\n' :: more))
  | block {body more : List Char} (hbody : ¬ ['*', '/'] <:+: body) (hmore : Filler more) :
      Filler ('/' :: '*' :: (body ++ '*' :: '/' :: more))

/-- A separator starts with a blank. -/
def IsSeparator (sep : List Char) : Prop :=
  ∃ c more, sep = c :: more ∧ Text.isBlank c = true ∧ Filler more

/-- One more star does not close a comment. -/
theorem not_closed_append_star {body : List Char} (h : ¬ ['*', '/'] <:+: body) :
    ¬ ['*', '/'] <:+: body ++ ['*'] := by
  intro hinfix
  rcases List.infix_concat_iff.mp hinfix with hsuffix | hinfix
  · obtain ⟨front, hfront⟩ := hsuffix
    have hlast := congrArg List.getLast? hfront
    simp at hlast
  · exact h hinfix

/-- A filler is a gap, whatever stands behind it. -/
theorem Filler.gap {filler : List Char} (h : Filler filler) (rest : List Char) :
    Gap filler rest := by
  induction h with
  | nil => exact .nil
  | blank hc _ ih => exact .cons (.blank hc) ih
  | @line body more hbody _ ih =>
    have hnewline : Gap ('\n' :: more) rest := .cons (.blank rfl) ih
    have hcons : Gap (('/' :: '/' :: body) ++ '\n' :: more) rest :=
      .cons (.line hbody (by simp)) hnewline
    exact hcons
  | @block body more hbody _ ih =>
    have hcons : Gap (('/' :: '*' :: (body ++ ['*', '/'])) ++ more) rest :=
      .cons (.block (not_closed_append_star hbody)) ih
    simpa using hcons

theorem IsSeparator.gap {sep : List Char} (h : IsSeparator sep) (rest : List Char) :
    Gap sep rest := by
  obtain ⟨c, more, rfl, hc, hmore⟩ := h
  exact .cons (.blank hc) (hmore.gap rest)

/-- No token goes on into a blank. -/
theorem continues_of_isBlank {c : Char} (hc : Text.isBlank c = true) (kind : Token.Kind) :
    continues kind c = false := by
  have hdigit := isDigit_of_isBlank hc
  have hword : isWordChar c = false := by
    have hstart := isWordStart_of_isBlank hc
    simp only [isWordStart, isWordChar, Char.isAlphanum, Bool.or_eq_false_iff] at hstart ⊢
    exact ⟨⟨hstart.1, hdigit⟩, hstart.2⟩
  have hslash : (c == '/' || c == '*') = false := by
    rw [← Bool.not_eq_true]
    simp only [Bool.or_eq_true, beq_iff_eq]
    rintro (rfl | rfl)
    · cases hc
    · cases hc
  cases kind with
  | identifier | int | ret => exact hword
  | number => exact hdigit
  | slash => exact hslash
  | _ => rfl

theorem IsSeparator.stops {sep : List Char} (h : IsSeparator sep) (kind : Token.Kind)
    (rest : List Char) : Stops kind (sep ++ rest) := by
  obtain ⟨c, more, rfl, hc, -⟩ := h
  rintro _ ⟨⟩
  exact continues_of_isBlank hc kind

theorem HasTokens.gap {gap rest : List Char} {ts : List (Token.Kind × String)} (hgap : Gap gap rest)
    (h : HasTokens rest ts) : HasTokens (gap ++ rest) ts := by
  intro file offset
  rw [tokensFrom_gap hgap]
  exact h file _

/-- The texts in their order, with a separator behind each for as long as there are separators. -/
def interleave : List String → List (List Char) → List Char
  | [], _ => []
  | text :: texts, [] => text.toList ++ interleave texts []
  | text :: texts, sep :: seps => text.toList ++ (sep ++ interleave texts seps)

/-- With separators at least between them, the texts are tokens of their own. -/
theorem hasTokens_interleave {words : List (Token.Kind × String)} {seps : List (List Char)}
    (hwords : ∀ word ∈ words, Admits word.1 word.2) (hseps : ∀ sep ∈ seps, IsSeparator sep)
    (hlength : words.length ≤ seps.length + 1) :
    HasTokens (interleave (words.map Prod.snd) seps) words := by
  induction words generalizing seps with
  | nil => exact hasTokens_nil
  | cons word words ih =>
    obtain ⟨kind, text⟩ := word
    rw [List.forall_mem_cons] at hwords
    obtain ⟨htext, hwords⟩ := hwords
    cases seps with
    | nil =>
      obtain rfl : words = [] := by simpa using hlength
      exact .token (isText_iff_admits.mpr htext) (by simp [Stops, interleave]) hasTokens_nil
    | cons sep seps =>
      rw [List.forall_mem_cons] at hseps
      obtain ⟨hsep, hseps⟩ := hseps
      have hrest := ih hwords hseps (by simpa using hlength)
      exact .token (isText_iff_admits.mpr htext) (hsep.stops kind _) (.gap (hsep.gap _) hrest)

/-- **Separated texts are read as they are.**  Texts that their kinds admit, with a separator between
any two, and maybe one in front of the first and one behind the last, have exactly these kinds and
texts as their tokens, and the end token behind them. -/
theorem tokens_interleave {words : List (Token.Kind × String)} {seps : List (List Char)}
    {lead : List Char} (hwords : ∀ word ∈ words, Admits word.1 word.2)
    (hseps : ∀ sep ∈ seps, IsSeparator sep) (hlength : words.length ≤ seps.length + 1)
    (hlead : lead = [] ∨ IsSeparator lead) {source : String}
    (hsource : source.toList = lead ++ interleave (words.map Prod.snd) seps)
    (hsize : source.utf8ByteSize ≤ maxSourceSize) (file : Option String) :
    ∃ body last, tokens source file = .ok (body ++ [last]) ∧
      body.map (fun t => (t.kind, t.value)) = words ∧ last.kind = .eof ∧ last.value = "EOF" := by
  have hlead' : Gap lead (interleave (words.map Prod.snd) seps) := by
    rcases hlead with rfl | hlead
    · exact .nil
    · exact hlead.gap _
  have hall : HasTokens source.toList words := by
    rw [hsource]
    exact .gap hlead' (hasTokens_interleave hwords hseps hlength)
  obtain ⟨body, last, hfrom, hlast, hbody⟩ := hall (file.getD defaultFile) 0
  refine ⟨body, last, tokens_eq_ok_iff.mpr ⟨hsize, hfrom⟩, hbody, hlast, ?_⟩
  rcases isText_of_mem_tokensFrom hfrom last (by simp) with h | h
  · exact h.2
  · rw [hlast, isText_iff_admits] at h
    exact h.elim

/-- Separators whose comments look like the start or the end of others. -/
def separators : List (List Char) :=
  [" /*/ // */".toList, " //*/\n".toList, "\u3000/***/".toList]

theorem tokens_interleave_separators :
    (∀ sep ∈ separators, IsSeparator sep) ∧
      ∃ body last, tokens "int1 /*/ // *// //*/\n*\u3000/***/007" none = .ok (body ++ [last]) ∧
        body.map (fun t => (t.kind, t.value)) =
          [(.identifier, "int1"), (.slash, "/"), (.star, "*"), (.number, "007")] ∧
        last.kind = .eof ∧ last.value = "EOF" := by
  have hseps : ∀ sep ∈ separators, IsSeparator sep := by
    simp only [separators, List.forall_mem_cons]
    exact ⟨⟨' ', _, rfl, rfl, @Filler.block ['/', ' ', '/', '/', ' '] [] (by decide) .nil⟩,
      ⟨' ', _, rfl, rfl, @Filler.line ['*', '/'] [] (by decide) .nil⟩,
      ⟨'\u3000', _, rfl, rfl, @Filler.block ['*'] [] (by decide) .nil⟩, by simp⟩
  have hname : Admits .identifier "int1" :=
    ⟨⟨'i', ['n', 't', '1'], rfl, rfl, by simp [isWordChar]⟩, by decide, by decide⟩
  have hnumber : Admits .number "007" := ⟨by decide, List.all_eq_true.mp rfl⟩
  have hlead : ([] : List Char) = [] ∨ IsSeparator [] := .inl rfl
  refine ⟨hseps, tokens_interleave ?_ hseps (by decide) hlead rfl (by decide) none⟩
  simp only [List.forall_mem_cons]
  exact ⟨hname, rfl, rfl, hnumber, by simp⟩

end IntC.Lexer
