/-
# Texts and the tokens they are written with

`Written cs ts` says that the text `cs` consists of the kinds and texts `ts` in their order, with
blanks between them, so that no token goes on into what follows it.  Such a text has exactly these
tokens, whatever its file and place (`Written.hasTokens`).

* `IsText`: the texts that tokens of a kind can have, by how they are read.  `Admits` says the same
  kind by kind (`isText_iff_admits`).
* `Stops`: what follows does not continue a token of the kind.  A word goes on with letters, digits
  and underscores, a number with digits, and a slash would start a comment.
* `front_of_isText`, `isText_of_front`: what is cut off the front of a text is a token's text, and
  one that nothing continues is cut off whole.
* `tokensFrom_blank`, `tokensFrom_token`: what a blank and a token do for the tokens of a text.
-/
import IntC.Token.Lexer

namespace IntC.Lexer

/-! ## 1. The texts of tokens -/

/-- The texts that a token of a kind can have. -/
inductive IsText : Token.Kind → List Char → Prop
  | word {c : Char} {cs : List Char} (hc : isWordStart c = true)
      (hcs : ∀ d ∈ cs, isWordChar d = true) : IsText (.ofWord (String.ofList (c :: cs))) (c :: cs)
  | number {c : Char} {cs : List Char} (hc : c.isDigit = true)
      (hcs : ∀ d ∈ cs, d.isDigit = true) : IsText .number (c :: cs)
  | mark {c : Char} {kind : Token.Kind} (h : Token.Kind.ofMark? c = some kind) : IsText kind [c]

/-- A letter or an underscore, and then letters, digits and underscores. -/
def IsName (text : String) : Prop :=
  ∃ c cs, text.toList = c :: cs ∧ isWordStart c = true ∧ ∀ d ∈ cs, isWordChar d = true

/-- The texts that a token of the kind can have: names that are no keywords, rows of digits, or the
one text of the kind.  No text is read as an end token. -/
def Admits : Token.Kind → String → Prop
  | .identifier, text => IsName text ∧ text ≠ "int" ∧ text ≠ "return"
  | .number, text => text ≠ "" ∧ ∀ c ∈ text.toList, c.isDigit = true
  | .eof, _ => False
  | kind, text => kind.text? = some text

theorem IsName.isText {text : String} (h : IsName text) :
    IsText (.ofWord text) text.toList := by
  obtain ⟨c, cs, htext, hc, hcs⟩ := h
  have hword : IsText (.ofWord (String.ofList (c :: cs))) (c :: cs) := .word hc hcs
  rw [← htext, String.ofList_toList] at hword
  exact hword

/-- A word is an identifier unless it is one of the keywords. -/
theorem IsName.admits {text : String} (h : IsName text) : Admits (.ofWord text) text := by
  unfold Token.Kind.ofWord
  split
  · next hint => rw [hint]; rfl
  · next hint =>
    split
    · next hret => rw [hret]; rfl
    · next hret => exact ⟨h, hint, hret⟩

/-- What can be read as a token of a kind is what the kind admits. -/
theorem isText_iff_admits {kind : Token.Kind} {text : String} :
    IsText kind text.toList ↔ Admits kind text := by
  constructor
  · generalize hcs : text.toList = cs
    intro h
    cases h with
    | @word c cs hc hcs' =>
      rw [← hcs, String.ofList_toList]
      exact IsName.admits ⟨c, cs, hcs, hc, hcs'⟩
    | number hc hcs' =>
      refine ⟨?_, ?_⟩
      · rintro rfl
        simp at hcs
      · rw [hcs]
        exact List.forall_mem_cons.mpr ⟨hc, hcs'⟩
    | @mark c _ h =>
      have htext : text = String.singleton c := by
        rw [← String.toList_inj, hcs, String.toList_singleton]
      have hfixed := Token.Kind.text?_of_ofMark? h
      rw [← htext] at hfixed
      unfold Token.Kind.ofMark? at h
      split at h <;> cases h <;> exact hfixed
  · intro h
    have hint : IsName "int" := ⟨'i', ['n', 't'], rfl, rfl, by simp [isWordChar]⟩
    have hret : IsName "return" :=
      ⟨'r', ['e', 't', 'u', 'r', 'n'], rfl, rfl, by simp [isWordChar]⟩
    cases kind with
    | eof => exact h.elim
    | identifier =>
      obtain ⟨hname, hne, hne'⟩ := h
      have hkind : Token.Kind.ofWord text = .identifier := by
        rw [Token.Kind.ofWord, if_neg hne, if_neg hne']
      rw [← hkind]
      exact hname.isText
    | number =>
      obtain ⟨hne, hdigits⟩ := h
      cases hcs : text.toList with
      | nil => exact absurd (String.toList_eq_nil_iff.mp hcs) hne
      | cons c cs =>
        rw [hcs, List.forall_mem_cons] at hdigits
        exact .number hdigits.1 hdigits.2
    | int => rw [← Option.some.inj h]; exact hint.isText
    | ret => rw [← Option.some.inj h]; exact hret.isText
    | _ => rw [← Option.some.inj h]; exact .mark rfl

/-- A kind with only one text has that text. -/
theorem Admits.eq_of_text? {kind : Token.Kind} {text fixed : String} (h : Admits kind text)
    (hfixed : kind.text? = some fixed) : text = fixed := by
  cases kind with
  | eof => exact h.elim
  | number | identifier => cases hfixed
  | _ => exact Option.some.inj (h.symm.trans hfixed)

/-- The characters that continue a token of a kind. -/
def continues : Token.Kind → Char → Bool
  | .identifier | .int | .ret => isWordChar
  | .number => Char.isDigit
  | .slash => fun c => c == '/' || c == '*'
  | _ => fun _ => false

/-- The text does not continue a token of the kind that stands before it. -/
def Stops (kind : Token.Kind) (rest : List Char) : Prop :=
  ∀ c ∈ rest.head?, continues kind c = false

/-! ## 2. Words, numbers, blanks and marks start differently -/

theorem toNat_of_isWordStart {c : Char} (h : isWordStart c = true) :
    65 ≤ c.toNat ∧ c.toNat ≤ 122 := by
  have hranges : (decide (c.val ≥ 65 ∧ c.val ≤ 90) ||
      (decide (c.val ≥ 97) && decide (c.val ≤ 122)) || c == '_') = true := h
  simp only [Bool.or_eq_true, Bool.and_eq_true, decide_eq_true_eq, beq_iff_eq, ge_iff_le,
    UInt32.le_iff_toNat_le] at hranges
  rcases hranges with (h | h) | rfl
  · exact ⟨h.1, Nat.le_trans h.2 (by decide)⟩
  · exact ⟨Nat.le_trans (by decide) h.1, h.2⟩
  · decide

theorem toNat_of_isDigit {c : Char} (h : c.isDigit = true) : 48 ≤ c.toNat ∧ c.toNat ≤ 57 := by
  simp only [Char.isDigit, Bool.and_eq_true, decide_eq_true_eq, ge_iff_le,
    UInt32.le_iff_toNat_le] at h
  exact h

theorem toNat_of_isBlank {c : Char} (h : Text.isBlank c = true) :
    c.toNat ≤ 32 ∨ 133 ≤ c.toNat := by
  simp only [Text.isBlank, Bool.or_eq_true, Bool.and_eq_true, decide_eq_true_eq, beq_iff_eq,
    Char.le_def, UInt32.le_iff_toNat_le] at h
  rcases h with (((((((((h | rfl) | rfl) | rfl) | rfl) | h) | rfl) | rfl) | rfl) | rfl) | rfl
  · exact .inl (Nat.le_trans h.2 (by decide))
  · decide
  · decide
  · decide
  · decide
  · exact .inr (Nat.le_trans (by decide) h.1)
  · decide
  · decide
  · decide
  · decide
  · decide

theorem isWordStart_of_isDigit {c : Char} (h : c.isDigit = true) : isWordStart c = false := by
  cases hc : isWordStart c with
  | false => rfl
  | true =>
    have hdigit := toNat_of_isDigit h
    have hword := toNat_of_isWordStart hc
    omega

theorem isWordStart_of_isBlank {c : Char} (h : Text.isBlank c = true) : isWordStart c = false := by
  cases hc : isWordStart c with
  | false => rfl
  | true =>
    have hblank := toNat_of_isBlank h
    have hword := toNat_of_isWordStart hc
    omega

theorem isDigit_of_isBlank {c : Char} (h : Text.isBlank c = true) : c.isDigit = false := by
  cases hc : c.isDigit with
  | false => rfl
  | true =>
    have hblank := toNat_of_isBlank h
    have hdigit := toNat_of_isDigit hc
    omega

theorem ofMark?_apart {c : Char} {kind : Token.Kind} (h : Token.Kind.ofMark? c = some kind) :
    isWordStart c = false ∧ c.isDigit = false ∧ Text.isBlank c = false := by
  unfold Token.Kind.ofMark? at h
  split at h <;> cases h <;> decide

/-! ## 3. A token at the front of a text -/

theorem continues_ofWord (word : String) : continues (.ofWord word) = isWordChar := by
  unfold Token.Kind.ofWord
  split
  · rfl
  · split <;> rfl

/-- Of all marks, only a slash can start something longer. -/
theorem continues_of_ofMark? {c : Char} {kind : Token.Kind} (h : Token.Kind.ofMark? c = some kind)
    (hslash : c ≠ '/') (d : Char) : continues kind d = false := by
  unfold Token.Kind.ofMark? at h
  split at h <;> cases h <;> simp [continues] at hslash ⊢

/-- A run goes on exactly as far as its characters do. -/
theorem takeWhile_append_of_stops {p : Char → Bool} {run rest : List Char}
    (hrun : ∀ d ∈ run, p d = true) (hrest : ∀ c ∈ rest.head?, p c = false) :
    (run ++ rest).takeWhile p = run := by
  rw [List.takeWhile_append_of_pos hrun]
  cases rest with
  | nil => simp
  | cons c rest =>
    have hc : p c = false := hrest c rfl
    simp [hc]

/-- A slash that no other slash and no star follows is a token. -/
theorem frontSlash_of_stops {rest : List Char} (h : Stops .slash rest) :
    frontSlash rest = .token .slash 0 := by
  unfold frontSlash
  split
  · exact absurd (h '/' rfl) (by decide)
  · exact absurd (h '*' rfl) (by decide)
  · rfl

theorem stops_of_frontSlash {rest : List Char} {kind : Token.Kind} {more : Nat}
    (h : frontSlash rest = .token kind more) : kind = .slash ∧ more = 0 ∧ Stops .slash rest := by
  unfold frontSlash at h
  split at h
  · cases h
  · split at h
    · cases h
    · cases h
  · next hline hblock =>
    obtain ⟨rfl, rfl⟩ := Front.token.inj h
    refine ⟨rfl, rfl, ?_⟩
    intro d hd
    cases rest with
    | nil => cases hd
    | cons d' rest =>
      obtain rfl : d' = d := Option.some.inj hd
      have hline' : d' ≠ '/' := fun heq => hline rest (heq ▸ rfl)
      have hblock' : d' ≠ '*' := fun heq => hblock rest (heq ▸ rfl)
      simp [continues, hline', hblock']

theorem front_of_isText {kind : Token.Kind} {c : Char} {cs rest : List Char}
    (h : IsText kind (c :: cs)) (hstops : Stops kind rest) :
    front c (cs ++ rest) = .token kind cs.length := by
  cases h with
  | word hc hcs =>
    have hrest : ∀ d ∈ rest.head?, isWordChar d = false := by
      intro d hd
      rw [← continues_ofWord]
      exact hstops d hd
    rw [front, if_pos hc, takeWhile_append_of_stops hcs hrest]
  | number hc hcs =>
    rw [front, if_neg (by rw [isWordStart_of_isDigit hc]; decide), if_pos hc,
      takeWhile_append_of_stops hcs hstops]
  | mark hc =>
    obtain ⟨hword, hdigit, hblank⟩ := ofMark?_apart hc
    rw [front, if_neg (by rw [hword]; decide), if_neg (by rw [hdigit]; decide),
      if_neg (by rw [hblank]; decide)]
    by_cases hslash : c = '/'
    · subst hslash
      obtain rfl : Token.Kind.slash = kind := Option.some.inj hc
      rw [if_pos rfl]
      exact frontSlash_of_stops hstops
    · rw [if_neg hslash, hc]
      rfl

/-- A run and what stands behind it. -/
theorem run_spec (p : Char → Bool) (rest : List Char) :
    rest.take (rest.takeWhile p).length = rest.takeWhile p ∧
      (∀ d ∈ rest.takeWhile p, p d = true) ∧
      ∀ c ∈ (rest.drop (rest.takeWhile p).length).head?, p c = false := by
  induction rest with
  | nil => simp
  | cons c rest ih =>
    by_cases hc : p c = true
    · simpa [hc] using ih
    · have hc' : p c = false := by simpa using hc
      simp [hc']

theorem isText_of_front {kind : Token.Kind} {c : Char} {rest : List Char} {more : Nat}
    (h : front c rest = .token kind more) :
    IsText kind (c :: rest.take more) ∧ Stops kind (rest.drop more) := by
  unfold front at h
  by_cases hword : isWordStart c = true
  · obtain ⟨htake, hall, hend⟩ := run_spec isWordChar rest
    rw [if_pos hword] at h
    obtain ⟨rfl, rfl⟩ := Front.token.inj h
    rw [htake]
    refine ⟨.word hword hall, ?_⟩
    rw [Stops, continues_ofWord]
    exact hend
  rw [if_neg hword] at h
  by_cases hdigit : c.isDigit = true
  · obtain ⟨htake, hall, hend⟩ := run_spec Char.isDigit rest
    rw [if_pos hdigit] at h
    obtain ⟨rfl, rfl⟩ := Front.token.inj h
    rw [htake]
    exact ⟨.number hdigit hall, hend⟩
  rw [if_neg hdigit] at h
  by_cases hblank : Text.isBlank c = true
  · rw [if_pos hblank] at h
    cases h
  rw [if_neg hblank] at h
  by_cases hslash : c = '/'
  · subst hslash
    rw [if_pos rfl] at h
    obtain ⟨rfl, rfl, hstops⟩ := stops_of_frontSlash h
    exact ⟨.mark rfl, hstops⟩
  · rw [if_neg hslash] at h
    cases hmark : Token.Kind.ofMark? c with
    | none =>
      rw [hmark] at h
      cases h
    | some kind' =>
      rw [hmark] at h
      obtain ⟨rfl, rfl⟩ := Front.token.inj h
      exact ⟨.mark hmark, fun d _ => continues_of_ofMark? hmark hslash d⟩

/-! ## 4. What a blank and a token do for the tokens of a text -/

theorem front_of_isBlank {c : Char} (hc : Text.isBlank c = true) (rest : List Char) :
    front c rest = .gap (rest.takeWhile Text.isBlank).length := by
  rw [front, if_neg (by simp [isWordStart_of_isBlank hc]),
    if_neg (by simp [isDigit_of_isBlank hc]), if_pos hc]

/-- Blanks are skipped a run at a time, which comes to skipping them one by one. -/
theorem tokensFrom_blank {file : String} {offset : Nat} {c : Char} {rest : List Char}
    (hc : Text.isBlank c = true) :
    tokensFrom file offset (c :: rest) = tokensFrom file (offset + c.utf8Size) rest := by
  rw [tokensFrom, front_of_isBlank hc]
  cases rest with
  | nil => simp
  | cons d rest =>
    by_cases hd : Text.isBlank d = true
    · rw [tokensFrom, front_of_isBlank hd]
      simp [hd, Nat.add_assoc]
    · simp [hd]

/-- A token's text is cut off whole, and the rest is read from behind it. -/
theorem tokensFrom_token {file : String} {offset : Nat} {kind : Token.Kind} {text : String}
    {rest : List Char} (htext : IsText kind text.toList) (hstops : Stops kind rest) :
    tokensFrom file offset (text.toList ++ rest) = do
      let others ← tokensFrom file (offset + Text.size text.toList) rest
      return tokenAt file offset kind text.toList :: others := by
  cases hcs : text.toList with
  | nil =>
    rw [hcs] at htext
    cases htext
  | cons c cs =>
    rw [hcs] at htext
    rw [List.cons_append, tokensFrom, front_of_isText htext hstops]
    simp only [List.take_left, List.drop_left]

/-! ## 5. Written texts -/

/-- The text consists of tokens of these kinds and texts, in their order, with blanks around
them. -/
inductive Written : List Char → List (Token.Kind × String) → Prop
  | nil : Written [] []
  | blank {c : Char} {rest : List Char} {ts : List (Token.Kind × String)}
      (hc : Text.isBlank c = true) (h : Written rest ts) : Written (c :: rest) ts
  | token {kind : Token.Kind} {text : String} {rest : List Char}
      {ts : List (Token.Kind × String)} (htext : IsText kind text.toList)
      (hstops : Stops kind rest) (h : Written rest ts) :
      Written (text.toList ++ rest) ((kind, text) :: ts)

/-- The text has tokens of exactly these kinds and texts, whatever its file and place. -/
def HasTokens (cs : List Char) (ts : List (Token.Kind × String)) : Prop :=
  ∀ file offset, ∃ body last, tokensFrom file offset cs = .ok (body ++ [last]) ∧
    last.kind = .eof ∧ body.map (fun t => (t.kind, t.value)) = ts

theorem hasTokens_nil : HasTokens [] [] := by
  intro file offset
  refine ⟨[], .endAt (Span.ofBytes file offset 0).start, ?_, rfl, rfl⟩
  rw [tokensFrom]
  rfl

theorem HasTokens.token {kind : Token.Kind} {text : String} {rest : List Char}
    {ts : List (Token.Kind × String)} (htext : IsText kind text.toList)
    (hstops : Stops kind rest) (h : HasTokens rest ts) :
    HasTokens (text.toList ++ rest) ((kind, text) :: ts) := by
  intro file offset
  obtain ⟨body, last, htokens, hlast, hbody⟩ := h file (offset + Text.size text.toList)
  refine ⟨tokenAt file offset kind text.toList :: body, last, ?_, hlast, ?_⟩
  · rw [tokensFrom_token htext hstops, htokens]
    rfl
  · rw [List.map_cons, hbody, tokenAt, String.ofList_toList]

/-- **A written text has the tokens it is written with.** -/
theorem Written.hasTokens {cs : List Char} {ts : List (Token.Kind × String)} (h : Written cs ts) :
    HasTokens cs ts := by
  induction h with
  | nil => exact hasTokens_nil
  | blank hc _ ih =>
    intro file offset
    rw [tokensFrom_blank hc]
    exact ih file _
  | token htext hstops _ ih => exact .token htext hstops ih

/-- Every token has a text that its kind can have, and the end token its own. -/
theorem isText_of_mem_tokensFrom {file : String} {offset : Nat} {cs : List Char}
    {tokens : List Token} (h : tokensFrom file offset cs = .ok tokens) :
    ∀ t ∈ tokens, t.kind = .eof ∧ t.value = "EOF" ∨ IsText t.kind t.value.toList := by
  fun_induction tokensFrom file offset cs generalizing tokens with
  | case1 offset =>
    cases h
    intro t ht
    obtain rfl := List.mem_singleton.mp ht
    exact .inl ⟨rfl, rfl⟩
  | case2 => cases h
  | case3 offset c rest more hfront ih => exact ih h
  | case4 offset c rest kind more hfront ih =>
    cases hrest : tokensFrom file (offset + Text.size (c :: rest.take more)) (rest.drop more) with
    | error e => rw [hrest] at h; cases h
    | ok others =>
      rw [hrest] at h
      cases h
      intro t ht
      rcases List.mem_cons.mp ht with rfl | ht
      · right
        rw [tokenAt, String.toList_ofList]
        exact (isText_of_front hfront).1
      · exact ih hrest t ht

/-- Only the size of a source stands between it and its tokens. -/
theorem tokens_eq_ok_iff {source : String} {file : Option String} {ts : List Token} :
    tokens source file = .ok ts ↔ source.utf8ByteSize ≤ maxSourceSize ∧
      tokensFrom (file.getD defaultFile) 0 source.toList = .ok ts := by
  unfold tokens
  by_cases hsize : source.utf8ByteSize ≤ maxSourceSize
  · rw [if_pos hsize, and_iff_right hsize]
  · rw [if_neg hsize]
    constructor
    · intro h
      cases h
    · intro h
      exact absurd h.1 hsize

end IntC.Lexer
