/-
# One source behind another

A source that has been accepted can be followed by a second one.  The loop over declarations comes
to the end of the first source just as if nothing stood behind it, because no declaration is read
any further than to its last token, and then it goes on with the second source in the scope that
the first one leaves.  So the second source can add to the program, or it can be refused, but it
cannot change what the first one declares and defines.

* `Cursor.exists_reads`: lexemes that match the tokens ahead can be read, whatever stands behind.
* `externalsFrom_append`: valid declarations are read first, and then the rest.
* `Records.addAll`: the scope that they leave.
* `ofTokens_append`: the theorem for whole token lists.
-/
import IntC.Proofs.Acceptance
import IntC.Proofs.Diagnosis

namespace IntC

/-! ## 1. Lexemes that stand first -/

namespace Cursor

theorem ahead_ofList {tokens : List Token} (hend : tokens.getLast?.map Token.kind = some .eof) :
    (ofList tokens).ahead = tokens := by
  rw [ahead, Grammar.pos_ofList, List.drop_zero, toList_ofList, if_pos hend]

/-- Lexemes that match the first tokens ahead can be read, and the cursor is then in front of the
rest. -/
theorem exists_reads {ls : List Lexeme} {ts rest : List Token}
    (hmatch : List.Forall₂ Lexeme.Matches ls ts) (hne : ∀ t ∈ ts, t.kind ≠ .eof) {c : Cursor}
    (hahead : c.ahead = ts ++ rest) : ∃ d, c.Reads ls d ∧ d.ahead = rest := by
  induction hmatch generalizing c with
  | nil => exact ⟨c, rfl, hahead⟩
  | @cons l t ls ts hl _ ih =>
    obtain ⟨ht, hts⟩ := List.forall_mem_cons.mp hne
    obtain ⟨behind, hfirst, -⟩ := c.ahead_eq_cons
    obtain ⟨hcurrent, -⟩ := List.cons.inj (hfirst.symm.trans hahead)
    have hkind : c.current.kind ≠ .eof := hcurrent ▸ ht
    rw [ahead_of_kind_ne hkind] at hahead
    obtain ⟨d, hreads, hd⟩ := ih hts (List.cons.inj hahead).2
    refine ⟨d, ⟨hcurrent ▸ hl, ?_, hreads⟩, hd⟩
    rw [← hl.kind_eq]
    exact ht

end Cursor

/-! ## 2. Declarations that stand first -/

/-- **The tables behind valid declarations** hold the signatures of the program with all of them. -/
theorem Records.addAll {ds : List External} {scope : Scope} {u : Program} (h : Records scope u)
    (hvalid : ValidFrom scope ds) : Records (ds.foldl Scope.behind scope) (u.addAll ds) := by
  induction ds generalizing scope u with
  | nil => simpa [Program.addAll] using h
  | cons d ds ih =>
    obtain ⟨hd, hds⟩ := hvalid
    rw [Program.addAll_cons]
    exact ih (h.behind hd) (validFrom_behind.mpr hds)

theorem Program.addAll_append (u : Program) (ds es : List External) :
    u.addAll (ds ++ es) = (u.addAll ds).addAll es := by
  simp only [Program.addAll_eq_foldl, List.foldl_append]

/-- What is added to a program stands behind what it has. -/
theorem Program.prefix_addAll (u : Program) (ds : List External) :
    u.prototypes <+: (u.addAll ds).prototypes ∧ u.functions <+: (u.addAll ds).functions :=
  ⟨List.prefix_append _ _, List.prefix_append _ _⟩

/-- What follows a rule sees of it only what came of it. -/
theorem Rule.bind_apply_congr {α β : Type} {r r' : Rule α} {f : α → Rule β} {s s' : State}
    (h : r s = r' s') : (r >>= f) s = (r' >>= f) s' := by
  show EStateM.bind r f s = EStateM.bind r' f s'
  rw [EStateM.bind, EStateM.bind, h]

namespace Grammar

open Rule

/-- One round of the loop over declarations, at a valid one. -/
theorem externalsFrom_succ_of_reads {s : State} {c : Cursor} {d : External} (hd : s.depth = 0)
    (hreads : s.cursor.Reads d.yield c) (hvalid : d.ValidIn s.scope) (rounds : Nat) :
    externalsFrom (rounds + 1) s = (do return d :: (← externalsFrom rounds) : Rule _)
      { s with cursor := c, scope := s.scope.behind d } := by
  have hkind : s.current.kind = .int :=
    @current_kind_of_reads_external s.cursor c d [] (by simpa using hreads)
  have hfirst := (external_eq_ok_iff hd).mpr ⟨{ s with cursor := c }, ⟨hreads, rfl⟩, hvalid, rfl⟩
  rw [externalsFrom, currentKind, look_bind_apply, if_neg (by simp [hkind]), bind_of_ok hfirst]

/-- **Valid declarations are read first**, and then whatever comes of the rest. -/
theorem externalsFrom_append {ds : List External} {s : State} {c : Cursor} (hd : s.depth = 0)
    (hreads : s.cursor.Reads (ds.flatMap External.yield) c) (hvalid : ValidFrom s.scope ds)
    (rounds : Nat) :
    externalsFrom (ds.length + rounds) s = (do return ds ++ (← externalsFrom rounds) : Rule _)
      { s with cursor := c, scope := ds.foldl Scope.behind s.scope } := by
  induction ds generalizing s with
  | nil =>
    obtain rfl : c = s.cursor := hreads
    simp
  | cons d ds ih =>
    obtain ⟨hfirst, hmore⟩ := hvalid
    obtain ⟨b, hb, hreads'⟩ := Cursor.reads_append.mp hreads
    have hrest := @ih { s with cursor := b, scope := s.scope.behind d } hd hreads'
      (validFrom_behind.mpr hmore)
    have hrounds : (d :: ds).length + rounds = ds.length + rounds + 1 := by
      rw [List.length_cons]
      omega
    calc
      externalsFrom ((d :: ds).length + rounds) s
          = (do return d :: (← externalsFrom (ds.length + rounds)) : Rule _)
              { s with cursor := b, scope := s.scope.behind d } := by
            rw [hrounds, externalsFrom_succ_of_reads hd hb hfirst]
      _ = ((do return ds ++ (← externalsFrom rounds)) >>= fun more => pure (d :: more) : Rule _)
              { s with cursor := c, scope := ds.foldl Scope.behind (s.scope.behind d) } :=
            bind_apply_congr hrest
      _ = (do return d :: ds ++ (← externalsFrom rounds) : Rule _)
              { s with cursor := c, scope := ds.foldl Scope.behind (s.scope.behind d) } := by
            simp only [bind_assoc, pure_bind, List.cons_append]

/-! ## 3. Whole token lists -/

/-- A token list is refused where the loop over declarations fails. -/
theorem ofTokens_eq_error_iff {tokens : List Token} {file : String} {e : Diagnostic} :
    Program.ofTokens tokens file = .error e ↔ ∃ t,
      externalsFrom (State.start tokens file).cursor.tokensLeft (.start tokens file) =
        .error e t := by
  have hprogram {v : State} : program (.start tokens file) = .error e v ↔ ∃ t,
      externalsFrom (State.start tokens file).cursor.tokensLeft (.start tokens file) = .error e t ∧
        v = t.seek (State.start tokens file).cursor.pos := by
    rw [program, rewind_start, backtrack_eq_error_iff]
    simp only [tokensLeft, look_bind_apply, bind_eq_error_iff]
    constructor
    · rintro ⟨t, h | ⟨ds, w, -, h⟩, rfl⟩
      · exact ⟨t, h, rfl⟩
      · cases h
    · rintro ⟨t, h, rfl⟩
      exact ⟨t, .inl h, rfl⟩
  unfold Program.ofTokens
  constructor
  · intro h
    cases hrun : program (.start tokens file) with
    | ok u v => rw [hrun] at h; cases h
    | error e' v =>
      rw [hrun] at h
      cases h
      obtain ⟨t, ht, -⟩ := hprogram.mp hrun
      exact ⟨t, ht⟩
  · rintro ⟨t, ht⟩
    rw [hprogram.mpr ⟨t, ht, rfl⟩]

theorem length_le_length_yields (ds : List External) :
    ds.length ≤ (ds.flatMap External.yield).length := by
  induction ds with
  | nil => simp
  | cons d ds ih =>
    have hpos := length_yield_external_pos d
    simp only [List.flatMap_cons, List.length_append, List.length_cons]
    omega

/-- **Behind declarations that are valid one after the other**, the rest adds to the program or is
refused for one of its own tokens. -/
theorem ofTokens_behind {tokens : List Token} {ds : List External} {c : Cursor}
    (hreads : (Cursor.ofList tokens).Reads (ds.flatMap External.yield) c)
    (hvalid : ValidFrom .initial ds) (file : String) :
    (∃ more, Program.ofTokens tokens file = .ok ((initialProgram.addAll ds).addAll more)) ∨
      ∃ e, Program.ofTokens tokens file = .error e ∧
        ∃ before t behind, c.ahead = before ++ t :: behind ∧ e.position = t.span.start := by
  -- the loop has a round for each of the declarations, and what is left over is for the rest
  have hleft : ds.length ≤ (Cursor.ofList tokens).tokensLeft := by
    have hlength := length_le_length_yields ds
    have hused := hreads.tokensLeft
    omega
  obtain ⟨rounds, hrounds⟩ := Nat.exists_eq_add_of_le hleft
  have hloop := @externalsFrom_append ds (.start tokens file) c rfl hreads hvalid rounds
  rw [← hrounds] at hloop
  cases hrest : externalsFrom rounds ⟨c, ds.foldl Scope.behind .initial, 0, file⟩ with
  | ok more v =>
    rw [State.start, bind_of_ok hrest] at hloop
    refine .inl ⟨more, ?_⟩
    rw [← Program.addAll_append, ofTokens_eq_ok_iff_exists]
    exact ⟨v, (program_eq_ok_iff (rewind_start _ _)).mpr ⟨ds ++ more, hloop, rfl⟩⟩
  | error e v =>
    rw [State.start, bind_of_error hrest] at hloop
    obtain ⟨ls, before, t, behind, hsplit, -, hplace, -⟩ :=
      blamed_externalsFrom rfl (records_initial.addAll hvalid) hrest
    exact .inr ⟨e, ofTokens_eq_error_iff.mpr ⟨v, hloop⟩, before, t, behind, hsplit, hplace⟩

end Grammar

open Grammar in
/-- **Sequential composition.**  Where a source without an end token in it has been accepted and
more tokens follow it, the program starts with that of the first source, or the fault is in a token
behind the first source. -/
theorem ofTokens_append {ts ts' : List Token} {final final' : Token}
    (hts : ∀ t ∈ ts, t.kind ≠ .eof) (hfinal : final.kind = .eof) (hfinal' : final'.kind = .eof)
    {file : String} {u : Program} (h : Program.ofTokens (ts ++ [final]) file = .ok u)
    (file' : String) :
    (∃ u', Program.ofTokens (ts ++ ts' ++ [final']) file' = .ok u' ∧
      u.prototypes <+: u'.prototypes ∧ u.functions <+: u'.functions) ∨
    ∃ e, Program.ofTokens (ts ++ ts' ++ [final']) file' = .error e ∧
      ∃ (i : Nat) (t : Token), ts.length ≤ i ∧ (ts ++ ts' ++ [final'])[i]? = some t ∧
        e.position = t.span.start := by
  obtain ⟨ds, hmatch, hvalid, rfl⟩ :=
    (ofTokens_eq_ok_iff_of_closed (by simp [hfinal]) (by simpa using hts)).mp h
  rw [List.dropLast_concat] at hmatch
  have hahead : (Cursor.ofList (ts ++ ts' ++ [final'])).ahead = ts ++ (ts' ++ [final']) := by
    rw [Cursor.ahead_ofList (by simp [hfinal']), List.append_assoc]
  obtain ⟨c, hreads, hc⟩ := Cursor.exists_reads hmatch hts hahead
  rcases ofTokens_behind hreads hvalid file' with
    ⟨more, hu⟩ | ⟨e, he, before, t, behind, hsplit, hplace⟩
  · exact .inl ⟨_, hu, Program.prefix_addAll _ more⟩
  · refine .inr ⟨e, he, ts.length + before.length, t, Nat.le_add_right _ _, ?_, hplace⟩
    rw [List.append_assoc, ← hc, hsplit]
    simp

/-- The tokens of a text, without the end token. -/
def openTokens (source : String) : List Token :=
  ((Lexer.tokens source none).toOption.getD []).dropLast

theorem ofTokens_append_definedTwice :
    let ts := openTokens "int f(){return 1;}"
    let ts' := openTokens "int f();"
    let final := Token.endAt .null
    (∀ t ∈ ts, t.kind ≠ .eof) ∧ (∃ u, Program.ofTokens (ts ++ [final]) "a" = .ok u) ∧
      ∃ e, Program.ofTokens (ts ++ ts' ++ [final]) "b" = .error e ∧
        ∃ (i : Nat) (t : Token), ts.length ≤ i ∧ (ts ++ ts' ++ [final])[i]? = some t ∧
          e.position = t.span.start := by
  intro ts ts' final
  have hts : ∀ t ∈ ts, t.kind ≠ .eof := by decide +kernel
  have h : Program.ofTokens (ts ++ [final]) "a" = .ok ⟨predeclared,
      [⟨⟨"f", []⟩, ⟨[], [.ret (.num 1)]⟩⟩]⟩ := by decide +kernel
  have hrefused : Program.ofTokens (ts ++ ts' ++ [final]) "b" =
      .error ⟨.repeatedDefinition "f", ⟨7, "shell"⟩⟩ := by decide +kernel
  refine ⟨hts, ⟨_, h⟩, (ofTokens_append hts rfl rfl h "b").resolve_left ?_⟩
  rintro ⟨u', hu', -⟩
  rw [hrefused] at hu'
  cases hu'

end IntC
