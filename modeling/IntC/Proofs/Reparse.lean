/-
# A parse forgets what was done before

A session can leave a parse in any state: in the middle of a body, with functions in scope that the
source does not declare, with the cursor anywhere.  What no step can change are the tokens and the
file (`SameSource`).  The rule for whole sources starts by putting everything else back, so it comes
out the same after every session.

* `Step.sameSource_run`: no step changes the tokens or the file, also inside `backtrack` and inside
  argument lists.
* `program_eq_of_sameSource`: that is all the rule for whole sources depends on.
* `run_append_program`: a whole source is read after a session as it is read at the start.
-/
import IntC.Proofs.Frame

namespace IntC

/-! ## 1. The tokens and the file -/

/-- The tokens and the file are the same. -/
structure SameSource (s t : State) : Prop where
  tokens : t.cursor.toList = s.cursor.toList
  file : t.file = s.file

theorem Framed.sameSource {s t : State} (h : Framed s t) : SameSource s t := ⟨h.tokens, h.file⟩

instance : IsFrame SameSource where
  refl _ := ⟨rfl, rfl⟩
  trans h h' := ⟨h'.tokens.trans h.tokens, h'.file.trans h.file⟩
  advance s := ⟨s.cursor.toList_advance, rfl⟩
  seek _ _ := ⟨rfl, rfl⟩

namespace Rule

/-- Opening and closing an argument list changes neither. -/
theorem sameSource_deeper {α : Type} {r : Rule α} (h : Within SameSource r) :
    Within SameSource (deeper r) := by
  intro s
  have hinside := h { s with depth := s.depth + 1 }
  unfold after at hinside
  unfold after deeper
  by_cases hd : maxNesting ≤ s.depth
  · rw [if_pos hd]
    exact IsFrame.refl s
  · rw [if_neg hd]
    cases hr : r { s with depth := s.depth + 1 } with
    | ok a t =>
      rw [hr] at hinside
      exact ⟨hinside.tokens, hinside.file⟩
    | error e t =>
      rw [hr] at hinside
      exact ⟨hinside.tokens, hinside.file⟩

end Rule

namespace Grammar

open Rule

theorem within_externalsFrom : ∀ rounds, Within Framed (externalsFrom rounds)
  | 0 => .pure _
  | rounds + 1 => by
    unfold externalsFrom
    refine .bind (.look _) fun kind => ?_
    split
    · exact .pure _
    · exact .bind within_external fun _ => .bind (within_externalsFrom rounds) fun _ => .pure _

theorem sameSource_rewind (s : State) : SameSource s (rewind s) := ⟨rfl, rfl⟩

/-- The rule for whole sources drops what is in scope and closes all argument lists, but it keeps
these two. -/
theorem sameSource_program : Within SameSource program := by
  intro s
  have hloop : Within Framed (backtrack do
      return initialProgram.addAll (← externalsFrom (← tokensLeft))) :=
    .backtrack (.bind (.look _) fun rounds => .bind (within_externalsFrom rounds) fun _ => .pure _)
  exact IsFrame.trans (sameSource_rewind s) (hloop (rewind s)).sameSource

/-- With the same tokens and the same file, reading starts in the same state. -/
theorem rewind_eq_of_sameSource {s t : State} (h : SameSource s t) : rewind t = rewind s := by
  have hseek : t.cursor.seek 0 = s.cursor.seek 0 := by
    have hback := @Cursor.seek_of_toList_eq (s.cursor.seek 0) t.cursor h.tokens
    rwa [Cursor.pos_seek, Nat.zero_min] at hback
  rw [rewind, rewind, hseek, h.file]

/-- **The rule for whole sources depends on the tokens and the file alone.** -/
theorem program_eq_of_sameSource {s t : State} (h : SameSource s t) : program t = program s := by
  unfold program
  rw [rewind_eq_of_sameSource h]

/-- If it fails, the cursor is at the first token. -/
theorem pos_of_program_eq_error {s t : State} {e : Diagnostic} (h : program s = .error e t) :
    t.cursor.pos = 0 := by
  obtain ⟨v, -, rfl⟩ := backtrack_eq_error_iff.mp h
  simp [rewind, State.seek]

end Grammar

/-! ## 2. Sessions -/

namespace Session

open Rule Grammar

/-- No rule of the grammar changes the tokens or the file. -/
theorem Nonterminal.sameSource_rule (n : Nonterminal) : Within SameSource n.rule := by
  by_cases hn : n = .program
  · subst hn
    exact sameSource_program.map _
  · exact (Nonterminal.within_rule hn).mono Framed.sameSource

/-- Whatever is made of the outcome of a rule, the state is the one that the rule leaves. -/
theorem answer_snd {α : Type} (r : Rule α) (give : α → Answer) (s : State) :
    (answer r give s).2 = after r s := by
  unfold answer after
  cases r s <;> rfl

theorem sameSource_answer {α : Type} {r : Rule α} (h : Within SameSource r) (give : α → Answer)
    (s : State) : SameSource s (answer r give s).2 := by
  rw [answer_snd]
  exact h s

theorem sameSource_deeperTimes {α : Type} {r : Rule α} (h : Within SameSource r) :
    ∀ levels, Within SameSource (deeperTimes levels r)
  | 0 => h
  | levels + 1 => sameSource_deeper (sameSource_deeperTimes h levels)

mutual

/-- **No step changes the tokens or the file.** -/
theorem Step.sameSource_run : ∀ (step : Step) (s : State), SameSource s (step.run s).2
  | .read n, s => sameSource_answer n.sameSource_rule _ s
  | .advance, s => sameSource_answer .advance _ s
  | .expect kind, s => sameSource_answer (.expect kind) _ s
  | .peek n, s => sameSource_answer (.look _) _ s
  | .seek pos, s => IsFrame.seek s pos
  | .unexpected, s => IsFrame.refl s
  | .scope step, s => ⟨rfl, rfl⟩
  | .backtrack steps, s => by
    have hinside := Step.sameSource_runWhile steps s
    rw [Step.run]
    split
    · next hrun => rw [hrun] at hinside; exact hinside
    · next hrun =>
      rw [hrun] at hinside
      exact IsFrame.trans hinside (IsFrame.seek _ _)
  | .deeper levels steps, s => by
    -- the steps inside the argument lists, as one rule that never fails
    have hinside : Within SameSource (fun s => match Step.runWhile steps s with
        | (entries, outcome, s') => .ok (entries, outcome) s' :
          Rule (List (Answer × State) × Option Diagnostic)) :=
      Step.sameSource_runWhile steps
    have hrun := sameSource_deeperTimes hinside levels s
    unfold after at hrun
    rw [Step.run]
    split
    · next hr => rw [hr] at hrun; exact hrun
    · next hr => rw [hr] at hrun; exact hrun

/-- Neither do steps up to the first failure. -/
theorem Step.sameSource_runWhile : ∀ (steps : List Step) (s : State),
    SameSource s (Step.runWhile steps s).2.2
  | [], s => IsFrame.refl s
  | step :: steps, s => by
    have hfirst := step.sameSource_run s
    rw [Step.runWhile]
    cases hfailure : (step.run s).1.failure? with
    | some d => simpa [hfailure] using hfirst
    | none =>
      have hrest := Step.sameSource_runWhile steps (step.run s).2
      simpa [hfailure] using IsFrame.trans hfirst hrest

end

/-- The state that a session ends in. -/
def endState (steps : List Step) (s : State) : State :=
  steps.foldl (fun s step => (step.run s).2) s

/-- What every step of a session keeps, the session keeps. -/
theorem within_endState {R : State → State → Prop} [IsFrame R] {steps : List Step}
    (h : ∀ step ∈ steps, ∀ s, R s (step.run s).2) (s : State) : R s (endState steps s) := by
  induction steps generalizing s with
  | nil => exact IsFrame.refl s
  | cons step steps ih =>
    obtain ⟨hstep, hsteps⟩ := List.forall_mem_cons.mp h
    exact IsFrame.trans (hstep s) (ih hsteps _)

/-- A session does not change the tokens or the file. -/
theorem sameSource_endState (steps : List Step) (s : State) : SameSource s (endState steps s) :=
  within_endState (fun step _ => step.sameSource_run) s

/-- The last step of a session is carried out in the state that the steps before it end in. -/
theorem getLast?_run_concat (steps : List Step) (step : Step) (s : State) :
    (run (steps ++ [step]) s).getLast? = some (step.run (endState steps s)) := by
  induction steps generalizing s with
  | nil => rfl
  | cons first steps ih =>
    have hne : run (steps ++ [step]) (first.run s).2 ≠ [] := by
      cases steps <;> simp [run]
    rw [List.cons_append, run, List.getLast?_cons_of_ne_nil hne, ih]
    rfl

/-- The answer to the step that reads a whole source. -/
def verdict : Except Diagnostic Program → Answer
  | .ok program => .node (.program program)
  | .error d => .refused d

theorem run_read_program (s : State) :
    Step.run (.read .program) s = match program s with
      | .ok program t => (verdict (.ok program), t)
      | .error d t => (verdict (.error d), t) := by
  show answer (EStateM.map Node.program program) .node s = _
  unfold answer EStateM.map
  cases program s <;> rfl

/-- **A whole source is read after any session as it is read at the start**: with the same answer,
and with the cursor, the open argument lists and all names in scope as a parse of the tokens leaves
them.  If it is refused, the cursor is at the first token. -/
theorem run_append_program (steps : List Step) (tokens : List Token) (file : String) :
    (run (steps ++ [.read .program]) (.start tokens file)).getLast? =
        some (verdict (Program.ofTokens tokens file), after program (.start tokens file)) ∧
      ∀ d, Program.ofTokens tokens file = .error d →
        (after program (.start tokens file)).cursor.pos = 0 := by
  have hsame := sameSource_endState steps (.start tokens file)
  rw [getLast?_run_concat, run_read_program, program_eq_of_sameSource hsame, Program.ofTokens,
    after]
  cases hrun : program (.start tokens file) with
  | ok program t =>
    refine ⟨rfl, ?_⟩
    rintro d ⟨⟩
  | error d t => exact ⟨rfl, fun _ _ => pos_of_program_eq_error hrun⟩

end Session

end IntC
