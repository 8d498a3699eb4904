import Packaging.Proofs.Script.SyntaxErrors
import Packaging.Proofs.Script.Violations

/-! # Lexemes that match
The machine tells lexemes apart by their shapes and texts, and ends of lines not even by these. So
two texts whose lexemes match are read as the same lines, up to what a map of places tells apart,
and the statements that these say, or the rules that they break, are the same up to spots. -/

namespace Packaging.Script

/-- Whether two lexemes are of one shape and, unless they are ends of lines, of one text and at
places that a map does not tell apart. -/
structure Lexeme.Matches (f : Place → Place) (l l' : Lexeme) : Prop where
  /-- The shapes are the same. -/
  terminal : l'.terminal = l.terminal
  /-- Ends of lines aside, all else is the same up to the map. -/
  same : l.terminal ≠ .newline → l'.relocate f = l.relocate f

/-- Matching is transitive. -/
theorem Lexeme.Matches.trans {f : Place → Place} {l l' l'' : Lexeme} (h : l.Matches f l')
    (h' : l'.Matches f l'') : l.Matches f l'' := by
  refine ⟨h'.terminal.trans h.terminal, fun goesOn => ?_⟩
  rw [h'.same (h.terminal ▸ goesOn), h.same goesOn]

/-- Lexemes match themselves. -/
theorem forall₂_matches_refl (f : Place → Place) (ls : List Lexeme) :
    List.Forall₂ (Lexeme.Matches f) ls ls := List.forall₂_same.2 fun _ _ => ⟨rfl, fun _ => rfl⟩

/-- Matching of lists of lexemes is transitive. -/
theorem forall₂_matches_trans {f : Place → Place} {ls ls' ls'' : List Lexeme}
    (h : List.Forall₂ (Lexeme.Matches f) ls ls')
    (h' : List.Forall₂ (Lexeme.Matches f) ls' ls'') :
    List.Forall₂ (Lexeme.Matches f) ls ls'' := by
  induction h generalizing ls'' with
  | nil => exact h'
  | cons first others ih =>
    cases h' with
    | cons first' others' => exact .cons (first.trans first') (ih others')

/-! ## Reading -/

namespace Machine

variable {f : Place → Place} {m m' n : Machine} {ls ls' : List Lexeme}

/-- Of the end of a line only its shape counts. -/
theorem step_newline_congr (m : Machine) {l l' : Lexeme} (h : l.terminal = .newline)
    (h' : l'.terminal = .newline) : m.step l = m.step l' := by
  obtain ⟨lines, purpose, frames, mode⟩ := m
  obtain ⟨terminal, text, place⟩ := l
  obtain ⟨terminal', text', place'⟩ := l'
  obtain rfl : terminal = .newline := h
  obtain rfl : terminal' = .newline := h'
  cases mode with
  | _ => rfl

/-- Machines that have read the same make the same of lexemes that match. -/
theorem step_matches {l l' : Lexeme} (same : m'.relocate f [] = m.relocate f [])
    (h : l.Matches f l') : (m'.step l').map (relocate f []) = (m.step l).map (relocate f []) := by
  rw [← step_relocate, ← step_relocate, same]
  by_cases newline : l.terminal = .newline
  · exact step_newline_congr _ (h.terminal.trans newline) newline
  · rw [h.same newline]

/-- A machine reads lexemes that match others as it reads these. -/
theorem run_matches (same : m'.relocate f [] = m.relocate f [])
    (h : List.Forall₂ (Lexeme.Matches f) ls ls') (hrun : m.run ls = .ok n) :
    ∃ n', m'.run ls' = .ok n' ∧ n'.relocate f [] = n.relocate f [] := by
  induction h generalizing m m' with
  | nil =>
    obtain rfl := Except.ok.inj hrun
    exact ⟨m', rfl, same⟩
  | @cons l l' ls ls' first others ih =>
    have next := step_matches same first
    cases hstep : m.step l with
    | none =>
      rw [run_cons_of_none hstep] at hrun
      cases hrun
    | some k =>
      rw [hstep, Option.map_some, Option.map_eq_some_iff] at next
      obtain ⟨k', hstep', same'⟩ := next
      rw [run_cons_of_step hstep] at hrun
      rw [run_cons_of_step hstep']
      exact ih same' hrun

/-- A machine refuses the lexeme that matches the one that it refuses. Matching may be only a part
of how the lexemes are related. -/
theorem refused_matches {R : Lexeme → Lexeme → Prop} (matching : ∀ l l', R l l' → l.Matches f l')
    (same : m'.relocate f [] = m.relocate f []) (h : List.Forall₂ R ls ls')
    {rest : List Lexeme} (hrun : m.run ls = .error rest) :
    ∃ rest', m'.run ls' = .error rest' ∧ List.Forall₂ R rest rest' := by
  induction h generalizing m m' with
  | nil => cases hrun
  | @cons l l' ls ls' first others ih =>
    have next := step_matches same (matching l l' first)
    cases hstep : m.step l with
    | none =>
      rw [hstep, Option.map_none, Option.map_eq_none_iff] at next
      rw [run_cons_of_none hstep] at hrun
      obtain rfl := Except.error.inj hrun
      exact ⟨_, run_cons_of_none next ls', .cons first others⟩
    | some k =>
      rw [hstep, Option.map_some, Option.map_eq_some_iff] at next
      obtain ⟨k', hstep', same'⟩ := next
      rw [run_cons_of_step hstep] at hrun
      rw [run_cons_of_step hstep']
      exact ih same' hrun

/-- Machines that differ in places only have lines that differ in places only. -/
theorem lines?_of_relocate {lines : List Line} (same : m'.relocate f [] = m.relocate f [])
    (h : m.lines? = some lines) :
    ∃ lines', m'.lines? = some lines' ∧
      lines'.map (Line.relocate f) = lines.map (Line.relocate f) := by
  have both := congrArg lines? same
  rw [lines?_relocate, lines?_relocate, h, Option.map_some, Option.map_eq_some_iff] at both
  obtain ⟨lines', h', same'⟩ := both
  exact ⟨lines', h', same'⟩

end Machine

/-! ## Texts -/

section Texts

variable {f : Place → Place} {g : Spot → Spot} {source : Text} {ls ls' : List Lexeme}
  {lines lines' : List Line}

/-- A script whose lexemes match those that are read as some lines is read as these lines. -/
theorem readWith_script_of_matches (lexes : Lexes (closeLastLine source) ls')
    (same : List.Forall₂ (Lexeme.Matches f) ls ls')
    (read : ∃ m, Machine.script.run ls = .ok m ∧ m.lines? = some lines) :
    ∃ lines', readWith .script Machine.lines? (closeLastLine source) = .ok lines' ∧
      lines'.map (Line.relocate f) = lines.map (Line.relocate f) := by
  obtain ⟨m, hrun, hlines⟩ := read
  obtain ⟨m', hrun', reached⟩ := Machine.run_matches rfl same hrun
  obtain ⟨lines', hlines', same'⟩ := Machine.lines?_of_relocate reached hlines
  exact ⟨lines', readWith_ok_iff.2 ⟨ls', lexes, m', hrun', hlines'⟩, same'⟩

/-- Lines that are the same up to places say the same up to spots. -/
theorem parse_of_lines [CharacterNames] (spots : ∀ p, (f p).spot = g p.spot)
    (read : readWith .script Machine.lines? (closeLastLine source) = .ok lines')
    (same : lines'.map (Line.relocate f) = lines.map (Line.relocate f)) :
    (∀ statements, lines.mapM Line.toStatement = .ok statements →
      ∃ statements', parse source = .ok statements' ∧
        statements'.map (Statement.relocate g) = statements.map (Statement.relocate g)) ∧
    (∀ v, lines.mapM Line.toStatement = .error v →
      ∃ v', parse source = .error (.violation v') ∧ v'.relocate g = v.relocate g) := by
  have said := congrArg (List.mapM Line.toStatement) same
  rw [mapM_toStatement_relocate spots, mapM_toStatement_relocate spots] at said
  rw [parse, read]
  constructor
  · intro statements h
    rw [h] at said
    obtain ⟨statements', h', same'⟩ := Except.map_eq_ok_iff.1 (Except.mapError_eq_ok_iff.1 said)
    exact ⟨statements', Except.mapError_eq_ok_iff.2 h', same'.symm⟩
  · intro v h
    rw [h] at said
    cases h' : lines'.mapM Line.toStatement with
    | ok statements' =>
      rw [h'] at said
      cases said
    | error v' =>
      rw [h'] at said
      exact ⟨v', Except.mapError_eq_error_iff.2 ⟨v', h', rfl⟩, Except.error.inj said⟩

end Texts

/-- Whether a text is accepted and says some statements, but for spots. -/
def SaysSame [CharacterNames] (t : Text) (statements : List Statement) : Prop :=
  ∃ statements', parse t = .ok statements' ∧
    statements'.map (Statement.relocate Spot.forget) =
      statements.map (Statement.relocate Spot.forget)

open Script.Derivation in
/-- **What a script says shows in its lexemes.** A text whose lexemes match those of a derivation is
accepted if a script is whose derivation has the same lines, and says the same but for spots. -/
theorem parse_of_matches [CharacterNames] {source edited : Text} {statements : List Statement}
    {program program' : Program} {ls : List Lexeme} (h : parse source = .ok statements)
    (lexes : Lexes (closeLastLine source) program.yield)
    (lines : program'.lines.map (Line.relocate Place.forget) =
      program.lines.map (Line.relocate Place.forget))
    (lexes' : Lexes (closeLastLine edited) ls)
    (same : List.Forall₂ (Lexeme.Matches Place.forget) program'.yield ls) :
    SaysSame edited statements := by
  obtain ⟨_, read, said⟩ := parse_ok_iff_lines.1 h
  obtain ⟨_, lexesRead, rfl⟩ := readWith_script_ok_iff.1 read
  obtain rfl := Program.yield_inj (lexesRead.unique lexes)
  obtain ⟨lines', read', lines''⟩ := readWith_script_of_matches lexes' same
    (script_run_iff.2 ⟨program', rfl, rfl⟩)
  exact (parse_of_lines (fun _ => rfl) read' (lines''.trans lines)).1 statements said

end Packaging.Script
