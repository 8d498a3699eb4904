import Packaging.Proofs.Script.Junctures
import Packaging.Proofs.Script.Violations

/-! # Expressions behind an equals sign
An expression in one line is read behind a name and an equals sign as it is read by itself, further
right. So the assignment of a text to a name is a script exactly if the text is an expression, it
breaks a rule exactly if the text does, and it is a syntax error exactly if the text is one. -/

namespace Packaging.Script

open Script.Derivation

/-! ## The lexemes of an assignment -/

/-- The text of an assignment up to its value. -/
def assignmentStart (target : Text) : Text := Text.concat [target, " = "]

/-- The text of an assignment. -/
def assignment (target value : Text) : Text := Text.concat [target, " = ", value]

/-- An assignment is its start and its value. -/
theorem assignment_eq (target value : Text) :
    assignment target value = assignmentStart target ++ value := by
  simp [assignment, assignmentStart, Text.concat]

/-- Whether a text is one that an assignment can bind. -/
structure IsName (t : Text) : Prop where
  /-- It is a word. -/
  spelled : (Shape.lexeme .word).Spells t
  /-- It is no keyword. -/
  notKeyword : isKeyword t = false

/-- Whether a text is in one line and has no blanks at its ends. -/
structure InLine (t : Text) : Prop where
  /-- It has no line feed. -/
  oneLine : CodePoint.ofChar '\n' ∉ t
  /-- It has no blanks at its ends. -/
  trimmed : t.trim = t

/-- The lexeme of a name at the start of a script. -/
def IsName.lexeme {t : Text} (h : IsName t) : Name := ⟨⟨.word, t, .origin⟩, rfl, h.notKeyword⟩

/-- What the scanner skips is trimmed too. -/
theorem isBlank_of_isSpace {c : CodePoint} (h : isSpace c = true) : c.isBlank = true := by
  simp only [isSpace, Bool.or_eq_true, beq_iff_eq] at h
  simp only [CodePoint.isBlank, CodePoint.isBetween, Bool.or_eq_true, Bool.and_eq_true,
    decide_eq_true_eq, beq_iff_eq]
  omega

/-- A text without blanks at its ends starts with none. -/
theorem InLine.head?_not_blank {t : Text} (h : InLine t) : ∀ c ∈ t.head?, c.isBlank = false := by
  intro c hc
  obtain ⟨r, rfl⟩ := List.head?_eq_some_iff.1 hc
  by_contra blank
  have start : Text.trimStart (c :: r) = Text.trimStart r := by
    rw [Text.trimStart, List.dropWhile_cons_of_pos (by simpa using blank), Text.trimStart]
  have short : (Text.trim (c :: r)).length ≤ r.length := by
    rw [Text.trim, start, Text.trimEnd, List.length_reverse]
    refine (List.dropWhile_sublist _).length_le.trans ?_
    rw [List.length_reverse]
    exact (List.dropWhile_sublist _).length_le
  rw [h.trimmed, List.length_cons] at short
  omega

/-- A text without blanks at its ends ends with none. -/
theorem InLine.getLast?_not_blank {t : Text} (h : InLine t) :
    ∀ c ∈ t.getLast?, c.isBlank = false := by
  intro c hc
  rw [← h.trimmed, Text.trim, Text.trimEnd, Option.mem_def, List.getLast?_reverse] at hc
  have first := List.head?_dropWhile_not CodePoint.isBlank t.trimStart.reverse
  rw [hc] at first
  simpa using first

/-- A text without line feeds has no lexeme that ends a line. -/
theorem Lexes.not_newline {t : Text} {ls : List Lexeme} (h : Lexes t ls)
    (oneLine : CodePoint.ofChar '\n' ∉ t) : ∀ l ∈ ls, l.terminal ≠ .newline := by
  intro l hl newline
  obtain ⟨spelled, before, after, rfl, -⟩ := h.exists_of_mem hl
  apply oneLine
  rw [newline] at spelled
  generalize l.text = w at spelled ⊢
  cases spelled with
  | lineFeed => simp
  | returnAndFeed => simp

/-- The start of an assignment has no line feed. -/
theorem IsName.lineFeed_notMem {target : Text} (h : IsName target) :
    CodePoint.ofChar '\n' ∉ assignmentStart target := by
  have inName := h.spelled.lineFeed_notMem (by decide)
  have inSign : CodePoint.ofChar '\n' ∉ Text.ofString " = " := by decide
  simp [assignmentStart, Text.concat, inName, inSign]

/-- An assignment of one line, closed, part by part. -/
theorem closeLastLine_assignment {target value : Text} (isName : IsName target)
    (inLine : InLine value) :
    closeLastLine (assignment target value) =
      target ++ ([CodePoint.ofChar ' '] ++ ([CodePoint.ofChar '='] ++ ([CodePoint.ofChar ' '] ++
        (value ++ [CodePoint.ofChar '\n'])))) := by
  have oneLine : CodePoint.ofChar '\n' ∉ assignment target value := by
    rw [assignment_eq, List.mem_append, not_or]
    exact ⟨isName.lineFeed_notMem, inLine.oneLine⟩
  rw [closeLastLine_of_open fun closed => oneLine (List.mem_of_getLast? closed), assignment_eq]
  simp [assignmentStart, Text.concat]
  rfl

/-- Blanks are over where a text in one line starts. -/
theorem InLine.endsBefore {t : Text} (h : InLine t) :
    Shape.blank.EndsBefore (t ++ [CodePoint.ofChar '\n']) := by
  cases t with
  | nil =>
    rw [List.nil_append, Shape.endsBefore_cons]
    rfl
  | cons c t =>
    rw [List.cons_append, Shape.endsBefore_cons]
    by_contra space
    have visible := h.head?_not_blank c rfl
    rw [isBlank_of_isSpace (by simpa [Shape.goesOn] using space)] at visible
    cases visible

/-- The equals sign of an assignment. -/
def equalsOf (target : Text) : Token .equals :=
  ⟨⟨.equals, [CodePoint.ofChar '='], (Place.origin.after target).after [CodePoint.ofChar ' ']⟩, rfl⟩

/-- The end of the line of an assignment. -/
def newlineOf (target value : Text) : Token .newline :=
  ⟨⟨.newline, [CodePoint.ofChar '\n'], Place.origin.after (assignment target value)⟩, rfl⟩

/-- The lexemes of an assignment are a name, an equals sign, those of the value further right, and
the end of the line. -/
theorem lexes_assignment_iff {target value : Text} (isName : IsName target)
    (inLine : InLine value) {ls : List Lexeme} :
    Lexes (closeLastLine (assignment target value)) ls ↔
      ∃ inner, Lexes value inner ∧
        ls = isName.lexeme.1 :: (equalsOf target).1 ::
          (inner.map (Lexeme.relocate (Place.behind (assignmentStart target))) ++
            [(newlineOf target value).1]) := by
  have space : Shape.blank.Spells [CodePoint.ofChar ' '] := .blank (by simp) (by decide)
  have noReturn : value.getLast? ≠ some (CodePoint.ofChar '\r') := by
    intro returned
    cases inLine.getLast?_not_blank _ returned
  have moves (c : CodePoint) (hc : c ∈ value) (p : Place) :=
    Place.next_behind (assignmentStart target) (ne_of_mem_of_not_mem hc inLine.oneLine) p
  have start : (((Place.origin.after target).after [CodePoint.ofChar ' ']).after
      [CodePoint.ofChar '=']).after [CodePoint.ofChar ' '] =
        Place.origin.behind (assignmentStart target) := by
    rw [← Place.after_of_oneLine isName.lineFeed_notMem, ← Place.after_append,
      ← Place.after_append, ← Place.after_append]
    simp [assignmentStart, Text.concat]
    rfl
  have stop : (Place.origin.behind (assignmentStart target)).after value =
      Place.origin.after (assignment target value) := by
    rw [← Place.after_of_oneLine isName.lineFeed_notMem, ← Place.after_append,
      assignment_eq]
  have beforeEquals (r : Text) : Shape.blank.EndsBefore ([CodePoint.ofChar '='] ++ r) :=
    Shape.endsBefore_cons.2 rfl
  -- Piece by piece from the left; what is left is the value and the line feed.
  have pieces (all : List Piece) :=
    @cuts_append_iff .origin _ target ([CodePoint.ofChar ' '] ++ ([CodePoint.ofChar '='] ++
      ([CodePoint.ofChar ' '] ++ (value ++ [CodePoint.ofChar '\n'])))) all isName.spelled
      (Shape.endsBefore_cons.2 rfl)
  simp only [cuts_append_iff space (beforeEquals _),
    cuts_append_iff Shape.Spells.equals (fun _ _ => rfl), cuts_append_iff space inLine.endsBefore,
    start, cuts_append_lineFeed_iff noReturn, cuts_relocate_iff moves, stop] at pieces
  rw [Lexes, closeLastLine_assignment isName inLine]
  simp only [pieces]
  constructor
  · rintro ⟨_, ⟨_, ⟨_, ⟨_, ⟨_, ⟨_, ⟨inner, cuts, rfl⟩, rfl⟩, rfl⟩, rfl⟩, rfl⟩, rfl⟩, rfl⟩
    refine ⟨_, ⟨inner, cuts, rfl⟩, ?_⟩
    simp only [List.filterMap_cons, List.filterMap_append, filterMap_lexeme?_relocate]
    rfl
  · rintro ⟨_, ⟨inner, cuts, rfl⟩, rfl⟩
    refine ⟨_, ⟨_, ⟨_, ⟨_, ⟨_, ⟨_, ⟨inner, cuts, rfl⟩, rfl⟩, rfl⟩, rfl⟩, rfl⟩, rfl⟩, ?_⟩
    simp only [List.filterMap_cons, List.filterMap_append, filterMap_lexeme?_relocate]
    rfl

/-! ## The derivation of an assignment -/

/-- What ends with the end of a line in a list that has no other ends there. -/
theorem eq_of_append_newline {inner s t : List Lexeme} {x y : Token .newline}
    (oneLine : ∀ l ∈ inner, l.terminal ≠ .newline) (h : s ++ x.1 :: t = inner ++ [y.1]) :
    s = inner ∧ t = [] := by
  rcases List.append_eq_append_iff.1 h with ⟨more, rfl, hmore⟩ | ⟨more, rfl, hmore⟩
  · cases more with
    | nil => exact ⟨(List.append_nil s).symm, (List.cons.inj hmore).2⟩
    | cons l more =>
      obtain rfl := (List.cons.inj hmore).1
      exact absurd x.2 (oneLine _ (by simp))
  · cases more with
    | nil => exact ⟨List.append_nil inner, (List.cons.inj hmore).2.symm⟩
    | cons l more => simp at hmore

/-- A name and an equals sign before lexemes in one line are derived exactly if these are derived as
an expression. -/
theorem Derivation.exists_program_assign_iff {target : Name} {equals : Token .equals}
    {newline : Token .newline} {inner : List Lexeme} {lines : List Line}
    (oneLine : ∀ l ∈ inner, l.terminal ≠ .newline) :
    (∃ program : Program,
        program.yield = target.1 :: equals.1 :: (inner ++ [newline.1]) ∧ program.lines = lines) ↔
      ∃ d : Postfix, d.yield = inner ∧ lines = [.assign target.1 d.phrase] := by
  constructor
  · rintro ⟨program, hyield, rfl⟩
    cases program with
    | nil => cases hyield
    | cons row rest =>
      obtain ⟨stmt, newline'⟩ := row
      cases stmt with
      | none =>
        rw [Program.yield_cons_none] at hyield
        have word := target.2.1
        rw [← (List.cons.inj hyield).1, newline'.2] at word
        cases word
      | some stmt =>
        -- The name ends at the equals sign, and the value at the only end of a line.
        have follows : Follows (equals.1 :: (inner ++ [newline.1])) := by
          intro l hl
          obtain rfl := Option.some.inj hl
          exact Or.inr (Or.inl equals.2)
        rw [Program.yield_cons_some, stmt.yield_eq, List.append_assoc] at hyield
        obtain ⟨hhead, htail⟩ := @yield_append_inj stmt.head (.name target) _ _
          (stmt.follows_tail newline' (Program.yield rest)) follows hyield
        have head := Postfix.yield_inj _ _ hhead
        cases stmt with
        | assign name sign value =>
          obtain rfl := Postfix.name.inj head
          have hvalue := (List.cons.inj htail).2
          obtain ⟨rfl, hrest⟩ := eq_of_append_newline oneLine hvalue
          refine ⟨value, rfl, ?_⟩
          cases rest with
          | nil => rfl
          | cons row rest => exact absurd hrest (Program.yield_cons_ne_nil row rest)
        | write base dot attr sign value => cases head
        | bare value =>
          have shape := equals.2
          rw [← (List.cons.inj htail).1, newline'.2] at shape
          cases shape
  · rintro ⟨d, rfl, rfl⟩
    refine ⟨[(some (.assign target equals d), newline)], ?_, rfl⟩
    rw [Program.yield_cons_some]
    rfl

/-! ## What an assignment says -/

/-- A machine reads a name, an equals sign and lexemes in one line exactly if it reads these as an
expression where they were before. -/
theorem script_run_assign_iff {target : Name} {equals : Token .equals} {newline : Token .newline}
    (f : Place → Place) {inner : List Lexeme} {lines : List Line}
    (oneLine : ∀ l ∈ inner, l.terminal ≠ .newline) :
    (∃ m, Machine.script.run
        (target.1 :: equals.1 :: (inner.map (Lexeme.relocate f) ++ [newline.1])) = .ok m ∧
        m.lines? = some lines) ↔
      ∃ phrase, (∃ m, Machine.expression.run inner = .ok m ∧ m.phrase? = some phrase) ∧
        lines = [.assign target.1 (phrase.relocate f)] := by
  have moved : ∀ l ∈ inner.map (Lexeme.relocate f), l.terminal ≠ .newline := by
    intro l' hl'
    obtain ⟨l, hl, rfl⟩ := List.mem_map.1 hl'
    exact oneLine l hl
  rw [script_run_iff, exists_program_assign_iff moved]
  constructor
  · rintro ⟨d, hd, rfl⟩
    obtain ⟨phrase, read, hphrase⟩ :=
      (expression_run_relocate_iff f).1 (expression_run_iff.2 ⟨d, hd, rfl⟩)
    exact ⟨phrase, read, by rw [hphrase]⟩
  · rintro ⟨phrase, read, rfl⟩
    obtain ⟨d, hd, hphrase⟩ :=
      expression_run_iff.1 ((expression_run_relocate_iff f).2 ⟨phrase, read, rfl⟩)
    exact ⟨d, hd, by rw [hphrase]⟩

/-- An assignment is read exactly if its value is read as an expression. -/
theorem readWith_assignment_iff {target value : Text} (isName : IsName target)
    (inLine : InLine value) {lines : List Line} :
    readWith .script Machine.lines? (closeLastLine (assignment target value)) = .ok lines ↔
      ∃ phrase, readWith .expression Machine.phrase? value = .ok phrase ∧
        lines = [.assign isName.lexeme.1
          (phrase.relocate (Place.behind (assignmentStart target)))] := by
  simp only [readWith_ok_iff, lexes_assignment_iff isName inLine]
  constructor
  · rintro ⟨_, ⟨inner, lexes, rfl⟩, accepted⟩
    obtain ⟨phrase, read, rfl⟩ :=
      (script_run_assign_iff _ (lexes.not_newline inLine.oneLine)).1 accepted
    exact ⟨phrase, ⟨inner, lexes, read⟩, rfl⟩
  · rintro ⟨phrase, ⟨inner, lexes, read⟩, rfl⟩
    exact ⟨_, ⟨inner, lexes, rfl⟩,
      (script_run_assign_iff _ (lexes.not_newline inLine.oneLine)).2 ⟨phrase, read, rfl⟩⟩

section Values

variable {target value : Text} (isName : IsName target) (inLine : InLine value)
include isName inLine

variable [CharacterNames]

/-- What an assignment says when its value is read as a phrase. -/
theorem parse_assignment_of_read {phrase : Phrase}
    (h : readWith .expression Machine.phrase? value = .ok phrase) :
    parse (assignment target value) =
      ((phrase.toExpr.map fun e => [Statement.assign target
          (e.relocate (Spot.rightward (assignmentStart target).length)) ⟨1, 1⟩]).mapError
        (Violation.relocate (Spot.rightward (assignmentStart target).length))).mapError
        .violation := by
  rw [parse, (readWith_assignment_iff isName inLine).2 ⟨phrase, h, rfl⟩]
  have spots (p : Place) : (p.behind (assignmentStart target)).spot =
    p.spot.rightward (assignmentStart target).length := rfl
  dsimp only
  rw [List.mapM_cons, List.mapM_nil, Line.toStatement, Phrase.toExpr_relocate spots]
  cases phrase.toExpr with
  | ok e => rfl
  | error v => rfl

/-- What an assignment says is what its value says, further right, for the name. -/
theorem parse_assignment_of_ok {e : Expr} (h : parseExpr value = .ok e) :
    parse (assignment target value) =
      .ok [.assign target (e.relocate (Spot.rightward (assignmentStart target).length))
        ⟨1, 1⟩] := by
  rw [parseExpr, inLine.trimmed] at h
  cases read : readWith .expression Machine.phrase? value with
  | error fault =>
    rw [read] at h
    cases h
  | ok phrase =>
    rw [read] at h
    rw [parse_assignment_of_read isName inLine read, Except.mapError_eq_ok_iff.1 h]
    rfl

/-- An assignment breaks the rule that its value breaks, further right. -/
theorem parse_assignment_of_violation {v : Violation}
    (h : parseExpr value = .error (.violation v)) :
    parse (assignment target value) =
      .error (.violation (v.relocate (Spot.rightward (assignmentStart target).length))) := by
  rw [parseExpr_eq_violation_iff, inLine.trimmed] at h
  obtain ⟨phrase, read, broken⟩ := h
  rw [parse_assignment_of_read isName inLine read, broken]
  rfl

/-- An assignment is a syntax error if its value is one. -/
theorem parse_assignment_of_unexpected {excerpt : Text} {spot : Spot}
    (h : parseExpr value = .error (.unexpected excerpt spot)) :
    ∃ excerpt spot, parse (assignment target value) = .error (.unexpected excerpt spot) := by
  rw [parseExpr_eq_unexpected_iff, inLine.trimmed] at h
  simp only [parse_eq_unexpected_iff]
  rw [readWith_unexpected_iff]
  rintro ⟨lines, read⟩
  obtain ⟨phrase, hphrase, -⟩ := (readWith_assignment_iff isName inLine).1 read
  rw [h] at hphrase
  cases hphrase

end Values

end Packaging.Script
