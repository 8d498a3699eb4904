import Packaging.Proofs.Script.Nodes
import Packaging.Proofs.Script.SyntaxErrors

/-! # Where nodes stand
The lexemes of a text stand one behind the other: further right in a line, and in the next line
behind the end of one. A statement has no end of a line in it, so all of it is in one line, and the
first lexeme of each of its parts is the leftmost. -/

namespace Packaging.Script

open Script.Derivation

/-! ## The order of lexemes -/

/-- Whether a lexeme stands in the same line as another, further left. -/
def Lexeme.LeftOf (a b : Lexeme) : Prop :=
  a.place.spot.line = b.place.spot.line ∧ a.place.spot.column < b.place.spot.column

/-- Lexemes that stand at a spot or behind it, further and further right up to the end of a line,
and then in the same way in the next line. -/
inductive InOrder : Spot → List Lexeme → Prop
  /-- No lexemes. -/
  | nil {p : Spot} : InOrder p []
  /-- A lexeme within a line. -/
  | within {p : Spot} {l : Lexeme} {ls : List Lexeme} (goesOn : l.terminal ≠ .newline)
      (line : l.place.spot.line = p.line) (column : p.column ≤ l.place.spot.column)
      (others : InOrder ⟨p.line, l.place.spot.column + 1⟩ ls) : InOrder p (l :: ls)
  /-- The end of a line. -/
  | newline {p : Spot} {l : Lexeme} {ls : List Lexeme} (ends : l.terminal = .newline)
      (line : l.place.spot.line = p.line) (column : p.column ≤ l.place.spot.column)
      (others : InOrder ⟨p.line + 1, 1⟩ ls) : InOrder p (l :: ls)

namespace InOrder

/-- Lexemes in order from a spot on are in order from further left in its line. -/
theorem of_left {p : Spot} {ls : List Lexeme} {column : Nat} (h : InOrder p ls)
    (left : column ≤ p.column) : InOrder ⟨p.line, column⟩ ls := by
  cases h with
  | nil => exact .nil
  | within goesOn line behind others => exact .within goesOn line (left.trans behind) others
  | newline ends line behind others => exact .newline ends line (left.trans behind) others

/-- Of lexemes in order the first ones are in order. -/
theorem of_append {p : Spot} {a b : List Lexeme} (h : InOrder p (a ++ b)) : InOrder p a := by
  induction a generalizing p with
  | nil => exact .nil
  | cons l a ih =>
    cases h with
    | within goesOn line column others => exact .within goesOn line column (ih others)
    | newline ends line column others => exact .newline ends line column (ih others)

/-- Without the end of a line among them, lexemes all stand in one line. -/
theorem of_mem {p : Spot} {ls : List Lexeme} (h : InOrder p ls)
    (oneLine : ∀ l ∈ ls, l.terminal ≠ .newline) :
    ∀ l ∈ ls, l.place.spot.line = p.line ∧ p.column ≤ l.place.spot.column := by
  induction h with
  | nil => exact nofun
  | @within p l ls goesOn line column others ih =>
    intro m hm
    rcases List.mem_cons.1 hm with rfl | hm
    · exact ⟨line, column⟩
    · obtain ⟨same, right⟩ := ih (fun m hm => oneLine m (List.mem_cons_of_mem _ hm)) m hm
      exact ⟨same, column.trans ((Nat.le_succ _).trans right)⟩
  | newline ends line column others ih => exact absurd ends (oneLine _ List.mem_cons_self)

/-- Without the end of a line among them, lexemes stand each to the left of those behind it. -/
theorem pairwise {p : Spot} {ls : List Lexeme} (h : InOrder p ls)
    (oneLine : ∀ l ∈ ls, l.terminal ≠ .newline) : ls.Pairwise Lexeme.LeftOf := by
  induction h with
  | nil => exact .nil
  | @within p l ls goesOn line column others ih =>
    have rest : ∀ m ∈ ls, m.terminal ≠ .newline := fun m hm =>
      oneLine m (List.mem_cons_of_mem _ hm)
    refine .cons (fun m hm => ?_) (ih rest)
    obtain ⟨same, right⟩ := others.of_mem rest m hm
    exact ⟨line.trans same.symm, right⟩
  | newline ends line column others ih => exact absurd ends (oneLine _ List.mem_cons_self)

/-- The end of a line is in the line that it ends, right of everything in it, and what is behind it
starts in the next. -/
theorem of_append_newline {p : Spot} {a b : List Lexeme} {l : Lexeme} (h : InOrder p (a ++ l :: b))
    (oneLine : ∀ l ∈ a, l.terminal ≠ .newline) (ends : l.terminal = .newline) :
    (l.place.spot.line = p.line ∧ p.column ≤ l.place.spot.column) ∧ (∀ m ∈ a, m.LeftOf l) ∧
      InOrder ⟨p.line + 1, 1⟩ b := by
  induction a generalizing p with
  | nil =>
    cases h with
    | within goesOn line column others => exact absurd ends goesOn
    | newline ends line column others => exact ⟨⟨line, column⟩, nofun, others⟩
  | cons m a ih =>
    have rest : ∀ l ∈ a, l.terminal ≠ .newline := fun l hl => oneLine l (List.mem_cons_of_mem _ hl)
    cases h with
    | within goesOn line column others =>
      obtain ⟨⟨same, right⟩, left, next⟩ := ih others rest
      refine ⟨⟨same, column.trans ((Nat.le_succ _).trans right)⟩, fun k hk => ?_, next⟩
      rcases List.mem_cons.1 hk with rfl | hk
      · exact ⟨line.trans same.symm, right⟩
      · exact left k hk
    | newline ends line column others => exact absurd ends (oneLine _ List.mem_cons_self)

/-- No lexeme stands in a line before that of the spot. -/
theorem line_le {p : Spot} {ls : List Lexeme} (h : InOrder p ls) :
    ∀ l ∈ ls, p.line ≤ l.place.spot.line := by
  induction h with
  | nil => exact nofun
  | within goesOn line column others ih =>
    intro m hm
    rcases List.mem_cons.1 hm with rfl | hm
    · exact line.ge
    · exact ih m hm
  | newline ends line column others ih =>
    intro m hm
    rcases List.mem_cons.1 hm with rfl | hm
    · exact line.ge
    · exact (Nat.le_succ _).trans (ih m hm)

end InOrder

/-- The end of a line leads to the start of the next. -/
theorem Shape.Spells.after_newline {t : Text} (h : (Shape.lexeme .newline).Spells t) (p : Place) :
    (p.after t).spot = ⟨p.spot.line + 1, 1⟩ := by
  cases h with
  | lineFeed => rfl
  | returnAndFeed => rfl

/-- The lexemes of a text stand in order. -/
theorem Cuts.inOrder {place : Place} {t : Text} {pieces : List Piece} (h : Cuts place t pieces) :
    InOrder place.spot (pieces.filterMap Piece.lexeme?) := by
  induction h with
  | nil => exact .nil
  | @cons place shape w r pieces longest rest ih =>
    by_cases newline : shape = .lexeme .newline
    · subst newline
      rw [longest.spelled.after_newline] at ih
      exact .newline rfl rfl (Nat.le_refl _) ih
    · rw [Place.after_of_oneLine (longest.spelled.lineFeed_notMem newline)] at ih
      have far : 0 < w.length := List.length_pos_iff.2 longest.spelled.ne_nil
      cases shape with
      | lexeme terminal =>
        refine .within (fun ends => newline (congrArg Shape.lexeme ends)) rfl (Nat.le_refl _) ?_
        exact ih.of_left (Nat.add_le_add_left far _)
      | blank => exact ih.of_left (Nat.le_add_right _ _)
      | comment => exact ih.of_left (Nat.le_add_right _ _)

/-- The lexemes of a text are in order from its start on. -/
theorem Lexes.inOrder {t : Text} {ls : List Lexeme} (h : Lexes t ls) : InOrder ⟨1, 1⟩ ls := by
  obtain ⟨pieces, cuts, rfl⟩ := h
  exact cuts.inOrder

/-! ## Lexemes in a text -/

/-- Whether a lexeme stands in a text where its place says: as many code points are before it as its
offset says, its line is one more than the line feeds among them, and its column one more than what
there is behind the last line feed. -/
def Lexeme.StandsIn (t : Text) (l : Lexeme) : Prop :=
  ∃ before after, t = before ++ (l.text ++ after) ∧
    l.place = ⟨before.length, 1 + before.lineFeeds, 1 + before.lastLine.length⟩

/-- Each lexeme of a text stands in it. -/
theorem Lexes.standsIn {t : Text} {ls : List Lexeme} (h : Lexes t ls) {l : Lexeme}
    (mem : l ∈ ls) : l.StandsIn t := by
  obtain ⟨-, before, after, split, place⟩ := h.exists_of_mem mem
  exact ⟨before, after, split, by rw [place, Place.after_origin]⟩

/-- A lexeme within a line stands in the text itself, whether its last line had to be closed or
not. -/
theorem Lexes.standsIn_source {source : Text} {ls : List Lexeme}
    (h : Lexes (closeLastLine source) ls) {l : Lexeme} (mem : l ∈ ls)
    (goesOn : l.terminal ≠ .newline) : l.StandsIn source := by
  obtain ⟨before, after, split, place⟩ := h.standsIn mem
  by_cases closed : source.getLast? = some (CodePoint.ofChar '\n')
  · rw [closeLastLine, if_pos closed] at split
    exact ⟨before, after, split, place⟩
  · have spelled := (h.exists_of_mem mem).1
    have noFeed := spelled.lineFeed_notMem fun same => goesOn (Shape.lexeme.inj same)
    rw [closeLastLine_of_open closed, ← List.append_assoc] at split
    rcases List.append_eq_append_iff.1 split with ⟨more, hbefore, hafter⟩ | ⟨more, rfl, -⟩
    · cases more with
      | nil => exact ⟨before, [], by rw [List.append_nil, hbefore, List.append_nil], place⟩
      | cons c more =>
        -- The lexeme does not end with the line feed that was put behind the text.
        have last := congrArg List.getLast? hbefore
        rw [List.cons_append, List.cons.injEq] at hafter
        rw [← hafter.1, List.getLast?_append_of_ne_nil before spelled.ne_nil,
          (List.append_eq_nil_iff.1 hafter.2.symm).1, List.getLast?_concat] at last
        exact absurd (List.mem_of_getLast? last) noFeed
    · exact ⟨before, more, List.append_assoc _ _ _, place⟩

/-! ## Nodes in a text -/

/-- Whether the first of some lexemes stands in a text at a spot. -/
def FirstStandsAt (t : Text) (ls : List Lexeme) (spot : Spot) : Prop :=
  ∃ l rest, ls = l :: rest ∧ l.StandsIn t ∧ spot = l.place.spot

/-- Whether everything in a list of nodes is in the line of a spot, and not left of it. -/
def RightOf (spot : Spot) (nodes : List Expr) : Prop :=
  ∀ e ∈ nodes, e.spot.line = spot.line ∧ spot.column ≤ e.spot.column

/-- Whether a node is built by a part of a derivation and stands in a text where the part starts,
nothing in it being further left. -/
structure Derivation.Postfix.LocatedIn [CharacterNames] (t : Text) (d : Postfix) (e : Expr) : Prop
    extends d.BuildsNode e where
  /-- The node stands at the first lexeme of the part. -/
  first : FirstStandsAt t d.yield e.spot
  /-- Lines and columns are counted from one. -/
  positive : 1 ≤ e.spot.line ∧ 1 ≤ e.spot.column
  /-- The nodes in it are in the same line and not further left. -/
  parts : RightOf e.spot e.nodes

/-- Whether a statement is built by a derivation and stands in a text where the derivation starts,
nothing in it being further left. -/
structure Derivation.Stmt.LocatedIn [CharacterNames] (t : Text) (stmt : Stmt)
    (statement : Statement) : Prop where
  /-- It is what is built. -/
  built : stmt.Builds statement
  /-- The statement stands at its first lexeme, be it a parenthesis. -/
  first : FirstStandsAt t stmt.yield statement.spot
  /-- Lines and columns are counted from one. -/
  positive : 1 ≤ statement.spot.line ∧ 1 ≤ statement.spot.column
  /-- Each node of the statement is located. -/
  nodes : List.Forall₂ (Postfix.LocatedIn t) stmt.nodes statement.nodes
  /-- The nodes are in the same line and not further left. -/
  parts : RightOf statement.spot statement.nodes

/-- Lines and columns count from one. -/
theorem FirstStandsAt.positive {t : Text} {ls : List Lexeme} {spot : Spot}
    (h : FirstStandsAt t ls spot) : 1 ≤ spot.line ∧ 1 ≤ spot.column := by
  obtain ⟨l, rest, -, ⟨before, after, -, place⟩, rfl⟩ := h
  rw [place]
  exact ⟨Nat.le_add_right _ _, Nat.le_add_right _ _⟩

variable [CharacterNames]

/-- What parts of some lexemes build is not left of the first of these. -/
theorem rightOf_first {l : Lexeme} {rest : List Lexeme} {parts : List Postfix}
    {nodes : List Expr} (ordered : (l :: rest).Pairwise Lexeme.LeftOf)
    (sub : ∀ part ∈ parts, part.yield.Sublist (l :: rest))
    (built : List.Forall₂ Postfix.BuildsNode parts nodes) : RightOf l.place.spot nodes := by
  intro e he
  obtain ⟨part, hpart, builds⟩ := exists_of_mem_right built he
  obtain ⟨first, others, hyield, hstart⟩ := part.exists_first
  have mem : first ∈ l :: rest := (sub part hpart).subset (by rw [hyield]; exact List.mem_cons_self)
  rw [builds.spot_eq, hstart]
  rcases List.mem_cons.1 mem with rfl | mem
  · exact ⟨rfl, Nat.le_refl _⟩
  · obtain ⟨line, column⟩ := List.rel_of_pairwise_cons ordered mem
    exact ⟨line.symm, column.le⟩

/-- Where lexemes stand in a text in order, the nodes that parts of them build are located. -/
theorem forall₂_locatedIn {t : Text} {ls : List Lexeme} {parts : List Postfix}
    {nodes : List Expr} (ordered : ls.Pairwise Lexeme.LeftOf) (stand : ∀ l ∈ ls, l.StandsIn t)
    (sub : ∀ part ∈ parts, part.yield.Sublist ls)
    (built : List.Forall₂ Postfix.BuildsNode parts nodes) :
    List.Forall₂ (Postfix.LocatedIn t) parts nodes := by
  refine ((List.forall₂_and_left parts nodes).2 ⟨sub, built⟩).imp ?_
  rintro part e ⟨inside, builds⟩
  obtain ⟨l, rest, hyield, hstart⟩ := part.exists_first
  have mem : l ∈ part.yield := by
    rw [hyield]
    exact List.mem_cons_self
  have spot : e.spot = l.place.spot := by rw [builds.spot_eq, hstart]
  have first : FirstStandsAt t part.yield e.spot :=
    ⟨l, rest, hyield, stand l (inside.subset mem), spot⟩
  refine ⟨builds, first, first.positive, ?_⟩
  -- What is in the node is built by parts of its part, whose first lexeme is leftmost.
  rw [spot]
  have within := ordered.sublist inside
  rw [hyield] at within
  refine rightOf_first within (fun inner hinner => ?_) (part.forall₂_nodes builds.built)
  rw [← hyield]
  exact part.sublist_of_mem_nodes hinner

/-- A statement whose lexemes stand in a text in order is located. -/
theorem Derivation.Stmt.locatedIn {t : Text} {stmt : Stmt} {statement : Statement}
    (built : stmt.Builds statement) (ordered : stmt.yield.Pairwise Lexeme.LeftOf)
    (stand : ∀ l ∈ stmt.yield, l.StandsIn t) : stmt.LocatedIn t statement := by
  obtain ⟨l, rest, hyield, spot⟩ := stmt.exists_first built
  have sub : ∀ part ∈ stmt.nodes, part.yield.Sublist stmt.yield :=
    fun part hpart => stmt.sublist_of_mem_nodes hpart
  have first : FirstStandsAt t stmt.yield statement.spot :=
    ⟨l, rest, hyield, stand l (by rw [hyield]; exact List.mem_cons_self), spot⟩
  refine ⟨built, first, first.positive, forall₂_locatedIn ordered stand sub
    (stmt.forall₂_nodes built), ?_⟩
  rw [spot]
  rw [hyield] at ordered sub
  exact rightOf_first ordered sub (stmt.forall₂_nodes built)

/-! ## Statements in a text -/

/-- The statements of a script, empty lines left out. -/
def Derivation.Program.stmts (program : Program) : List Stmt := program.filterMap (·.1)

/-- Whether the statements of a script are located in a text, each in a line further down than those
before it, and at the first lexeme of its line. -/
structure Derivation.Program.LocatedIn (t : Text) (program : Program)
    (statements : List Statement) : Prop where
  /-- Each statement is located. -/
  located : List.Forall₂ (Stmt.LocatedIn t) program.stmts statements
  /-- Each statement stands in a line before those of the statements behind it. -/
  increasing : statements.Pairwise fun a b => a.spot.line < b.spot.line
  /-- No lexeme of its line stands further left than a statement. -/
  leftmost : ∀ statement ∈ statements, ∀ l ∈ program.yield,
    l.place.spot.line = statement.spot.line → statement.spot.column ≤ l.place.spot.column

/-- A statement and the end of its line are in the line where they start, nothing in it being left
of the statement, and what is behind them starts in the next line. -/
theorem Derivation.Stmt.inOrder_row {stmt : Stmt} {statement : Statement}
    (built : stmt.Builds statement) {newline : Token .newline} {p : Spot} {ls : List Lexeme}
    (ordered : InOrder p (stmt.yield ++ newline.1 :: ls)) :
    statement.spot.line = p.line ∧
      (∀ l ∈ stmt.yield ++ [newline.1],
        l.place.spot.line = p.line ∧ statement.spot.column ≤ l.place.spot.column) ∧
      InOrder ⟨p.line + 1, 1⟩ ls := by
  obtain ⟨⟨line, -⟩, left, next⟩ := ordered.of_append_newline stmt.not_newline newline.2
  obtain ⟨first, others, hyield, spot⟩ := stmt.exists_first built
  have mem : first ∈ stmt.yield := by
    rw [hyield]
    exact List.mem_cons_self
  have inLine := ordered.of_append.of_mem stmt.not_newline
  have row := ordered.of_append.pairwise stmt.not_newline
  rw [spot]
  refine ⟨(inLine first mem).1, fun l hl => ?_, next⟩
  rcases List.mem_append.1 hl with hl | hl
  · refine ⟨(inLine l hl).1, ?_⟩
    rw [hyield] at hl row
    rcases List.mem_cons.1 hl with rfl | hl
    · exact Nat.le_refl _
    · exact (List.rel_of_pairwise_cons row hl).2.le
  · rw [List.mem_singleton.1 hl]
    exact ⟨line, (left first mem).2.le⟩

/-- Statements whose lexemes stand in a text in order are located, none before the first line. -/
theorem Derivation.Program.locatedIn {t : Text} {program : Program} {statements : List Statement}
    (built : program.Builds statements) {p : Spot} (ordered : InOrder p program.yield)
    (stand : ∀ l ∈ program.yield, l.terminal ≠ .newline → l.StandsIn t) :
    program.LocatedIn t statements ∧ ∀ statement ∈ statements, p.line ≤ statement.spot.line := by
  induction built generalizing p with
  | nil => exact ⟨⟨.nil, .nil, nofun⟩, nofun⟩
  | @blank newline program statements rest ih =>
    rw [Program.yield_cons_none] at ordered stand
    obtain ⟨⟨line, -⟩, -, next⟩ := InOrder.of_append_newline (a := []) ordered nofun newline.2
    obtain ⟨⟨located, increasing, leftmost⟩, below⟩ :=
      ih next fun l hl => stand l (List.mem_cons_of_mem _ hl)
    refine ⟨⟨located, increasing, ?_⟩, fun one h => (Nat.le_succ _).trans (below one h)⟩
    intro one hone l hl same
    rw [Program.yield_cons_none] at hl
    rcases List.mem_cons.1 hl with rfl | hl
    · exact absurd (line.symm.trans same) (Nat.ne_of_lt (below one hone))
    · exact leftmost one hone l hl same
  | @line stmt newline program statement statements built rest ih =>
    rw [Program.yield_cons_some] at ordered stand
    obtain ⟨here, row, next⟩ := Stmt.inOrder_row built ordered
    obtain ⟨⟨located, increasing, leftmost⟩, below⟩ := ih next fun l hl =>
      stand l (List.mem_append_right _ (List.mem_cons_of_mem _ hl))
    have first := Stmt.locatedIn built (ordered.of_append.pairwise stmt.not_newline) fun l hl =>
      stand l (List.mem_append_left _ hl) (stmt.not_newline l hl)
    refine ⟨⟨.cons first located, .cons (fun other h => ?_) increasing, ?_⟩, ?_⟩
    · rw [here]
      exact below other h
    · intro one hone l hl same
      rw [Program.yield_cons_some, List.append_cons, List.mem_append] at hl
      -- A statement and a lexeme in one line are both in the first one, or both behind it.
      rcases List.mem_cons.1 hone with rfl | hone
      · rcases hl with hl | hl
        · exact (row l hl).2
        · exact absurd (same.trans here) (Nat.ne_of_gt (next.line_le l hl))
      · rcases hl with hl | hl
        · exact absurd ((row l hl).1.symm.trans same) (Nat.ne_of_lt (below one hone))
        · exact leftmost one hone l hl same
    · intro one hone
      rcases List.mem_cons.1 hone with rfl | hone
      · exact here.ge
      · exact (Nat.le_succ _).trans (below one hone)

/-! ## Accepted texts -/

/-- An accepted script has a derivation whose statements are located in the text. -/
theorem exists_locatedIn_of_parse {source : Text} {statements : List Statement}
    (h : parse source = .ok statements) :
    ∃ program : Program, Lexes (closeLastLine source) program.yield ∧
      program.Builds statements ∧ program.LocatedIn source statements := by
  obtain ⟨program, lexes, built⟩ := parse_ok_iff.1 h
  refine ⟨program, lexes, built, ?_⟩
  exact (Program.locatedIn built lexes.inOrder fun l hl goesOn =>
    lexes.standsIn_source hl goesOn).1

/-- **Every node stands at its first lexeme.** A script has a derivation whose statements and nodes
are located in the text, and an expression one whose nodes are located in the text without the
blanks around it. So a literal, a name or a call is where its own first lexeme is and not where
parentheses around it are, an attribute is where the first lexeme of its base is, parentheses around
the base included, and a statement is at the first lexeme of its line. All nodes of a statement are
in its line, none is left of the statement or of a node that it is in, and statements stand in lines
further and further down. -/
theorem nodes_at_first_lexemes (source : Text) :
    (∀ statements, parse source = .ok statements →
      ∃ program : Program, Lexes (closeLastLine source) program.yield ∧
        program.Builds statements ∧ program.LocatedIn source statements) ∧
    (∀ e, parseExpr source = .ok e →
      ∃ d : Postfix, Lexes source.trim d.yield ∧ d.Builds e ∧
        List.Forall₂ (Postfix.LocatedIn source.trim) d.nodes e.nodes) := by
  constructor
  · intro statements h
    exact exists_locatedIn_of_parse h
  · intro e h
    obtain ⟨d, lexes, built⟩ := parseExpr_ok_iff.1 h
    refine ⟨d, lexes, built, ?_⟩
    exact forall₂_locatedIn (lexes.inOrder.pairwise d.not_newline)
      (fun l hl => lexes.standsIn hl) (fun part hpart => d.sublist_of_mem_nodes hpart)
      (d.forall₂_nodes built)

end Packaging.Script
