import Mathlib.Logic.Relation
import Packaging.Proofs.Script.Boundaries
import Packaging.Proofs.Script.LineEndings
import Packaging.Proofs.Script.Occurrences
import Packaging.Proofs.Script.Positions

/-! # Layout
Spaces, comments, empty lines, parentheses around expressions and a comma after the last argument of
a call are put into a script without a change of what it says. Each of them leaves the lexemes of
the script as they are, or adds lexemes to a derivation that says the same with them. -/

namespace Packaging.Script

open Script.Derivation

/-! ## Edits -/

/-- Whether no lexeme of a script reaches across a place, given by what is before and behind it. -/
def BetweenLexemes (s r : Text) : Prop :=
  ∀ ls, Lexes (closeLastLine (s ++ r)) ls →
    ∀ l ∈ ls, l.stop ≤ s.length ∨ s.length ≤ l.place.offset

/-- Whether a text starts with the end of a line. -/
def StartsWithLineEnd (t : Text) : Prop :=
  [CodePoint.ofChar '\n'] <+: t ∨ [CodePoint.ofChar '\r', CodePoint.ofChar '\n'] <+: t

/-- Whether a text is a line of spaces and tabs, perhaps with a comment. -/
def IsEmptyLine (t : Text) : Prop :=
  ∃ g e, t = g ++ e ∧ Gap e g ∧ (Shape.lexeme .newline).Spells e

/-- Whether an expression reaches from the end of a text to the end of the text after it. -/
structure Derivation.Postfix.Spans (x : Postfix) (s m : Text) : Prop where
  /-- Its first lexeme starts behind the first text. -/
  first : ∀ l ∈ x.yield.head?, l.place.offset = s.length
  /-- Its last lexeme is over behind the second text. -/
  last : ∀ l ∈ x.yield.getLast?, l.stop = (s ++ m).length

/-- A script and the same with another layout. -/
inductive Edit : Text → Text → Prop
  /-- Spaces and tabs anywhere between lexemes. -/
  | spaces {s u r : Text} (between : BetweenLexemes s r) (spaces : ∀ c ∈ u, isSpace c = true) :
      Edit (s ++ r) (s ++ (u ++ r))
  /-- A comment before the end of a line. -/
  | comment {s t r : Text} (between : BetweenLexemes s r) (oneLine : ∀ c ∈ t, c ≠ '\n')
      (ending : StartsWithLineEnd (closeLastLine r)) :
      Edit (s ++ r) (s ++ (CodePoint.ofChar '#' :: t ++ r))
  /-- Empty lines before, between and behind lines. -/
  | emptyLines {s r : Text} {rows : List Text} (ends : s.EndsLine)
      (empty : ∀ row ∈ rows, IsEmptyLine row) : Edit (s ++ r) (s ++ (rows.flatten ++ r))
  /-- Parentheses around an expression. -/
  | parentheses {s m r : Text} {program : Program} {x : Postfix} {before after : List Lexeme}
      (lexes : Lexes (closeLastLine (s ++ (m ++ r))) program.yield)
      (occurs : Program.Occurs x before program after) (spans : x.Spans s m) :
      Edit (s ++ (m ++ r)) (s ++ (CodePoint.ofChar '(' :: (m ++ CodePoint.ofChar ')' :: r)))
  /-- A comma behind the last argument of a call. -/
  | comma {s r : Text} {program : Program} {func : Name} {opening : Token .opening}
      {arguments : Arguments} {closing : Token .closing} {before after : List Lexeme}
      (lexes : Lexes (closeLastLine (s ++ r)) program.yield)
      (occurs : Program.Occurs (.callWith func opening arguments closing) before program after)
      (none : ¬ arguments.EndsWithComma) (behind : ∀ l ∈ arguments.yield, l.stop ≤ s.length)
      (ahead : s.length ≤ closing.1.place.offset) :
      Edit (s ++ r) (s ++ CodePoint.ofChar ',' :: r)

/-! ## Closing the last line -/

/-- The last line is closed behind any place but the end of a text whose last line is closed. -/
theorem closeLastLine_parts {s r : Text}
    (h : r = [] → ¬ s.getLast? = some (CodePoint.ofChar '\n')) :
    closeLastLine (s ++ r) = s ++ closeLastLine r := by
  by_cases empty : r = []
  · subst empty
    rw [List.append_nil, closeLastLine_of_open (h rfl)]
    rfl
  · exact closeLastLine_append s empty

/-- Behind a place where a lexeme starts the last line is closed. -/
theorem closeLastLine_of_lexeme {s r : Text} {ls : List Lexeme}
    (lexes : Lexes (closeLastLine (s ++ r)) ls) {l : Lexeme} (mem : l ∈ ls)
    (behind : s.length ≤ l.place.offset) : closeLastLine (s ++ r) = s ++ closeLastLine r := by
  refine closeLastLine_parts ?_
  rintro rfl closed
  rw [List.append_nil, closeLastLine, if_pos closed] at lexes
  obtain ⟨spelled, u, v, rfl, place⟩ := lexes.exists_of_mem mem
  have nonempty := List.length_pos_iff.2 spelled.ne_nil
  rw [place, Place.offset_after] at behind
  simp only [Place.origin, List.length_append] at behind
  omega

/-! ## Gaps -/

/-- A gap and the end of a line say nothing. -/
theorem parse_of_gap [CharacterNames] {t g e : Text} (closed : closeLastLine t = g ++ e)
    (gap : Gap e g) (ending : (Shape.lexeme .newline).Spells e) : parse t = .ok [] := by
  have ends : (Shape.lexeme .newline).EndsBefore ([] : Text) := Shape.endsBefore_nil _
  have longest := Shape.longest_append_iff.2 ⟨ending, ends⟩
  have newline (p : Place) : LexesFrom p (e ++ []) [⟨.newline, e, p⟩] :=
    .cons longest ⟨[], .nil, rfl⟩
  rw [List.append_nil] at newline longest
  have first : StartsWith .origin e [⟨.newline, e, .origin⟩] := .cons rfl longest
  have lexes : Lexes (closeLastLine t) [⟨.newline, e, .after .origin g⟩] := by
    rw [closed]
    exact (newline _).of_gap gap first.endsBefore
  exact parse_ok_iff.2 ⟨[(none, ⟨_, rfl⟩)], lexes, .blank .nil⟩

/-- What fills gaps may be put between lexemes. -/
theorem parse_of_filled [CharacterNames] {s r filler : Text} {statements : List Statement}
    (h : parse (s ++ r) = .ok statements) (between : BetweenLexemes s r)
    (gap : Gap [CodePoint.ofChar '\n'] filler)
    (fills : ∀ before after, Boundary s (closeLastLine r) before after →
      ∃ after', Lexes (s ++ (filler ++ closeLastLine r)) (before ++ after') ∧
        List.Forall₂ (Lexeme.Matches Place.forget) after after') :
    SaysSame (s ++ (filler ++ r)) statements := by
  by_cases atEnd : r = [] ∧ s.getLast? = some (CodePoint.ofChar '\n')
  · -- Behind the end of the last line the filler is another line.
    obtain ⟨rfl, closed⟩ := atEnd
    rw [List.append_nil] at h ⊢
    have nonempty : s ≠ [] := by
      rintro rfl
      cases closed
    have none : parse filler = .ok [] := by
      refine parse_of_gap (closeLastLine_of_open fun last => ?_) gap .lineFeed
      exact gap.oneLine _ (List.mem_of_getLast? last) rfl
    exact ⟨_, (parse_append_iff (Text.endsLine_of_getLast? closed) nonempty).2
      ⟨statements, [], h, none, rfl⟩, by rw [List.map_nil, List.append_nil]⟩
  · obtain ⟨program, lexes, -⟩ := parse_ok_iff.1 h
    have closes : closeLastLine (s ++ r) = s ++ closeLastLine r :=
      closeLastLine_parts fun empty closed => atEnd ⟨empty, closed⟩
    have closes' : closeLastLine (s ++ (filler ++ r)) = s ++ (filler ++ closeLastLine r) := by
      rw [← List.append_assoc, ← List.append_assoc]
      refine closeLastLine_parts fun empty closed => ?_
      rw [List.getLast?_append] at closed
      cases last : filler.getLast? with
      | none =>
        rw [last] at closed
        exact atEnd ⟨empty, closed⟩
      | some c =>
        rw [last] at closed
        exact gap.oneLine c (List.mem_of_getLast? last) (Option.some.inj closed)
    have outside := between _ lexes
    have parted := lexes
    rw [closes] at parted
    obtain ⟨before, after, hyield, boundary⟩ := exists_boundary parted outside
    obtain ⟨after', lexes', same⟩ := fills before after boundary
    rw [← closes'] at lexes'
    refine parse_of_matches h lexes rfl lexes' ?_
    rw [hyield]
    exact List.rel_append (forall₂_matches_refl _ before) same

/-! ## Empty lines -/

/-- An empty line is not empty as a text, and it ends a line. -/
theorem IsEmptyLine.endsLine {row : Text} (h : IsEmptyLine row) : row.EndsLine ∧ row ≠ [] := by
  obtain ⟨g, e, rfl, -, ending⟩ := h
  refine ⟨Text.endsLine_of_getLast? ?_, by simp [ending.ne_nil]⟩
  rw [List.getLast?_append_of_ne_nil _ ending.ne_nil]
  cases ending with
  | lineFeed => rfl
  | returnAndFeed => rfl

/-- Empty lines say nothing. -/
theorem parse_emptyLines [CharacterNames] {rows : List Text}
    (empty : ∀ row ∈ rows, IsEmptyLine row) :
    Text.EndsLine rows.flatten ∧ parse rows.flatten = .ok [] := by
  induction rows with
  | nil =>
    refine ⟨fun c hc => ?_, parse_nil⟩
    cases hc
  | cons row rows ih =>
    rw [List.forall_mem_cons] at empty
    obtain ⟨endsRest, rest⟩ := ih empty.2
    obtain ⟨ends, nonempty⟩ := empty.1.endsLine
    obtain ⟨g, e, hrow, gap, ending⟩ := empty.1
    have first : parse row = .ok [] :=
      parse_of_gap ((closeLastLine_of_endsLine ends nonempty).trans hrow) gap ending
    rw [List.flatten_cons]
    exact ⟨ends.append endsRest, (parse_append_iff ends nonempty).2 ⟨[], [], first, rest, rfl⟩⟩

/-- Statements that were moved say the same once their spots are forgotten. -/
theorem map_forget_relocate (g : Spot → Spot) (statements : List Statement) :
    (statements.map (Statement.relocate g)).map (Statement.relocate Spot.forget) =
      statements.map (Statement.relocate Spot.forget) := by
  rw [List.map_map]
  exact List.map_congr_left fun statement _ => statement.relocate_relocate g Spot.forget

section

variable [CharacterNames]

/-- Below lines that say nothing a script says what it does. -/
theorem parse_below {t r : Text} (ends : t.EndsLine) (none : parse t = .ok [])
    {statements : List Statement} (h : parse r = .ok statements) :
    SaysSame (t ++ r) statements := by
  by_cases empty : t = []
  · subst empty
    exact ⟨statements, h, rfl⟩
  · refine ⟨_, (parse_append_iff ends empty).2 ⟨[], statements, none, h, rfl⟩, ?_⟩
    rw [List.nil_append, map_forget_relocate]

/-- Empty lines between two lines leave what a script says as it is. -/
theorem parse_of_emptyLines {s r : Text} {rows : List Text} {statements : List Statement}
    (h : parse (s ++ r) = .ok statements) (ends : s.EndsLine)
    (empty : ∀ row ∈ rows, IsEmptyLine row) :
    SaysSame (s ++ (rows.flatten ++ r)) statements := by
  obtain ⟨endsRows, none⟩ := parse_emptyLines empty
  by_cases first : s = []
  · subst first
    exact parse_below endsRows none h
  · obtain ⟨a, b, ha, hb, rfl⟩ := (parse_append_iff ends first).1 h
    obtain ⟨b', hb', same⟩ := parse_below endsRows none hb
    refine ⟨_, (parse_append_iff ends first).2 ⟨a, b', ha, hb', rfl⟩, ?_⟩
    rw [List.map_append, List.map_append, map_forget_relocate, map_forget_relocate, same]

/-! ## Parentheses and commas -/

/-- Parentheses may be put around any expression. -/
theorem parse_of_parentheses {s m r : Text} {program : Program} {x : Postfix}
    {before after : List Lexeme} {statements : List Statement}
    (h : parse (s ++ (m ++ r)) = .ok statements)
    (lexes : Lexes (closeLastLine (s ++ (m ++ r))) program.yield)
    (occurs : Program.Occurs x before program after) (spans : x.Spans s m) :
    SaysSame (s ++ (CodePoint.ofChar '(' :: (m ++ CodePoint.ofChar ')' :: r))) statements := by
  have parted : Lexes (closeLastLine ((s ++ m) ++ r)) ((before ++ x.yield) ++ after) := by
    rwa [List.append_assoc, List.append_assoc, ← occurs.yield_eq]
  obtain ⟨l, hl⟩ := List.exists_mem_of_ne_nil after occurs.after_ne_nil
  obtain ⟨init, last, hlast⟩ := (List.eq_nil_or_concat x.yield).resolve_left x.yield_ne_nil
  rw [List.concat_eq_append] at hlast
  have stops : last.stop = (s ++ m).length :=
    spans.last last (by rw [hlast]; exact List.getLast?_concat)
  have behind (k : Lexeme) (hk : k ∈ after) : (s ++ m).length ≤ k.place.offset := by
    rw [← stops]
    exact (List.pairwise_append.1 parted.pairwise).2.2 last (by simp [hlast]) k hk
  have closes := closeLastLine_of_lexeme parted (List.mem_append_right _ hl) (behind l hl)
  rw [closes] at parted
  obtain ⟨first, more, hfirst⟩ := List.exists_cons_of_ne_nil x.yield_ne_nil
  have starts : first.place.offset = s.length := spans.first first (by rw [hfirst]; rfl)
  obtain ⟨ls, lexes', same⟩ := Lexes.parentheses parted hfirst starts
    (x.not_newline first (by simp [hfirst])) hlast stops
  -- The derivation says the same with the parentheses in it.
  obtain ⟨program', occurs', lines⟩ := occurs.replace
    (x.means_group ⟨signBehind s .opening '(', rfl⟩ ⟨signBehind (s ++ m) .closing ')', rfl⟩)
  have closes' : closeLastLine (s ++ (CodePoint.ofChar '(' :: (m ++ CodePoint.ofChar ')' :: r))) =
      s ++ (CodePoint.ofChar '(' :: (m ++ CodePoint.ofChar ')' :: closeLastLine r)) := by
    have text (t : Text) : s ++ (CodePoint.ofChar '(' :: (m ++ CodePoint.ofChar ')' :: t)) =
        (s ++ CodePoint.ofChar '(' :: m ++ [CodePoint.ofChar ')']) ++ t := by simp
    rw [text, text]
    refine closeLastLine_parts fun _ closed => ?_
    rw [List.getLast?_concat] at closed
    exact absurd (Option.some.inj closed) (by decide)
  rw [← closes'] at lexes'
  refine parse_of_matches h lexes lines lexes' ?_
  rw [occurs'.yield_eq, Postfix.yield, List.cons_append, List.append_assoc]
  exact List.rel_append (forall₂_matches_refl _ before) (.cons ⟨rfl, fun _ => rfl⟩ same)

/-- A comma may be put behind the last argument of any call. -/
theorem parse_of_comma {s r : Text} {program : Program} {func : Name} {opening : Token .opening}
    {arguments : Arguments} {closing : Token .closing} {before after : List Lexeme}
    {statements : List Statement} (h : parse (s ++ r) = .ok statements)
    (lexes : Lexes (closeLastLine (s ++ r)) program.yield)
    (occurs : Program.Occurs (.callWith func opening arguments closing) before program after)
    (none : ¬ arguments.EndsWithComma) (behind : ∀ l ∈ arguments.yield, l.stop ≤ s.length)
    (ahead : s.length ≤ closing.1.place.offset) :
    SaysSame (s ++ CodePoint.ofChar ',' :: r) statements := by
  have parted : Lexes (closeLastLine (s ++ r))
      ((before ++ func.1 :: opening.1 :: arguments.yield) ++ closing.1 :: after) := by
    have yields := occurs.yield_eq
    simp only [Postfix.yield, List.cons_append, List.append_assoc, List.nil_append] at yields
    simpa only [List.append_assoc, List.cons_append, ← yields] using lexes
  have closes := closeLastLine_of_lexeme parted (List.mem_append_right _ List.mem_cons_self) ahead
  rw [closes] at parted
  have boundary : Boundary s (closeLastLine r) (before ++ func.1 :: opening.1 :: arguments.yield)
      (closing.1 :: after) := by
    refine boundary_of_append parted (fun l hl => behind l ?_) fun l hl => ?_
    · rw [List.append_cons, List.append_cons,
        List.getLast?_append_of_ne_nil _ arguments.yield_ne_nil] at hl
      exact List.mem_of_getLast? hl
    · obtain rfl := Option.some.inj hl
      exact ahead
  obtain ⟨after', lexes', same⟩ := boundary.insert_sign (c := ',') rfl rfl
    (Or.inr ⟨closing.1, after, rfl, ne_newline closing.2 (by decide)⟩)
  obtain ⟨program', occurs', lines⟩ := occurs.replace
    (Postfix.means_withComma func opening arguments closing ⟨signBehind s .comma ',', rfl⟩)
  -- The comma is not the end of a line, so the last line is closed as before.
  have closes' : closeLastLine (s ++ CodePoint.ofChar ',' :: r) =
      s ++ CodePoint.ofChar ',' :: closeLastLine r := by
    rw [List.append_cons s _ r, List.append_cons s _ (closeLastLine r)]
    refine closeLastLine_parts fun _ closed => ?_
    rw [List.getLast?_concat] at closed
    exact absurd (Option.some.inj closed) (by decide)
  rw [← closes'] at lexes'
  refine parse_of_matches h lexes lines lexes' ?_
  rw [occurs'.yield_eq, Postfix.yield, arguments.yield_withComma _ none]
  have split : before ++ (func.1 :: opening.1 :: (arguments.yield ++ [signBehind s .comma ','] ++
      [closing.1]) ++ after) = (before ++ func.1 :: opening.1 :: arguments.yield) ++
        signBehind s .comma ',' :: closing.1 :: after := by simp
  rw [split]
  exact List.rel_append (forall₂_matches_refl _ _) (.cons ⟨rfl, fun _ => rfl⟩ same)

end

/-! ## Where parentheses and commas go -/

section Places

variable {source : Text} {program : Program} {before after : List Lexeme}

/-- Every expression in a script reaches over a part of its text. -/
theorem exists_spans {x : Postfix} (lexes : Lexes (closeLastLine source) program.yield)
    (occurs : Program.Occurs x before program after) :
    ∃ s m r, source = s ++ (m ++ r) ∧ x.Spans s m := by
  have inside : x.yield ⊆ program.yield := by
    rw [occurs.yield_eq]
    exact List.Subset.trans (List.subset_append_left _ _) (List.subset_append_right _ _)
  have ordered : x.yield.Pairwise fun l m => l.stop ≤ m.place.offset := by
    have all := lexes.pairwise
    rw [occurs.yield_eq, List.pairwise_append, List.pairwise_append] at all
    exact all.2.1.1
  obtain ⟨first, more, hfirst⟩ := List.exists_cons_of_ne_nil x.yield_ne_nil
  obtain ⟨init, last, hlast⟩ := (List.eq_nil_or_concat x.yield).resolve_left x.yield_ne_nil
  rw [List.concat_eq_append] at hlast
  have memFirst : first ∈ x.yield := by simp [hfirst]
  have memLast : last ∈ x.yield := by simp [hlast]
  obtain ⟨s, v, hs, start⟩ :=
    lexes.standsIn_source (inside memFirst) (x.not_newline first memFirst)
  obtain ⟨u, r, hu, finish⟩ := lexes.standsIn_source (inside memLast) (x.not_newline last memLast)
  have stop : last.stop = (u ++ last.text).length := by
    rw [Lexeme.stop, finish, List.length_append]
  -- The first lexeme starts no later than the last one ends, also if both are the same.
  have le : s.length ≤ (u ++ last.text).length := by
    rw [← stop, show s.length = first.place.offset by rw [start]]
    rw [hfirst] at memLast ordered
    rcases List.mem_cons.1 memLast with rfl | later
    · exact Nat.le_add_right _ _
    · have behind := List.rel_of_pairwise_cons ordered later
      exact (Nat.le_add_right _ _).trans (behind.trans (Nat.le_add_right _ _))
  rw [← List.append_assoc] at hu
  obtain ⟨m, hm⟩ := List.prefix_of_prefix_length_le (hs ▸ List.prefix_append s _)
    (hu ▸ List.prefix_append (u ++ last.text) r) le
  refine ⟨s, m, r, by rw [← List.append_assoc, hm, hu], fun l hl => ?_, fun l hl => ?_⟩
  · rw [hfirst] at hl
    obtain rfl := Option.some.inj hl
    rw [start]
  · rw [hlast, List.getLast?_concat] at hl
    obtain rfl := Option.some.inj hl
    rw [hm, stop]

/-- Every call with arguments has a place for a comma. -/
theorem exists_commaPlace {func : Name} {opening : Token .opening} {arguments : Arguments}
    {closing : Token .closing} (lexes : Lexes (closeLastLine source) program.yield)
    (occurs : Program.Occurs (.callWith func opening arguments closing) before program after) :
    ∃ s r, source = s ++ r ∧ (∀ l ∈ arguments.yield, l.stop ≤ s.length) ∧
      s.length ≤ closing.1.place.offset := by
  have yields : program.yield =
      (before ++ func.1 :: opening.1 :: arguments.yield) ++ closing.1 :: after := by
    rw [occurs.yield_eq, Postfix.yield]
    simp
  have mem : closing.1 ∈ program.yield := by simp [yields]
  obtain ⟨s, v, hs, place⟩ := lexes.standsIn_source mem (ne_newline closing.2 (by decide))
  refine ⟨s, _, hs, fun l hl => ?_, by rw [place]⟩
  have all := lexes.pairwise
  rw [yields, List.pairwise_append] at all
  have ends := all.2.2 l (by simp [hl]) closing.1 List.mem_cons_self
  rwa [place] at ends

end Places

/-! ## What a script says -/

variable [CharacterNames]

/-- A script says the same after an edit. -/
theorem Edit.parse_ok {source edited : Text} (edit : Edit source edited)
    {statements : List Statement} (h : parse source = .ok statements) :
    SaysSame edited statements := by
  cases edit with
  | @spaces s u r between spaces =>
    exact parse_of_filled h between (.spaces spaces) fun _ _ boundary =>
      boundary.fill (.spaces spaces)
  | @comment s t r between oneLine ending =>
    have feed (rest : Text) : Shape.comment.EndsBefore (CodePoint.ofChar '\n' :: rest) :=
      Shape.endsBefore_cons.2 rfl
    refine parse_of_filled h between (.comment (u := []) nofun oneLine (feed [])) ?_
    intro before after boundary
    rcases ending with ⟨rest, hrest⟩ | ⟨rest, hrest⟩
    · refine boundary.fill (.comment (u := []) nofun oneLine ?_)
      rw [← hrest]
      exact feed rest
    · rw [← hrest] at boundary ⊢
      exact boundary.comment_before_return oneLine
  | emptyLines ends empty => exact parse_of_emptyLines h ends empty
  | parentheses lexes occurs spans => exact parse_of_parentheses h lexes occurs spans
  | comma lexes occurs none behind ahead =>
    exact parse_of_comma h lexes occurs none behind ahead

/-- A script says the same after any edits. -/
theorem parse_of_edits {source edited : Text} (edits : Relation.ReflTransGen Edit source edited)
    {statements : List Statement} (h : parse source = .ok statements) :
    SaysSame edited statements := by
  induction edits with
  | refl => exact ⟨statements, h, rfl⟩
  | tail _ edit ih =>
    obtain ⟨statements', h', same⟩ := ih
    obtain ⟨statements'', h'', same'⟩ := edit.parse_ok h'
    exact ⟨statements'', h'', same'.trans same⟩

/-- **Layout does not change meaning.** An edit of the layout of a script that is accepted gives a
script that is accepted and says the same but for spots; every expression in the script may be put
in parentheses, and every call with arguments may get a comma behind the last of them. Carriage
returns before all line feeds of a text without carriage returns change nothing at all of what is
accepted; what is refused for a broken rule is refused for the same at the same spot, and a syntax
error stays one in the same line. -/
theorem layout_keeps_meaning (source : Text) :
    (∀ edited statements, Edit source edited → parse source = .ok statements →
      ∃ statements', parse edited = .ok statements' ∧
        statements'.map (Statement.relocate Spot.forget) =
          statements.map (Statement.relocate Spot.forget)) ∧
    (∀ program : Program, Lexes (closeLastLine source) program.yield →
      (∀ x before after, Program.Occurs x before program after →
        ∃ s m r, source = s ++ (m ++ r) ∧ x.Spans s m ∧
          Edit source (s ++ (CodePoint.ofChar '(' :: (m ++ CodePoint.ofChar ')' :: r)))) ∧
      (∀ func opening arguments closing before after,
        Program.Occurs (.callWith func opening arguments closing) before program after →
        ¬ arguments.EndsWithComma →
        ∃ s r, source = s ++ r ∧ (∀ l ∈ arguments.yield, l.stop ≤ s.length) ∧
          s.length ≤ closing.1.place.offset ∧ Edit source (s ++ CodePoint.ofChar ',' :: r))) ∧
    (CodePoint.ofChar '\r' ∉ source →
      (∀ statements, parse source = .ok statements →
        parse (withReturns source) = .ok statements) ∧
      (∀ v, parse source = .error (.violation v) →
        parse (withReturns source) = .error (.violation v)) ∧
      (∀ excerpt spot, parse source = .error (.unexpected excerpt spot) →
        ∃ excerpt' spot', parse (withReturns source) = .error (.unexpected excerpt' spot') ∧
          spot'.line = spot.line)) := by
  refine ⟨?_, ?_, ?_⟩
  · intro edited statements edit h
    exact edit.parse_ok h
  · intro program lexes
    constructor
    · intro x before after occurs
      obtain ⟨s, m, r, rfl, spans⟩ := exists_spans lexes occurs
      exact ⟨s, m, r, rfl, spans, .parentheses lexes occurs spans⟩
    · intro func opening arguments closing before after occurs none
      obtain ⟨s, r, rfl, behind, ahead⟩ := exists_commaPlace lexes occurs
      exact ⟨s, r, rfl, behind, ahead, .comma lexes occurs none behind ahead⟩
  · intro noReturn
    exact parse_withReturns noReturn

end Packaging.Script
