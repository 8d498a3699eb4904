import Packaging.Proofs.Script.Acceptance
import Packaging.Proofs.Script.Relocation
import Packaging.Proofs.Script.ViablePrefixes
import Packaging.Proofs.Text.Places

/-! # Scripts one after the other
A line feed only ever ends a lexeme, the one that ends a line. So nothing is cut across the end of a
line: a text behind one that ends with a line feed is cut as it is by itself, further down, and the
machine starts on it as on a new script. What two scripts are read as together is what they are read
as one by one. -/

namespace Packaging.Script

/-! ## Line feeds in lexemes -/

/-- No string holds a line feed. -/
theorem QuotedBody.lineFeed_notMem {quote : CodePoint} {t : Text} (h : QuotedBody quote t) :
    CodePoint.ofChar '\n' ∉ t := by
  induction h with
  | nil => exact List.not_mem_nil
  | plain notQuote notBackslash notFeed rest ih =>
    rw [List.mem_cons, not_or]
    exact ⟨notFeed.symm, ih⟩
  | escape notFeed rest ih =>
    rw [List.mem_cons, List.mem_cons, not_or, not_or]
    exact ⟨by decide, notFeed.symm, ih⟩

/-- A text of a sort that line feeds are not of holds none. -/
theorem lineFeed_notMem_of_forall {p : CodePoint → Bool} (feed : p '\n' = false) {t : Text}
    (all : ∀ c ∈ t, p c = true) : CodePoint.ofChar '\n' ∉ t := by
  intro h
  have yes := all _ h
  rw [feed] at yes
  cases yes

/-- Only the end of a line is spelled with a line feed. -/
theorem Shape.Spells.lineFeed_notMem {shape : Shape} {t : Text} (h : shape.Spells t)
    (other : shape ≠ .lexeme .newline) : CodePoint.ofChar '\n' ∉ t := by
  cases h with
  | @string quote body isQuote between =>
    have notQuote : CodePoint.ofChar '\n' ≠ quote := by
      rcases isQuote with rfl | rfl <;> decide
    simp [notQuote, between.lineFeed_notMem]
  | numeral _ areDigits => exact lineFeed_notMem_of_forall rfl areDigits
  | negative _ areDigits =>
    rw [List.mem_cons, not_or]
    exact ⟨by decide, lineFeed_notMem_of_forall rfl areDigits⟩
  | word start parts =>
    rw [List.mem_cons, not_or]
    exact ⟨(ne_of_isTrue start rfl).symm, lineFeed_notMem_of_forall rfl parts⟩
  | blank _ spaces => exact lineFeed_notMem_of_forall rfl spaces
  | comment oneLine =>
    rw [List.mem_cons, not_or]
    exact ⟨by decide, fun feed => oneLine _ feed rfl⟩
  | lineFeed => exact absurd rfl other
  | returnAndFeed => exact absurd rfl other
  | _ => decide

/-- A line feed is the last code point of what it stands in, and ends a line. -/
theorem Shape.Spells.eq_nil_of_lineFeed {shape : Shape} {s t : Text}
    (h : shape.Spells (s ++ CodePoint.ofChar '\n' :: t)) : t = [] ∧ shape = .lexeme .newline := by
  have newline : shape = .lexeme .newline := by
    by_contra other
    exact h.lineFeed_notMem other (by simp)
  refine ⟨?_, newline⟩
  subst newline
  generalize hw : s ++ CodePoint.ofChar '\n' :: t = w at h
  -- The line feed is the only code point, or the second of two.
  cases h with
  | lineFeed =>
    cases s with
    | nil => exact (List.cons.inj hw).2
    | cons c s => simp at hw
  | returnAndFeed =>
    cases s with
    | nil => exact absurd (List.cons.inj hw).1 (by decide)
    | cons c s =>
      cases s with
      | nil => exact (List.cons.inj (List.cons.inj hw).2).2
      | cons d s => simp at hw

/-! ## Cutting at the end of a line -/

/-- Nothing that is spelled reaches across the end of a line. -/
theorem Shape.Spells.isPrefix_of_endsLine {shape : Shape} {w s t : Text} (h : shape.Spells w)
    (ends : s.EndsLine) (nonempty : s ≠ []) (beginning : w <+: s ++ t) : w <+: s := by
  rcases List.prefix_or_prefix_of_prefix beginning (List.prefix_append s t) with inside | across
  · exact inside
  · obtain ⟨more, rfl⟩ := across
    obtain ⟨u, rfl⟩ := ends.exists_concat nonempty
    have split : u ++ [CodePoint.ofChar '\n'] ++ more = u ++ CodePoint.ofChar '\n' :: more := by
      simp
    rw [split] at h
    have none : more = [] := h.eq_nil_of_lineFeed.1
    exact ⟨[], by rw [none, List.append_nil, List.append_nil]⟩

/-- The longest piece of a text stands in its first part, if that ends a line. -/
theorem Shape.Longest.of_append {shape : Shape} {w s t : Text} (h : shape.Longest w (s ++ t))
    (ends : s.EndsLine) (nonempty : s ≠ []) : shape.Longest w s where
  isBeginning := h.spelled.isPrefix_of_endsLine ends nonempty h.isBeginning
  spelled := h.spelled
  length_le v hv spelled := h.length_le v (hv.trans (List.prefix_append s t)) spelled

/-- The longest piece of a text that ends a line is the longest whatever comes below. -/
theorem Shape.Longest.append {shape : Shape} {w s : Text} (h : shape.Longest w s)
    (ends : s.EndsLine) (t : Text) : shape.Longest w (s ++ t) := by
  have nonempty : s ≠ [] := by
    rintro rfl
    exact h.spelled.ne_nil (List.prefix_nil.1 h.isBeginning)
  refine ⟨h.isBeginning.trans (List.prefix_append s t), h.spelled, ?_⟩
  intro v hv spelled
  exact h.length_le v (spelled.isPrefix_of_endsLine ends nonempty hv) spelled

/-- What is cut before and behind the end of a line is cut from the whole. -/
theorem Cuts.append {place : Place} {s t : Text} {a b : List Piece} (ha : Cuts place s a)
    (ends : s.EndsLine) (hb : Cuts (place.after s) t b) : Cuts place (s ++ t) (a ++ b) := by
  induction ha with
  | nil => exact hb
  | @cons place shape w r pieces longest rest ih =>
    rw [Place.after_append] at hb
    rw [List.append_assoc, List.cons_append]
    refine .cons ?_ (ih ends.of_append hb)
    rw [← List.append_assoc]
    exact longest.append ends t

/-- What is cut from a whole is cut before and behind the end of a line. -/
theorem Cuts.exists_append {place : Place} {s t : Text} {pieces : List Piece}
    (h : Cuts place (s ++ t) pieces) (ends : s.EndsLine) :
    ∃ a b, Cuts place s a ∧ Cuts (place.after s) t b ∧ pieces = a ++ b := by
  generalize hu : s ++ t = u at h
  -- By induction on the cut; the first piece is cut from what stands before the end of the line.
  induction h generalizing s with
  | nil =>
    obtain ⟨rfl, rfl⟩ := List.append_eq_nil_iff.1 hu
    exact ⟨[], [], .nil, .nil, rfl⟩
  | @cons place shape w r pieces longest rest ih =>
    by_cases empty : s = []
    · subst empty
      rw [List.nil_append] at hu
      subst hu
      exact ⟨[], _, .nil, .cons longest rest, rfl⟩
    · rw [← hu] at longest
      have before := longest.of_append ends empty
      obtain ⟨s', rfl⟩ := before.isBeginning
      rw [List.append_assoc] at hu
      have hr : s' ++ t = r := List.append_cancel_left hu
      obtain ⟨a, b, ha, hb, rfl⟩ := ih ends.of_append hr
      refine ⟨_ :: a, b, .cons before ha, ?_, rfl⟩
      rwa [Place.after_append]

/-! ## Cutting further down -/

/-- A piece at another place. -/
def Piece.relocate (f : Place → Place) (p : Piece) : Piece := { p with place := f p.place }

/-- A piece elsewhere is the same lexeme elsewhere. -/
theorem lexeme?_relocate (f : Place → Place) (p : Piece) :
    (p.relocate f).lexeme? = p.lexeme?.map (Lexeme.relocate f) := by
  obtain ⟨shape, text, place⟩ := p
  cases shape with
  | _ => rfl

/-- Pieces elsewhere are the same lexemes elsewhere. -/
theorem filterMap_lexeme?_relocate (f : Place → Place) (pieces : List Piece) :
    (pieces.map (Piece.relocate f)).filterMap Piece.lexeme? =
      (pieces.filterMap Piece.lexeme?).map (Lexeme.relocate f) := by
  rw [List.filterMap_map, List.map_filterMap]
  congr 1
  funext p
  exact lexeme?_relocate f p

/-- A move that keeps each step keeps the way through a text. -/
theorem after_move {f : Place → Place} {t : Text}
    (moves : ∀ c ∈ t, ∀ p, (f p).next c = f (p.next c)) (p : Place) :
    (f p).after t = f (p.after t) := by
  induction t generalizing p with
  | nil => rfl
  | cons c t ih =>
    show ((f p).next c).after t = f ((p.next c).after t)
    rw [moves c List.mem_cons_self, ih fun d hd => moves d (List.mem_cons_of_mem c hd)]

/-- What is cut at a place is cut at another, if places move alike over all of the text. -/
theorem Cuts.relocate {f : Place → Place} {place : Place} {t : Text} {pieces : List Piece}
    (h : Cuts place t pieces) (moves : ∀ c ∈ t, ∀ p, (f p).next c = f (p.next c)) :
    Cuts (f place) t (pieces.map (Piece.relocate f)) := by
  induction h with
  | nil => exact .nil
  | @cons place shape w r pieces longest rest ih =>
    have next := ih fun c hc => moves c (List.mem_append_right w hc)
    rw [← after_move fun c hc => moves c (List.mem_append_left r hc)] at next
    exact .cons longest next

/-- A text that can be cut at one place can be cut at any. -/
theorem Cuts.exists_at {place : Place} {t : Text} {pieces : List Piece} (h : Cuts place t pieces)
    (other : Place) : ∃ pieces, Cuts other t pieces := by
  induction h generalizing other with
  | nil => exact ⟨[], .nil⟩
  | @cons place shape w r pieces longest rest ih =>
    obtain ⟨pieces, cuts⟩ := ih (other.after w)
    exact ⟨_, .cons longest cuts⟩

/-- A text is cut into pieces in one way at most. -/
theorem Cuts.unique {place : Place} {t : Text} {a b : List Piece} (ha : Cuts place t a)
    (hb : Cuts place t b) : a = b :=
  (cuts_iff.1 ha).2.symm.trans (cuts_iff.1 hb).2

/-- What a text is cut into at a place that is moved is moved alike. -/
theorem cuts_relocate_iff {f : Place → Place} {place : Place} {t : Text} {pieces : List Piece}
    (moves : ∀ c ∈ t, ∀ p, (f p).next c = f (p.next c)) :
    Cuts (f place) t pieces ↔
      ∃ a, Cuts place t a ∧ pieces = a.map (Piece.relocate f) := by
  constructor
  · intro h
    obtain ⟨a, ha⟩ := h.exists_at place
    exact ⟨a, ha, h.unique (ha.relocate moves)⟩
  · rintro ⟨a, ha, rfl⟩
    exact ha.relocate moves

/-- **Two texts at the end of a line.** The lexemes of a text that ends its last line and of another
text are those of the whole, those of the other text further down. -/
theorem lexes_append_iff {s t : Text} (ends : s.EndsLine) {ls : List Lexeme} :
    Lexes (s ++ t) ls ↔
      ∃ a b, Lexes s a ∧ Lexes t b ∧ ls = a ++ b.map (Lexeme.relocate (Place.below s)) := by
  have moves (c : CodePoint) (_ : c ∈ t) (p : Place) := Place.next_below s p c
  constructor
  · rintro ⟨pieces, cuts, rfl⟩
    obtain ⟨a, b, ha, hb, rfl⟩ := cuts.exists_append ends
    rw [Place.after_origin_of_endsLine ends, cuts_relocate_iff moves] at hb
    obtain ⟨b, hb, rfl⟩ := hb
    refine ⟨_, _, ⟨a, ha, rfl⟩, ⟨b, hb, rfl⟩, ?_⟩
    rw [List.filterMap_append, filterMap_lexeme?_relocate]
  · rintro ⟨_, _, ⟨a, ha, rfl⟩, ⟨b, hb, rfl⟩, rfl⟩
    refine ⟨a ++ b.map (Piece.relocate (Place.below s)), ?_, ?_⟩
    · refine ha.append ends ?_
      rw [Place.after_origin_of_endsLine ends]
      exact hb.relocate moves
    · rw [List.filterMap_append, filterMap_lexeme?_relocate]

/-! ## The end of a line ends a statement -/

/-- A text that ends with a line feed ends with the lexeme for it. -/
theorem Cuts.exists_newline {place : Place} {t : Text} {pieces : List Piece}
    (h : Cuts place t pieces) (ends : t.EndsLine) (nonempty : t ≠ []) :
    ∃ init w p, pieces = init ++ [⟨.lexeme .newline, w, p⟩] := by
  induction h with
  | nil => exact absurd rfl nonempty
  | @cons place shape w r pieces longest rest ih =>
    by_cases empty : r = []
    · subst empty
      obtain rfl : pieces = [] := rest.unique .nil
      rw [List.append_nil] at ends
      obtain ⟨u, rfl⟩ := ends.exists_concat longest.spelled.ne_nil
      obtain rfl := longest.spelled.eq_nil_of_lineFeed.2
      exact ⟨[], _, place, rfl⟩
    · obtain ⟨init, w', p, rfl⟩ := ih ends.of_append empty
      exact ⟨_ :: init, w', p, rfl⟩

/-- A text that ends a line has the end of a line for its last lexeme. -/
theorem Lexes.exists_newline {t : Text} {ls : List Lexeme} (h : Lexes t ls) (ends : t.EndsLine)
    (nonempty : t ≠ []) : ∃ init l, ls = init ++ [l] ∧ l.terminal = .newline := by
  obtain ⟨pieces, cuts, rfl⟩ := h
  obtain ⟨init, w, p, rfl⟩ := cuts.exists_newline ends nonempty
  exact ⟨_, ⟨.newline, w, p⟩, by rw [List.filterMap_append]; rfl, rfl⟩

namespace Machine

/-- After the end of a line a machine stands at the start of the next. -/
theorem mode_of_step_newline {m m' : Machine} {l : Lexeme} (newline : l.terminal = .newline)
    (h : m.step l = some m') : m'.mode = .lineStart := by
  have operand : m.readOperand l = none := by rw [readOperand, newline]
  have after (value : Phrase) (start : Place) (h : m.readAfter value start l = some m') :
      m'.mode = .lineStart := by
    obtain ⟨lines, purpose, frames, mode⟩ := m
    rw [readAfter, newline] at h
    cases frames with
    | nil =>
      obtain ⟨line, -, rfl⟩ := Option.map_eq_some_iff.1 h
      rfl
    | cons frame frames => cases h
  obtain ⟨lines, purpose, frames, mode⟩ := m
  obtain ⟨terminal, text, place⟩ := l
  obtain rfl : terminal = .newline := newline
  -- Only what has read a complete expression, or nothing of a line, goes on.
  cases mode with
  | lineStart =>
    obtain rfl := Option.some.inj h
    rfl
  | operand => cases operand.symm.trans h
  | argument => cases operand.symm.trans h
  | word w => exact after (.name w) w.place h
  | done value start => exact after value start h
  | dot base start => cases h
  | member base attr start => exact after (.member base attr start) start h

/-- A machine at the start of a line of a script is as at the start of the script, but for the lines
that it has read. -/
theorem eq_ready_of_reads {m : Machine} {ls : List Lexeme} (reads : m.Reads .program ls)
    (h : m.mode = .lineStart) : m = ready m.lines := by
  obtain ⟨around, last, fits⟩ := reads
  obtain ⟨rfl, rfl⟩ := fits h
  obtain rfl := h
  rfl

/-- A script that ends with the end of a line leaves the machine at the start of the next. -/
theorem eq_ready_of_run_script {m : Machine} {init : List Lexeme} {l : Lexeme}
    (newline : l.terminal = .newline) (h : Machine.script.run (init ++ [l]) = .ok m) :
    m = ready m.lines := by
  have reads : m.Reads .program (init ++ [l]) := Start.program.reads_of_run h
  obtain ⟨before, -, hstep⟩ := run_concat_iff.1 h
  exact eq_ready_of_reads reads (mode_of_step_newline newline hstep)

/-- A machine with some lines behind it is one at the start, moved below these lines. -/
theorem ready_eq_relocate (f : Place → Place) (lines : List Line) :
    ready lines = Machine.script.relocate f lines := rfl

end Machine

/-! ## Two scripts -/

/-- Lines are read behind others as they are by themselves, at other places. -/
theorem run_ready_relocate (f : Place → Place) (before : List Line) (ls : List Lexeme) :
    (Machine.ready before).run (ls.map (Lexeme.relocate f)) =
      ((Machine.script.run ls).map (Machine.relocate f before)).mapError
        (List.map (Lexeme.relocate f)) := by
  rw [Machine.ready_eq_relocate f before, Machine.run_relocate]

/-- A machine that has read a text that ends its last line stands at the start of a line. -/
theorem eq_ready_of_endsLine {s : Text} {ls : List Lexeme} {m : Machine} (lexes : Lexes s ls)
    (ends : s.EndsLine) (h : Machine.script.run ls = .ok m) : m = .ready m.lines := by
  by_cases nonempty : s = []
  · subst nonempty
    obtain rfl : ls = [] := lexes.unique ⟨[], .nil, rfl⟩
    obtain rfl := Except.ok.inj h
    rfl
  · obtain ⟨init, l, rfl, newline⟩ := lexes.exists_newline ends nonempty
    exact Machine.eq_ready_of_run_script newline h

/-- A machine that stands at the start of a line reads another script as if it were the first. -/
theorem run_append_relocate_iff (f : Place → Place) {lines : List Line} {m : Machine}
    {a b : List Lexeme} (h : Machine.script.run a = .ok (.ready lines)) :
    Machine.script.run (a ++ b.map (Lexeme.relocate f)) = .ok m ↔
      ∃ n, Machine.script.run b = .ok n ∧ m = n.relocate f lines := by
  rw [Machine.run_append, h]
  dsimp only
  rw [run_ready_relocate, Except.mapError_eq_ok_iff, Except.map_eq_ok_iff]

/-- An expression is read elsewhere as it is at the start, at other places. -/
theorem expression_run_relocate_iff (f : Place → Place) {ls : List Lexeme} {phrase : Phrase} :
    (∃ m, Machine.expression.run (ls.map (Lexeme.relocate f)) = .ok m ∧
        m.phrase? = some phrase) ↔
      ∃ inner, (∃ m, Machine.expression.run ls = .ok m ∧ m.phrase? = some inner) ∧
        phrase = inner.relocate f := by
  have moved := Machine.run_relocate f [] Machine.expression ls
  rw [show Machine.expression.relocate f [] = Machine.expression from rfl] at moved
  simp only [moved, Except.mapError_eq_ok_iff, Except.map_eq_ok_iff]
  constructor
  · rintro ⟨_, ⟨m, hrun, rfl⟩, hphrase⟩
    rw [Machine.phrase?_relocate, Option.map_eq_some_iff] at hphrase
    obtain ⟨inner, hinner, rfl⟩ := hphrase
    exact ⟨inner, ⟨m, hrun, hinner⟩, rfl⟩
  · rintro ⟨inner, ⟨m, hrun, hinner⟩, rfl⟩
    exact ⟨_, ⟨m, hrun, rfl⟩, by rw [Machine.phrase?_relocate, hinner, Option.map_some]⟩

/-- The lines of two texts are the lines of the first and, further down, those of the second. -/
theorem readWith_script_append_iff {s t : Text} (ends : s.EndsLine) {lines : List Line} :
    readWith .script Machine.lines? (s ++ t) = .ok lines ↔
      ∃ a b, readWith .script Machine.lines? s = .ok a ∧
        readWith .script Machine.lines? t = .ok b ∧
        lines = a ++ b.map (Line.relocate (Place.below s)) := by
  simp only [readWith_ok_iff]
  constructor
  · rintro ⟨ls, lexes, m, hrun, hlines⟩
    obtain ⟨a, b, ha, hb, rfl⟩ := (lexes_append_iff ends).1 lexes
    -- The machine gets through the first text, for it gets through both.
    obtain ⟨m', hm', -⟩ := Machine.exists_run_of_append hrun
    have start := eq_ready_of_endsLine ha ends hm'
    generalize m'.lines = before at start
    subst start
    obtain ⟨n, hn, rfl⟩ := (run_append_relocate_iff _ hm').1 hrun
    rw [Machine.lines?_relocate, Option.map_eq_some_iff] at hlines
    obtain ⟨after, hafter, rfl⟩ := hlines
    exact ⟨before.reverse, after, ⟨a, ha, _, hm', rfl⟩, ⟨b, hb, n, hn, hafter⟩, rfl⟩
  · rintro ⟨_, after, ⟨a, ha, m', hm', hfirst⟩, ⟨b, hb, n, hn, hafter⟩, rfl⟩
    have start := eq_ready_of_endsLine ha ends hm'
    generalize m'.lines = before at start
    subst start
    obtain rfl := Option.some.inj hfirst
    refine ⟨_, (lexes_append_iff ends).2 ⟨a, b, ha, hb, rfl⟩, _,
      (run_append_relocate_iff _ hm').2 ⟨n, hn, rfl⟩, ?_⟩
    rw [Machine.lines?_relocate, hafter, Option.map_some]

/-! ## What they say -/

/-- A text that ends a line needs no closing. -/
theorem closeLastLine_of_endsLine {s : Text} (ends : s.EndsLine) (nonempty : s ≠ []) :
    closeLastLine s = s := by
  obtain ⟨u, rfl⟩ := ends.exists_concat nonempty
  exact if_pos List.getLast?_concat

/-- A text that does not end with a line feed gets one. -/
theorem closeLastLine_of_open {s : Text} (h : ¬ s.getLast? = some (CodePoint.ofChar '\n')) :
    closeLastLine s = s ++ [CodePoint.ofChar '\n'] := by
  rw [closeLastLine, if_neg h]
  simp [Text.concat]
  rfl

/-- The last line of two texts is that of the second. -/
theorem closeLastLine_append (s : Text) {t : Text} (nonempty : t ≠ []) :
    closeLastLine (s ++ t) = s ++ closeLastLine t := by
  rw [closeLastLine, closeLastLine, List.getLast?_append_of_ne_nil s nonempty]
  by_cases closed : t.getLast? = some (CodePoint.ofChar '\n')
  · rw [if_pos closed, if_pos closed]
  · rw [if_neg closed, if_neg closed]
    simp [Text.concat]

variable [CharacterNames]

/-- Nothing is a script without statements. -/
theorem parse_nil : parse [] = .ok [] := by
  have cuts : Cuts .origin (closeLastLine [])
      [⟨.lexeme .newline, [CodePoint.ofChar '\n'], .origin⟩] := .cons (longest_newline []) .nil
  have lexes : Lexes (closeLastLine []) [⟨.newline, [CodePoint.ofChar '\n'], .origin⟩] :=
    ⟨_, cuts, rfl⟩
  rw [parse_ok_iff_lines]
  exact ⟨[], readWith_ok_iff.2 ⟨_, lexes, .script, rfl, rfl⟩, rfl⟩

/-- Lines one after the other say what the first ones say and then what the others do. -/
theorem mapM_toStatement_append_iff {a b : List Line} {statements : List Statement} :
    (a ++ b).mapM Line.toStatement = .ok statements ↔
      ∃ first second, a.mapM Line.toStatement = .ok first ∧
        b.mapM Line.toStatement = .ok second ∧ statements = first ++ second := by
  rw [List.mapM_append]
  simp only [Except.bind_eq_ok_iff]
  constructor
  · rintro ⟨first, hfirst, second, hsecond, h⟩
    exact ⟨first, second, hfirst, hsecond, (Except.ok.inj h).symm⟩
  · rintro ⟨first, second, hfirst, hsecond, rfl⟩
    exact ⟨first, hfirst, second, hsecond, rfl⟩

/-- Lines further down say the same further down. -/
theorem mapM_toStatement_below_iff (s : Text) {lines : List Line} {statements : List Statement} :
    (lines.map (Line.relocate (Place.below s))).mapM Line.toStatement = .ok statements ↔
      ∃ above, lines.mapM Line.toStatement = .ok above ∧
        statements = above.map (Statement.relocate (Spot.lower s.lineFeeds)) := by
  have spots (p : Place) : (p.below s).spot = p.spot.lower s.lineFeeds := rfl
  rw [mapM_toStatement_relocate spots, Except.mapError_eq_ok_iff, Except.map_eq_ok_iff]

/-- **Statements one after the other.** Two texts, the first of which ends with a line feed, are a
script together exactly if each is one, and its statements are those of the first and, as many lines
further down as the first has, those of the second. -/
theorem parse_append_iff {s t : Text} (ends : s.EndsLine) (nonempty : s ≠ [])
    {statements : List Statement} :
    parse (s ++ t) = .ok statements ↔
      ∃ a b, parse s = .ok a ∧ parse t = .ok b ∧
        statements = a ++ b.map (Statement.relocate (Spot.lower s.lineFeeds)) := by
  by_cases empty : t = []
  · subst empty
    rw [List.append_nil, parse_nil]
    constructor
    · intro h
      exact ⟨statements, [], h, rfl, (List.append_nil _).symm⟩
    · rintro ⟨a, b, ha, hb, rfl⟩
      obtain rfl := Except.ok.inj hb
      rw [List.map_nil, List.append_nil, ha]
  · simp only [parse_ok_iff_lines, closeLastLine_append s empty,
      closeLastLine_of_endsLine ends nonempty, readWith_script_append_iff ends]
    constructor
    · rintro ⟨_, ⟨first, second, hfirst, hsecond, rfl⟩, said⟩
      obtain ⟨a, lower, ha, hlower, rfl⟩ := mapM_toStatement_append_iff.1 said
      obtain ⟨b, hb, rfl⟩ := (mapM_toStatement_below_iff s).1 hlower
      exact ⟨a, b, ⟨first, hfirst, ha⟩, ⟨second, hsecond, hb⟩, rfl⟩
    · rintro ⟨a, b, ⟨first, hfirst, ha⟩, ⟨second, hsecond, hb⟩, rfl⟩
      refine ⟨_, ⟨first, second, hfirst, hsecond, rfl⟩, ?_⟩
      exact mapM_toStatement_append_iff.2
        ⟨a, _, ha, (mapM_toStatement_below_iff s).2 ⟨b, hb, rfl⟩, rfl⟩

end Packaging.Script
