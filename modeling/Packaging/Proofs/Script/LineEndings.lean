import Packaging.Proofs.Script.Junctures
import Packaging.Proofs.Script.Rewording

/-! # Carriage returns at the ends of lines
A carriage return before a line feed belongs to the end of the line, or to a comment before it. In
neither case it moves anything but the end of the line itself. So a text with carriage returns is
read as the one without, at the same spots, and is refused for the same reason in the same line. -/

namespace Packaging.Script

/-! ## Texts with carriage returns -/

/-- A text with a carriage return before each line feed. -/
def withReturns (t : Text) : Text :=
  t.flatMap fun c : CodePoint => if c = '\n' then [CodePoint.ofChar '\r', c] else [c]

/-- Whether a text without carriage returns has become another by carriage returns before some of
its line feeds. -/
inductive Returned : Text → Text → Prop
  /-- Nothing. -/
  | nil : Returned [] []
  /-- A code point that stays. -/
  | same {c : CodePoint} {t t' : Text} (other : c ≠ '\r') (rest : Returned t t') :
      Returned (c :: t) (c :: t')
  /-- A line feed that gets a carriage return. -/
  | returned {t t' : Text} (rest : Returned t t') :
      Returned (CodePoint.ofChar '\n' :: t) (CodePoint.ofChar '\r' :: CodePoint.ofChar '\n' :: t')

/-- A text without carriage returns stands beside its copy with a carriage return before each line
feed. -/
theorem returned_withReturns {t : Text} (noReturn : CodePoint.ofChar '\r' ∉ t) :
    Returned t (withReturns t) := by
  induction t with
  | nil => exact .nil
  | cons c t ih =>
    rw [List.mem_cons, not_or] at noReturn
    rw [withReturns, List.flatMap_cons]
    by_cases feed : c = '\n'
    · rw [if_pos feed, feed]
      exact .returned (ih noReturn.2)
    · rw [if_neg feed]
      exact .same (Ne.symm noReturn.1) (ih noReturn.2)

namespace Returned

variable {s s' t t' u v : Text}

/-- Texts that stand beside their copies do so one after the other. -/
theorem append (h : Returned s s') (h' : Returned t t') : Returned (s ++ t) (s' ++ t') := by
  induction h with
  | nil => exact h'
  | same other rest ih => exact .same other ih
  | returned rest ih => exact .returned ih

/-- What has no line feed stays. -/
theorem exists_append (h : Returned (u ++ v) t') (oneLine : CodePoint.ofChar '\n' ∉ u) :
    ∃ v', t' = u ++ v' ∧ Returned v v' := by
  induction u generalizing t' with
  | nil => exact ⟨t', rfl, h⟩
  | cons c u ih =>
    rw [List.mem_cons, not_or] at oneLine
    cases h with
    | same other rest =>
      obtain ⟨v', rfl, behind⟩ := ih rest oneLine.2
      exact ⟨v', rfl, behind⟩
    | returned rest => exact absurd rfl oneLine.1

/-- What has no carriage return was there. -/
theorem isPrefix (h : Returned t (u ++ v)) (noReturn : CodePoint.ofChar '\r' ∉ u) : u <+: t := by
  induction u generalizing t with
  | nil => exact List.nil_prefix
  | cons c u ih =>
    rw [List.mem_cons, not_or] at noReturn
    generalize hu : (c :: u) ++ v = t' at h
    cases h with
    | nil => cases hu
    | same other rest =>
      obtain ⟨rfl, rfl⟩ := List.cons.inj hu
      exact List.cons_prefix_cons.2 ⟨rfl, ih rest noReturn.2⟩
    | returned rest => exact absurd (List.cons.inj hu).1.symm noReturn.1

/-- Behind a carriage return there is a line feed. -/
theorem exists_lineFeed (h : Returned t (u ++ CodePoint.ofChar '\r' :: v)) :
    ∃ v', v = CodePoint.ofChar '\n' :: v' := by
  generalize ht : u ++ CodePoint.ofChar '\r' :: v = t' at h
  induction h generalizing u with
  | nil => simp at ht
  | same other rest ih =>
    cases u with
    | nil => exact absurd (List.cons.inj ht).1.symm other
    | cons c u => exact ih (List.cons.inj ht).2
  | returned rest ih =>
    cases u with
    | nil => exact ⟨_, (List.cons.inj ht).2⟩
    | cons c u =>
      cases u with
      | nil => exact absurd (List.cons.inj (List.cons.inj ht).2).1 (by decide)
      | cons d u => exact ih (List.cons.inj (List.cons.inj ht).2).2

/-- A piece ends where it did, for only comments go on with carriage returns. -/
theorem endsBefore (h : Returned t t') {shape : Shape} (other : shape ≠ .comment)
    (ends : shape.EndsBefore t) : shape.EndsBefore t' := by
  cases h with
  | nil => exact ends
  | same notReturn rest => exact Shape.endsBefore_cons.2 (Shape.endsBefore_cons.1 ends)
  | returned rest =>
    rw [Shape.endsBefore_cons]
    cases shape with
    | lexeme terminal =>
      cases terminal with
      | _ => rfl
    | blank => rfl
    | comment => exact absurd rfl other

end Returned

/-- Only a comment ends with a carriage return. -/
theorem Shape.Spells.eq_comment_of_return {shape : Shape} {u : Text}
    (h : shape.Spells (u ++ [CodePoint.ofChar '\r'])) : shape = .comment := by
  have last : (u ++ [CodePoint.ofChar '\r']).getLast? = some (CodePoint.ofChar '\r') :=
    List.getLast?_concat
  generalize u ++ [CodePoint.ofChar '\r'] = w at h last
  have inside := List.mem_of_getLast? last
  cases h with
  | @string quote body isQuote between =>
    rw [← List.cons_append, List.getLast?_concat] at last
    rcases isQuote with rfl | rfl
    · exact absurd (Option.some.inj last) (by decide)
    · exact absurd (Option.some.inj last) (by decide)
  | numeral _ areDigits => exact absurd (areDigits _ inside) (by decide)
  | negative _ areDigits =>
    rcases List.mem_cons.1 inside with minus | inside
    · exact absurd minus (by decide)
    · exact absurd (areDigits _ inside) (by decide)
  | word start parts =>
    rcases List.mem_cons.1 inside with rfl | inside
    · exact absurd start (by decide)
    · exact absurd (parts _ inside) (by decide)
  | blank _ spaces => exact absurd (spaces _ inside) (by decide)
  | comment _ => rfl
  | _ => exact absurd (Option.some.inj last) (by decide)

/-- With carriage returns nothing starts where nothing did. -/
theorem Returned.startsNothing {t t' : Text} (h : Returned t t') (nothing : StartsNothing t) :
    StartsNothing t' := by
  intro shape w beginning spelled
  obtain ⟨r, rfl⟩ := beginning
  by_cases returned : CodePoint.ofChar '\r' ∈ w
  · obtain ⟨u, v, rfl⟩ := List.append_of_mem returned
    rw [List.append_assoc, List.cons_append] at h
    obtain ⟨more, behind⟩ := h.exists_lineFeed
    cases v with
    | nil =>
      -- A comment that has taken a carriage return along starts without it.
      obtain rfl := spelled.eq_comment_of_return
      cases u with
      | nil => cases spelled
      | cons c u =>
        cases spelled with
        | comment oneLine =>
          have start := h.isPrefix (u := [CodePoint.ofChar '#']) (by decide)
          exact nothing .comment _ start (.comment nofun)
    | cons d v =>
      -- Nothing but the end of a line goes on behind a carriage return.
      obtain ⟨rfl, -⟩ := List.cons.inj behind
      rw [List.append_cons] at spelled
      obtain ⟨rfl, rfl⟩ := spelled.eq_nil_of_lineFeed
      generalize hw : u ++ [CodePoint.ofChar '\r'] ++ [CodePoint.ofChar '\n'] = w at spelled
      cases spelled with
      | lineFeed =>
        have lengths := congrArg List.length hw
        simp at lengths
      | returnAndFeed =>
        obtain rfl : u = [] := by simpa using hw
        cases h with
        | same other rest => exact absurd rfl other
        | @returned t _ rest => exact nothing _ _ ⟨t, rfl⟩ .lineFeed
  · exact nothing shape w (h.isPrefix returned) spelled

/-! ## The same lexemes -/

/-- Whether two lexemes stand in the same line and, unless they are ends of lines, are the same but
for their offsets. -/
structure Lexeme.Abreast (l l' : Lexeme) : Prop extends l.Matches Place.forgetOffset l' where
  /-- The lines are the same. -/
  line : l'.place.spot.line = l.place.spot.line

/-- Whether two places, at which two texts go on, are at the same spot, or in the same line and both
before its line feed. -/
def Place.Abreast (t t' : Text) (p p' : Place) : Prop :=
  p'.spot = p.spot ∨ p'.spot.line = p.spot.line ∧
    t.head? = some (CodePoint.ofChar '\n') ∧ t'.head? = some (CodePoint.ofChar '\n')

/-- Whether two scans have found the same lexemes but for their offsets, and left something at the
same line if they have left anything. -/
structure Scan.Abreast (a b : Scan) : Prop where
  /-- The lexemes are the same. -/
  lexemes : List.Forall₂ Lexeme.Abreast a.lexemes b.lexemes
  /-- Both or neither have left something. -/
  rest : b.rest = [] ↔ a.rest = []
  /-- They have stopped in the same line. -/
  line : b.stop.spot.line = a.stop.spot.line

/-- Where no piece starts, nothing is scanned. -/
theorem scanFrom_of_startsNothing {t : Text} (nothing : StartsNothing t) (p : Place) :
    scanFrom p t = ⟨[], t, p⟩ := by
  cases t with
  | nil => exact scanFrom_nil p
  | cons c r =>
    cases cut : cut? c r with
    | none => rw [scanFrom, cut]
    | some found =>
      obtain ⟨-, longest⟩ := longest_of_cut?_eq_some cut
      exact absurd longest.spelled (nothing _ _ longest.isBeginning)

/-- Scans that find the same first find the same if they find the same behind it. -/
theorem abreast_append {shape : Shape} {w w' r r' : Text} {p p' : Place}
    (longest : shape.Longest w (w ++ r)) (longest' : shape.Longest w' (w' ++ r'))
    (first : ∀ terminal, shape = .lexeme terminal →
      Lexeme.Abreast ⟨terminal, w, p⟩ ⟨terminal, w', p'⟩)
    (behind : (scanFrom (p.after w) r).Abreast (scanFrom (p'.after w') r')) :
    (scanFrom p (w ++ r)).Abreast (scanFrom p' (w' ++ r')) := by
  obtain ⟨lexemes, rest, line⟩ := behind
  rw [scanFrom_append longest, scanFrom_append longest']
  refine ⟨?_, rest, line⟩
  cases shape with
  | lexeme terminal => exact .cons (first terminal rfl) lexemes
  | blank => exact lexemes
  | comment => exact lexemes

namespace Place.Abreast

variable {t t' : Text} {p p' : Place}

/-- Places abreast are on lines with the same number. -/
theorem line (h : Place.Abreast t t' p p') : p'.spot.line = p.spot.line := by
  rcases h with same | ⟨line, -, -⟩
  · rw [same]
  · exact line

/-- Only before the end of a line spots may differ. -/
theorem spot {w r : Text} (h : Place.Abreast (w ++ r) t' p p') (nonempty : w ≠ [])
    (oneLine : CodePoint.ofChar '\n' ∉ w) : p'.spot = p.spot := by
  rcases h with same | ⟨-, head, -⟩
  · exact same
  · rw [List.head?_append_of_ne_nil _ nonempty] at head
    exact absurd (List.mem_of_head? head) oneLine

end Place.Abreast

/-- The end of a line is found with and without a carriage return. -/
theorem Returned.abreast_newline {w r t' : Text} (h : Returned (w ++ r) t') {p p' : Place}
    (line : p'.spot.line = p.spot.line) (longest : (Shape.lexeme .newline).Longest w (w ++ r))
    (behind : ∀ {r' : Text} {q : Place}, Returned r r' →
      Place.Abreast r r' (p.after w) q → (scanFrom (p.after w) r).Abreast (scanFrom q r')) :
    (scanFrom p (w ++ r)).Abreast (scanFrom p' t') := by
  have first {v v' : Text} (terminal : Terminal)
      (newline : Shape.lexeme .newline = .lexeme terminal) :
      Lexeme.Abreast ⟨terminal, v, p⟩ ⟨terminal, v', p'⟩ := by
    obtain rfl := Shape.lexeme.inj newline
    exact ⟨⟨rfl, fun goesOn => absurd rfl goesOn⟩, line⟩
  have below : (⟨p'.spot.line + 1, 1⟩ : Spot) = ⟨p.spot.line + 1, 1⟩ := by rw [line]
  generalize hshape : Shape.lexeme Terminal.newline = shape at longest first
  cases longest.spelled with
  | lineFeed =>
    cases h with
    | @same _ _ r' other rest =>
      exact abreast_append longest (longest_newline r') first (behind rest (Or.inl below))
    | @returned _ r' rest =>
      exact abreast_append longest (longest_returnAndFeed r') first
        (behind rest (Or.inl below))
  | returnAndFeed =>
    cases h with
    | same other rest => exact absurd rfl other
  | _ => cases hshape

/-- A comment is found with and without a carriage return at its end. -/
theorem Returned.abreast_comment {w r t' : Text} (h : Returned (w ++ r) t') {p p' : Place}
    (spot : p'.spot = p.spot) (longest : Shape.comment.Longest w (w ++ r))
    (behind : ∀ {r' : Text} {q : Place}, Returned r r' →
      Place.Abreast r r' (p.after w) q → (scanFrom (p.after w) r).Abreast (scanFrom q r')) :
    (scanFrom p (w ++ r)).Abreast (scanFrom p' t') := by
  obtain ⟨spelled, ends⟩ := Shape.longest_append_iff.1 longest
  obtain ⟨r', rfl, rest⟩ := h.exists_append (spelled.lineFeed_notMem nofun)
  have spots : (p'.after w).spot = (p.after w).spot := Place.spot_after_congr spot w
  cases rest with
  | nil => exact abreast_append longest longest nofun (behind .nil (Or.inl spots))
  | @same c r r' other rest =>
    have ends' : Shape.comment.EndsBefore (c :: r') :=
      Shape.endsBefore_cons.2 (Shape.endsBefore_cons.1 ends)
    exact abreast_append longest (Shape.longest_append_iff.2 ⟨spelled, ends'⟩) nofun
      (behind (.same other rest) (Or.inl spots))
  | @returned r r' rest =>
    -- The comment takes the carriage return along.
    have longer : Shape.comment.Longest (w ++ [CodePoint.ofChar '\r'])
        ((w ++ [CodePoint.ofChar '\r']) ++ CodePoint.ofChar '\n' :: r') :=
      Shape.longest_append_iff.2 ⟨spelled.concat rfl, Shape.endsBefore_cons.2 rfl⟩
    rw [List.append_cons w (CodePoint.ofChar '\r')]
    refine abreast_append longest longer nofun (behind (.same (by decide) rest) (Or.inr ?_))
    rw [Place.after_concat, Place.next_of_ne (by decide), spots]
    exact ⟨rfl, rfl, rfl⟩

/-- **Carriage returns do not change what is found.** -/
theorem Returned.abreast_scanFrom {t t' : Text} (h : Returned t t') {p p' : Place}
    (abreast : Place.Abreast t t' p p') : (scanFrom p t).Abreast (scanFrom p' t') := by
  induction p, t using scanFrom.induct generalizing t' p' with
  | case1 p =>
    cases h
    rw [scanFrom_nil, scanFrom_nil]
    exact ⟨.nil, Iff.rfl, abreast.line⟩
  | case2 p c r cut =>
    have nothing := startsNothing_of_cut? cut
    rw [scanFrom_of_startsNothing nothing, scanFrom_of_startsNothing (h.startsNothing nothing)]
    refine ⟨.nil, ?_, abreast.line⟩
    cases h with
    | same other rest => simp
    | returned rest => simp
  | case3 p c r shape n cut w =>
    rename_i ih
    have longest : shape.Longest w (c :: r) := (longest_of_cut?_eq_some cut).2
    have split : c :: r = w ++ r.drop n := by
      rw [List.cons_append, List.take_append_drop]
    rw [split] at h abreast longest ⊢
    clear_value w
    generalize r.drop n = v at *
    -- Line ends gain a carriage return, and so may what ends a comment; the rest is cut alike.
    by_cases newline : shape = .lexeme .newline
    · subst newline
      exact h.abreast_newline abreast.line longest fun rest places => ih rest places
    by_cases comment : shape = .comment
    · subst comment
      have spot := abreast.spot longest.spelled.ne_nil (longest.spelled.lineFeed_notMem newline)
      exact h.abreast_comment spot longest fun rest places => ih rest places
    · -- What ends no line and is no comment is the same.
      obtain ⟨spelled, ends⟩ := Shape.longest_append_iff.1 longest
      have noFeed := spelled.lineFeed_notMem newline
      have spot := abreast.spot spelled.ne_nil noFeed
      obtain ⟨v', rfl, rest⟩ := h.exists_append noFeed
      have longest' : shape.Longest w (w ++ v') :=
        Shape.longest_append_iff.2 ⟨spelled, rest.endsBefore comment ends⟩
      refine abreast_append longest longest' (fun terminal _ => ⟨⟨rfl, fun _ => ?_⟩, abreast.line⟩)
        (ih rest (Or.inl (Place.spot_after_congr spot w)))
      rw [Lexeme.relocate, Lexeme.relocate, Place.forgetOffset, Place.forgetOffset, spot]

/-! ## The same script -/

/-- A text and its copy end in the same code point. -/
theorem getLast?_withReturns (t : Text) : (withReturns t).getLast? = t.getLast? := by
  rcases List.eq_nil_or_concat t with rfl | ⟨t, c, rfl⟩
  · rfl
  · rw [List.concat_eq_append, withReturns, List.flatMap_append, List.flatMap_singleton,
      List.getLast?_concat]
    by_cases feed : c = '\n'
    · rw [if_pos feed]
      simp
    · rw [if_neg feed, List.getLast?_concat]

/-- The copy of a text has its last line closed like the text. -/
theorem returned_closeLastLine {source : Text} (noReturn : CodePoint.ofChar '\r' ∉ source) :
    Returned (closeLastLine source) (closeLastLine (withReturns source)) := by
  have returned := returned_withReturns noReturn
  by_cases closed : source.getLast? = some (CodePoint.ofChar '\n')
  · have closed' := (getLast?_withReturns source).trans closed
    rwa [closeLastLine, closeLastLine, if_pos closed, if_pos closed']
  · have closed' : ¬ (withReturns source).getLast? = some (CodePoint.ofChar '\n') := by
      rwa [getLast?_withReturns]
    rw [closeLastLine_of_open closed, closeLastLine_of_open closed']
    exact returned.append (.same (by decide) .nil)

/-- A script that is refused is refused in the same line if its lexemes are abreast. -/
theorem readWith_script_refused {t t' excerpt : Text} {spot : Spot}
    (abreast : (scan t).Abreast (scan t')) (ends : t.EndsLine)
    (h : readWith .script Machine.lines? t = .error (.unexpected excerpt spot)) :
    ∃ excerpt' spot', readWith .script Machine.lines? t' = .error (.unexpected excerpt' spot') ∧
      spot'.line = spot.line := by
  obtain ⟨lexemes, rest, line⟩ := abreast
  rw [readWith] at h ⊢
  cases hrun : Machine.script.run (scan t).lexemes with
  | error refused =>
    obtain ⟨refused', hrun', same⟩ :=
      Machine.refused_matches (fun _ _ => Lexeme.Abreast.toMatches) rfl lexemes hrun
    rw [hrun] at h
    rw [hrun']
    -- The lexeme at which the machine stops is the same up to its offset.
    cases same with
    | nil =>
      obtain ⟨-, rfl⟩ := SourceFault.unexpected.inj (Except.error.inj h)
      exact ⟨_, _, rfl, rfl⟩
    | cons first others =>
      obtain ⟨-, rfl⟩ := SourceFault.unexpected.inj (Except.error.inj h)
      exact ⟨_, _, rfl, first.line⟩
  | ok m =>
    obtain ⟨m', hrun', -⟩ := Machine.run_matches rfl
      (lexemes.imp fun _ _ => Lexeme.Abreast.toMatches) hrun
    rw [hrun] at h
    rw [hrun']
    dsimp only at h ⊢
    by_cases complete : (scan t).rest = []
    · -- What is read to its end is a script.
      obtain ⟨lines, hlines⟩ := exists_lines_of_endsLine ends (lexes_iff.2 ⟨complete, rfl⟩) hrun
      rw [if_pos (List.isEmpty_iff.2 complete), hlines] at h
      cases h
    · have complete' := mt rest.1 complete
      rw [if_neg (mt List.isEmpty_iff.1 complete)] at h
      rw [if_neg (mt List.isEmpty_iff.1 complete')]
      obtain ⟨-, rfl⟩ := SourceFault.unexpected.inj (Except.error.inj h)
      exact ⟨_, _, rfl, line⟩

/-- **Carriage returns change nothing.** With carriage returns before its line feeds a text has the
same statements at the same spots, breaks the same rule at the same spot, or is a syntax error in
the same line. -/
theorem parse_withReturns [CharacterNames] {source : Text}
    (noReturn : CodePoint.ofChar '\r' ∉ source) :
    (∀ statements, parse source = .ok statements → parse (withReturns source) = .ok statements) ∧
    (∀ v, parse source = .error (.violation v) →
      parse (withReturns source) = .error (.violation v)) ∧
    (∀ excerpt spot, parse source = .error (.unexpected excerpt spot) →
      ∃ excerpt' spot', parse (withReturns source) = .error (.unexpected excerpt' spot') ∧
        spot'.line = spot.line) := by
  have abreast :
      (scan (closeLastLine source)).Abreast (scan (closeLastLine (withReturns source))) :=
    (returned_closeLastLine noReturn).abreast_scanFrom (Or.inl rfl)
  -- A script that is read is read as the same lines at the same spots.
  have reads {lines : List Line}
      (read : readWith .script Machine.lines? (closeLastLine source) = .ok lines) :
      ∃ lines', readWith .script Machine.lines? (closeLastLine (withReturns source)) = .ok lines' ∧
        lines'.map (Line.relocate Place.forgetOffset) =
          lines.map (Line.relocate Place.forgetOffset) := by
    obtain ⟨ls, lexes, m, hrun, hlines⟩ := readWith_ok_iff.1 read
    obtain ⟨complete, rfl⟩ := lexes_iff.1 lexes
    exact readWith_script_of_matches (lexes_iff.2 ⟨abreast.rest.2 complete, rfl⟩)
      (abreast.lexemes.imp fun _ _ => Lexeme.Abreast.toMatches) ⟨m, hrun, hlines⟩
  have spots (p : Place) : p.forgetOffset.spot = id p.spot := rfl
  refine ⟨?_, ?_, ?_⟩
  · intro statements h
    obtain ⟨lines, read, said⟩ := parse_ok_iff_lines.1 h
    obtain ⟨lines', read', same⟩ := reads read
    obtain ⟨statements', h', unmoved⟩ := (parse_of_lines spots read' same).1 statements said
    rw [funext Statement.relocate_id, List.map_id', List.map_id'] at unmoved
    rw [h', unmoved]
  · intro v h
    obtain ⟨lines, read, broken⟩ := parse_eq_violation_iff.1 h
    obtain ⟨lines', read', same⟩ := reads read
    obtain ⟨v', h', unmoved⟩ := (parse_of_lines spots read' same).2 v broken
    rw [Violation.relocate_id, Violation.relocate_id] at unmoved
    rw [h', unmoved]
  · intro excerpt spot h
    obtain ⟨excerpt', spot', h', line⟩ := readWith_script_refused abreast
      (endsLine_closeLastLine source) (parse_eq_unexpected_iff.1 h)
    exact ⟨excerpt', spot', parse_eq_unexpected_iff.2 h', line⟩

end Packaging.Script
