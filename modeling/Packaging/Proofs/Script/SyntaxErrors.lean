import Packaging.Proofs.Script.Seams

/-! # Where syntax errors are reported
A text is read from left to right up to the first lexeme that makes what has been read impossible,
or up to the first code point with which no lexeme starts. That is where a syntax error is reported.
A script never ends too early, for it ends with the end of a line; an expression may. -/

namespace Packaging.Script

open Script.Derivation

/-! ## Cutting up to a rest -/

/-- A text cut into pieces from a place on when a rest follows it: each piece is the longest one of
its shape where it starts, the rest included. -/
inductive CutsBefore (rest : Text) : Place → Text → List Piece → Prop
  /-- Nothing is left before the rest. -/
  | nil {place : Place} : CutsBefore rest place [] []
  /-- A piece, and what comes after it up to the rest. -/
  | cons {place : Place} {shape : Shape} {w r : Text} {pieces : List Piece}
      (longest : shape.Longest w (w ++ (r ++ rest)))
      (more : CutsBefore rest (place.after w) r pieces) :
      CutsBefore rest place (w ++ r) (⟨shape, w, place⟩ :: pieces)

/-- The lexemes of a text up to a rest that follows it. -/
def LexesBefore (before rest : Text) (lexemes : List Lexeme) : Prop :=
  ∃ pieces, CutsBefore rest .origin before pieces ∧ lexemes = pieces.filterMap Piece.lexeme?

/-- What is cut completely is cut up to where nothing is left. -/
theorem Cuts.cutsBefore {place : Place} {t : Text} {pieces : List Piece}
    (h : Cuts place t pieces) : CutsBefore [] place t pieces := by
  induction h with
  | nil => exact .nil
  | @cons place shape w r pieces longest rest ih =>
    rw [← List.append_nil r] at longest
    exact .cons longest ih

/-- What is cut may be parted between two pieces. -/
theorem CutsBefore.exists_append {rest : Text} {place : Place} {t : Text} {a b : List Piece}
    (h : CutsBefore rest place t (a ++ b)) :
    ∃ r s, t = r ++ s ∧ CutsBefore (s ++ rest) place r a ∧
      CutsBefore rest (place.after r) s b := by
  generalize hpieces : a ++ b = pieces at h
  induction h generalizing a with
  | nil =>
    obtain ⟨rfl, rfl⟩ := List.append_eq_nil_iff.1 hpieces
    exact ⟨[], [], rfl, .nil, .nil⟩
  | @cons place shape w r pieces longest more ih =>
    cases a with
    | nil =>
      obtain rfl : b = _ := hpieces
      exact ⟨[], w ++ r, rfl, .nil, .cons longest more⟩
    | cons p a =>
      obtain ⟨rfl, hrest⟩ := List.cons.inj hpieces
      obtain ⟨r, s, rfl, ha, hb⟩ := ih hrest
      refine ⟨w ++ r, s, (List.append_assoc _ _ _).symm, .cons ?_ ha, ?_⟩
      · rwa [← List.append_assoc r]
      · rwa [Place.after_append]

/-- Whether a text starts with nothing that is spelled. -/
def StartsNothing (t : Text) : Prop := ∀ shape w, w <+: t → ¬ Shape.Spells shape w

/-- At the end of a text no piece starts. -/
theorem startsNothing_nil : StartsNothing [] := by
  intro shape w beginning spelled
  exact spelled.ne_nil (List.prefix_nil.1 beginning)

/-- Where nothing is cut, no piece starts. -/
theorem startsNothing_of_cut? {c : CodePoint} {r : Text} (h : cut? c r = none) :
    StartsNothing (c :: r) := by
  intro shape w beginning spelled
  obtain ⟨n, hcut⟩ := exists_cut?_eq_some beginning spelled
  rw [h] at hcut
  cases hcut

/-- What a text starts with has one shape, and is the longest of it. -/
theorem Shape.Longest.shape_unique {shape shape' : Shape} {w w' t : Text}
    (h : shape.Longest w t) (h' : shape'.Longest w' t) : shape = shape' ∧ w = w' := by
  cases t with
  | nil => exact absurd (List.prefix_nil.1 h.isBeginning) h.spelled.ne_nil
  | cons c r =>
    obtain ⟨n, hcut⟩ := exists_cut?_eq_some h.isBeginning h.spelled
    obtain ⟨n', hcut'⟩ := exists_cut?_eq_some h'.isBeginning h'.spelled
    obtain rfl : shape = shape' :=
      (Prod.mk.inj (Option.some.inj (hcut.symm.trans hcut'))).1
    exact ⟨rfl, h.unique h'⟩

/-- Of two beginnings of one text that are cut, one goes on where the other ends. -/
theorem CutsBefore.exists_more {place : Place} {rest rest' t t' : Text} {a b : List Piece}
    (h : CutsBefore rest place t a) (h' : CutsBefore rest' place t' b)
    (same : t ++ rest = t' ++ rest') :
    (∃ s c, t' = t ++ s ∧ b = a ++ c ∧ CutsBefore rest' (place.after t) s c) ∨
      ∃ s c, t = t' ++ s ∧ a = b ++ c ∧ CutsBefore rest (place.after t') s c := by
  -- By induction on the first; the other is cut into the same pieces as long as there are any.
  induction h generalizing t' b with
  | nil => exact Or.inl ⟨t', b, rfl, rfl, h'⟩
  | @cons place shape w r pieces longest more ih =>
    cases h' with
    | nil => exact Or.inr ⟨w ++ r, _, rfl, rfl, .cons longest more⟩
    | @cons _ shape' w' r' pieces' longest' more' =>
      rw [List.append_assoc, List.append_assoc] at same
      rw [same] at longest
      obtain ⟨rfl, rfl⟩ := longest.shape_unique longest'
      have rests := List.append_cancel_left same
      rcases ih more' rests with ⟨s, c, rfl, rfl, hs⟩ | ⟨s, c, rfl, rfl, hs⟩
      · refine Or.inl ⟨s, c, (List.append_assoc _ _ _).symm, rfl, ?_⟩
        rwa [Place.after_append]
      · refine Or.inr ⟨s, c, (List.append_assoc _ _ _).symm, rfl, ?_⟩
        rwa [Place.after_append]

/-- Scanning cuts a text up to a rest with which nothing starts. -/
theorem cutsBefore_scanFrom (place : Place) (t : Text) :
    ∃ before, t = before ++ (scanFrom place t).rest ∧
      CutsBefore (scanFrom place t).rest place before (scanFrom place t).pieces ∧
      (scanFrom place t).stop = place.after before ∧ StartsNothing (scanFrom place t).rest := by
  fun_induction scanFrom place t with
  | case1 place => exact ⟨[], rfl, .nil, rfl, startsNothing_nil⟩
  | case2 place c r hcut => exact ⟨[], rfl, .nil, rfl, startsNothing_of_cut? hcut⟩
  | case3 place c r shape n hcut text scan ih =>
    obtain ⟨_, longest⟩ := longest_of_cut?_eq_some hcut
    obtain ⟨before, split, cuts, stop, nothing⟩ := ih
    have whole : c :: r = text ++ (before ++ scan.rest) := by
      rw [← split, List.cons_append, List.take_append_drop]
    refine ⟨text ++ before, ?_, .cons ?_ cuts, ?_, nothing⟩
    · rw [whole, List.append_assoc]
    · rw [← whole]
      exact longest
    · rw [Place.after_append]
      exact stop

/-! ## Where reading stops -/

/-- Where lexemes stop being the beginning of a sentence: `before` is what could be read of a text,
and the rest starts with a lexeme that is impossible there or with nothing that is a lexeme. -/
inductive Start.StopsAt (start : Start) (before rest : Text) : Prop
  /-- The lexemes so far begin a sentence, and with the next one they do not. -/
  | lexeme {ls : List Lexeme} {terminal : Terminal} {w : Text} (lexes : LexesBefore before rest ls)
      (begins : start.Begins ls) (longest : (Shape.lexeme terminal).Longest w rest)
      (impossible : ¬ start.Begins (ls ++ [⟨terminal, w, Place.origin.after before⟩]))
  /-- The lexemes so far begin a sentence, and no lexeme starts with the next code point. -/
  | codePoint {ls : List Lexeme} (lexes : LexesBefore before rest ls) (begins : start.Begins ls)
      (nonempty : rest ≠ []) (nothing : StartsNothing rest)

/-- A piece is a lexeme exactly if its shape is that of one. -/
theorem lexeme?_eq_some_iff {p : Piece} {l : Lexeme} :
    p.lexeme? = some l ↔ p = ⟨.lexeme l.terminal, l.text, l.place⟩ := by
  obtain ⟨shape, text, place⟩ := p
  obtain ⟨terminal, text', place'⟩ := l
  cases shape with
  | lexeme terminal' => simp [Piece.lexeme?]
  | blank => simp [Piece.lexeme?]
  | comment => simp [Piece.lexeme?]

/-- A lexeme of a text stands where the text before it leads, and is the longest there. -/
theorem LexesBefore.exists_at {rest t : Text} {before after : List Lexeme} {l : Lexeme}
    (h : LexesBefore t rest (before ++ l :: after)) :
    ∃ r s, t = r ++ (l.text ++ s) ∧ LexesBefore r (l.text ++ (s ++ rest)) before ∧
      (Shape.lexeme l.terminal).Longest l.text (l.text ++ (s ++ rest)) ∧
      l.place = Place.origin.after r := by
  obtain ⟨terminal, w, place⟩ := l
  obtain ⟨pieces, cuts, hls⟩ := h
  obtain ⟨a, b, rfl, ha, hb⟩ := List.filterMap_eq_append_iff.1 hls.symm
  -- What is skipped before the lexeme belongs to what comes before it.
  obtain ⟨skipped, p, c, rfl, hskipped, hp, -⟩ := List.filterMap_eq_cons_iff.1 hb
  obtain rfl := lexeme?_eq_some_iff.1 hp
  rw [← List.append_assoc] at cuts
  obtain ⟨r, s, rfl, hr, hs⟩ := cuts.exists_append
  obtain _ | ⟨longest, more⟩ := hs
  refine ⟨r, _, rfl, ⟨a ++ skipped, ?_, ?_⟩, longest, rfl⟩
  · rwa [List.append_assoc] at hr
  · rw [List.filterMap_append, ha, List.filterMap_eq_nil_iff.2 hskipped, List.append_nil]

/-- Every lexeme of a text is spelled, and stands where the text before it leads. -/
theorem Lexes.exists_of_mem {t : Text} {ls : List Lexeme} (h : Lexes t ls) {l : Lexeme}
    (mem : l ∈ ls) :
    (Shape.lexeme l.terminal).Spells l.text ∧
      ∃ before after, t = before ++ (l.text ++ after) ∧ l.place = Place.origin.after before := by
  obtain ⟨pieces, cuts, hls⟩ := h
  obtain ⟨before, after, rfl⟩ := List.append_of_mem mem
  have whole : LexesBefore t [] (before ++ l :: after) := ⟨pieces, cuts.cutsBefore, hls⟩
  obtain ⟨r, s, split, -, longest, place⟩ := whole.exists_at
  exact ⟨longest.spelled, r, s, split, place⟩

/-! ## What is reported -/

/-- A text that a machine does not read is refused where the machine refuses a lexeme, or where no
lexeme starts, or because there is nothing to be had at its end. -/
theorem readWith_error_cases {α : Type} {m : Machine} {result? : Machine → Option α}
    {source : Text} {fault : SourceFault} (h : readWith m result? source = .error fault) :
    (∃ before rest ls n, source = before ++ rest ∧ LexesBefore before rest ls ∧
      m.run ls = .ok n ∧ fault = unexpectedAt source (Place.origin.after before) ∧
      ((∃ terminal w, (Shape.lexeme terminal).Longest w rest ∧
          n.step ⟨terminal, w, Place.origin.after before⟩ = none) ∨
        rest ≠ [] ∧ StartsNothing rest)) ∨
    ∃ ls n, Lexes source ls ∧ m.run ls = .ok n ∧ result? n = none ∧
      fault = unexpectedAt source ((ls.getLast?.map (·.place)).getD .origin) := by
  obtain ⟨t, split, cuts, stop, nothing⟩ := cutsBefore_scanFrom .origin source
  have lexes : LexesBefore t (scan source).rest (scan source).lexemes := ⟨_, cuts, rfl⟩
  rw [readWith] at h
  cases hrun : m.run (scan source).lexemes with
  | error rest =>
    obtain ⟨before, l, after, n, hls, rfl, hbefore, refused⟩ := Machine.exists_refused_of_run hrun
    rw [hrun] at h
    obtain rfl := Except.error.inj h
    rw [hls] at lexes
    obtain ⟨r, s, rfl, hr, longest, hplace⟩ := lexes.exists_at
    refine Or.inl ⟨r, _, before, n, ?_, hr, hbefore, ?_, Or.inl ⟨l.terminal, l.text, longest, ?_⟩⟩
    · rw [List.append_assoc, List.append_assoc] at split
      exact split
    · rw [hplace]
    · rw [← hplace]
      exact refused
  | ok n =>
    rw [hrun] at h
    dsimp only at h
    -- Nothing was refused, so either nothing was left over or nothing could be made of the whole.
    by_cases complete : (scan source).rest.isEmpty = true
    · rw [if_pos complete] at h
      cases hresult : result? n with
      | some a =>
        rw [hresult] at h
        cases h
      | none =>
        rw [hresult] at h
        obtain rfl := Except.error.inj h
        exact Or.inr ⟨_, n, lexes_iff.2 ⟨List.isEmpty_iff.1 complete, rfl⟩, hrun, hresult, rfl⟩
    · rw [if_neg complete] at h
      obtain rfl := Except.error.inj h
      refine Or.inl ⟨t, _, _, n, split, lexes, hrun, ?_, Or.inr ⟨?_, nothing⟩⟩
      · rw [scan, stop]
      · intro empty
        exact complete (List.isEmpty_iff.2 empty)

/-- Where reading is refused, the lexemes stop being the beginning of a sentence. -/
theorem Start.stopsAt_of_run {start : Start} {before rest : Text} {ls : List Lexeme} {n : Machine}
    (lexes : LexesBefore before rest ls) (hrun : start.machine.run ls = .ok n)
    (refused : (∃ terminal w, (Shape.lexeme terminal).Longest w rest ∧
        n.step ⟨terminal, w, Place.origin.after before⟩ = none) ∨
      rest ≠ [] ∧ StartsNothing rest) : start.StopsAt before rest := by
  have begins : start.Begins ls := begins_iff_run.2 ⟨n, hrun⟩
  rcases refused with ⟨terminal, w, longest, refused⟩ | ⟨nonempty, nothing⟩
  · exact .lexeme lexes begins longest (not_begins_of_refused hrun refused)
  · exact .codePoint lexes begins nonempty nothing

/-- A script does not end too early. -/
theorem exists_lines_of_endsLine {source : Text} {ls : List Lexeme} {m : Machine}
    (ends : source.EndsLine) (lexes : Lexes source ls) (hrun : Machine.script.run ls = .ok m) :
    ∃ lines, m.lines? = some lines := by
  rw [eq_ready_of_endsLine lexes ends hrun]
  exact ⟨_, rfl⟩

/-- A text whose last line is closed ends a line. -/
theorem endsLine_closeLastLine (source : Text) : (closeLastLine source).EndsLine := by
  by_cases closed : source.getLast? = some (CodePoint.ofChar '\n')
  · rw [closeLastLine, if_pos closed]
    exact Text.endsLine_of_getLast? closed
  · rw [closeLastLine_of_open closed]
    exact Text.endsLine_concat_lineFeed source

/-- An expression that is read and not complete is no sentence. -/
theorem not_derives_of_phrase? {ls : List Lexeme} {m : Machine}
    (hrun : Machine.expression.run ls = .ok m) (incomplete : m.phrase? = none) :
    ¬ Start.expr.Derives ls := by
  rintro ⟨d, rfl⟩
  obtain ⟨m', hrun', hphrase⟩ := expression_run_iff.2 ⟨d, rfl, rfl⟩
  obtain rfl := Except.ok.inj (hrun.symm.trans hrun')
  rw [incomplete] at hphrase
  cases hphrase

/-- Where lexemes stop, they cannot go on. -/
theorem Start.StopsAt.exists_cut {start : Start} {before rest : Text}
    (h : start.StopsAt before rest) :
    ∃ pieces, CutsBefore rest .origin before pieces ∧
      start.Begins (pieces.filterMap Piece.lexeme?) ∧
      ∀ shape w, Shape.Longest shape w rest → ∀ more,
        ¬ start.Begins ((pieces ++ Piece.mk shape w (.after .origin before) :: more).filterMap
          Piece.lexeme?) := by
  cases h with
  | lexeme lexes begins longest impossible =>
    obtain ⟨pieces, cuts, rfl⟩ := lexes
    refine ⟨pieces, cuts, begins, ?_⟩
    intro shape w other more goesOn
    obtain ⟨rfl, rfl⟩ := longest.shape_unique other
    apply impossible
    apply goesOn.of_beginning
    rw [List.filterMap_append, List.prefix_append_right_inj]
    exact ⟨more.filterMap Piece.lexeme?, rfl⟩
  | codePoint lexes begins nonempty nothing =>
    obtain ⟨pieces, cuts, rfl⟩ := lexes
    refine ⟨pieces, cuts, begins, ?_⟩
    intro shape w other
    exact absurd other.spelled (nothing shape w other.isBeginning)

/-- There is only one place in a text where its lexemes stop being the beginning of a sentence. -/
theorem Start.StopsAt.unique {start : Start} {before rest before' rest' : Text}
    (h : start.StopsAt before rest) (h' : start.StopsAt before' rest')
    (same : before ++ rest = before' ++ rest') : before = before' := by
  obtain ⟨a, cuts, begins, stops⟩ := h.exists_cut
  obtain ⟨b, cuts', begins', stops'⟩ := h'.exists_cut
  -- Were one of the places later, the lexemes would go on after the other.
  rcases cuts.exists_more cuts' same with ⟨s, c, rfl, rfl, more⟩ | ⟨s, c, rfl, rfl, more⟩
  · cases more with
    | nil => exact (List.append_nil before).symm
    | cons longest more =>
      rw [List.append_assoc, List.append_cancel_left_eq] at same
      rw [← List.append_assoc, ← same] at longest
      exact absurd begins' (stops _ _ longest _)
  · cases more with
    | nil => exact List.append_nil before'
    | cons longest more =>
      rw [List.append_assoc, List.append_cancel_left_eq] at same
      rw [← List.append_assoc, same] at longest
      exact absurd begins (stops' _ _ longest _)

/-- A reader stops before the end of a text only. -/
theorem Start.StopsAt.rest_ne_nil {start : Start} {before rest : Text}
    (h : start.StopsAt before rest) : rest ≠ [] := by
  cases h with
  | lexeme lexes begins longest impossible =>
    rintro rfl
    exact longest.spelled.ne_nil (List.prefix_nil.1 longest.isBeginning)
  | codePoint lexes begins nonempty nothing => exact nonempty

/-- A text that ends with a lexeme and is refused only at its end is reported where that lexeme
starts. -/
theorem exists_last_lexeme {source : Text} {ls : List Lexeme} (lexes : Lexes source ls) :
    (ls = [] ∧ (ls.getLast?.map Lexeme.place).getD .origin = Place.origin) ∨
    ∃ init l before after, ls = init ++ [l] ∧ source = before ++ (l.text ++ after) ∧
      LexesBefore before (l.text ++ after) init ∧
      (ls.getLast?.map Lexeme.place).getD .origin = Place.origin.after before := by
  rcases List.eq_nil_or_concat ls with rfl | ⟨init, l, rfl⟩
  · exact Or.inl ⟨rfl, rfl⟩
  · rw [List.concat_eq_append] at lexes ⊢
    obtain ⟨pieces, cuts, hls⟩ := lexes
    have whole : LexesBefore source [] (init ++ l :: []) := ⟨pieces, cuts.cutsBefore, hls⟩
    obtain ⟨before, after, split, hinit, -, hplace⟩ := whole.exists_at
    rw [List.append_nil] at hinit
    refine Or.inr ⟨init, l, before, after, rfl, split, hinit, ?_⟩
    rw [List.getLast?_concat]
    exact hplace

/-- A text is split where its lexemes stop being the beginning of a sentence, which is at one place
only, and a spot is that place: its line is one more than the line feeds before it, and its column
one more than what stands before it in its line. -/
structure Start.StopsOnlyAt (start : Start) (source before rest : Text) (spot : Spot) : Prop where
  /-- The text is split. -/
  split : source = before ++ rest
  /-- The place is not the end of the text. -/
  nonempty : rest ≠ []
  /-- The lexemes stop there. -/
  stops : start.StopsAt before rest
  /-- They stop nowhere else. -/
  unique : ∀ before' rest', source = before' ++ rest' → start.StopsAt before' rest' →
    before' = before
  /-- The spot is counted in what comes before. -/
  counted : spot = ⟨1 + before.lineFeeds, 1 + before.lastLine.length⟩

/-- A fault where reading is refused is at the only place where the lexemes stop. -/
theorem Start.stopsOnlyAt_of_run {start : Start} {source before rest message : Text} {spot : Spot}
    {ls : List Lexeme} {n : Machine} (split : source = before ++ rest)
    (lexes : LexesBefore before rest ls) (hrun : start.machine.run ls = .ok n)
    (refused : (∃ terminal w, (Shape.lexeme terminal).Longest w rest ∧
        n.step ⟨terminal, w, Place.origin.after before⟩ = none) ∨
      rest ≠ [] ∧ StartsNothing rest)
    (hfault : SourceFault.unexpected message spot =
      unexpectedAt source (Place.origin.after before)) :
    start.StopsOnlyAt source before rest spot := by
  have stops := start.stopsAt_of_run lexes hrun refused
  refine ⟨split, stops.rest_ne_nil, stops, ?_, ?_⟩
  · intro before' rest' split' stops'
    exact stops'.unique stops (split'.symm.trans split)
  · rw [(SourceFault.unexpected.inj hfault).2, Place.after_origin]

/-- **Syntax errors are reported at the first impossible place.** A script is refused where its
lexemes stop being the beginning of a script, which is never at its end. An expression is refused
where its lexemes stop being the beginning of an expression; or, if they are one but no expression
yet, where the last of them starts. -/
theorem syntaxError_at_first_impossible [CharacterNames] (source message : Text) (spot : Spot) :
    (parse source = .error (.unexpected message spot) →
      (SourceFault.unexpected message spot).failure = syntaxError message spot ∧
      ∃ before rest, Start.program.StopsOnlyAt (closeLastLine source) before rest spot) ∧
    (parseExpr source = .error (.unexpected message spot) →
      (SourceFault.unexpected message spot).failure = syntaxError message spot ∧
      ((∃ before rest, Start.expr.StopsOnlyAt source.trim before rest spot) ∨
        ∃ ls, Lexes source.trim ls ∧ Start.expr.Begins ls ∧ ¬ Start.expr.Derives ls ∧
          ((ls = [] ∧ spot = ⟨1, 1⟩) ∨
            ∃ init l before after, ls = init ++ [l] ∧
              source.trim = before ++ (l.text ++ after) ∧
              LexesBefore before (l.text ++ after) init ∧
              spot = ⟨1 + before.lineFeeds, 1 + before.lastLine.length⟩))) := by
  constructor
  · intro h
    refine ⟨rfl, ?_⟩
    rcases readWith_error_cases (parse_eq_unexpected_iff.1 h) with
      ⟨before, rest, ls, n, split, lexes, hrun, hfault, refused⟩ |
      ⟨ls, n, lexes, hrun, none, -⟩
    · exact ⟨before, rest, Start.program.stopsOnlyAt_of_run split lexes hrun refused hfault⟩
    -- A script closes its last line, so that it never ends in the middle of a statement.
    · obtain ⟨lines, some⟩ :=
        exists_lines_of_endsLine (endsLine_closeLastLine source) lexes hrun
      rw [none] at some
      cases some
  · intro h
    refine ⟨rfl, ?_⟩
    rcases readWith_error_cases (parseExpr_eq_unexpected_iff.1 h) with
      ⟨before, rest, ls, n, split, lexes, hrun, hfault, refused⟩ |
      ⟨ls, n, lexes, hrun, none, hfault⟩
    · exact Or.inl ⟨before, rest, Start.expr.stopsOnlyAt_of_run split lexes hrun refused hfault⟩
    · have begins : Start.expr.Begins ls := Start.begins_iff_run.2 ⟨n, hrun⟩
      refine Or.inr ⟨ls, lexes, begins, not_derives_of_phrase? hrun none, ?_⟩
      rw [(SourceFault.unexpected.inj hfault).2]
      rcases exists_last_lexeme lexes with
        ⟨empty, first⟩ | ⟨init, l, before, after, hls, split, hinit, last⟩
      · exact Or.inl ⟨empty, congrArg Place.spot first⟩
      · refine Or.inr ⟨init, l, before, after, hls, split, hinit, ?_⟩
        exact (congrArg Place.spot last).trans (by rw [Place.after_origin])

end Packaging.Script
