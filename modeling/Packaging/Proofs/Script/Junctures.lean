import Packaging.Proofs.Script.SyntaxErrors

/-! # Where pieces meet
Whether a piece is as long as it can be is a matter of the next code point alone: a word goes on
with letters and digits, a numeral with digits, blanks with blanks, and a comment with everything
but a line feed. Nothing else goes on at all. So a text may be taken apart between two pieces, and
put together where the last piece of one part does not go on with the other. -/

namespace Packaging.Script

/-! ## What goes on -/

/-- Whether a piece of a shape goes on with a code point behind it. -/
def Shape.goesOn : Shape → CodePoint → Bool
  | .lexeme .integer, c => c.isDigit
  | .lexeme .word, c => c.isWordPart
  | .blank, c => isSpace c
  | .comment, c => c ≠ CodePoint.ofChar '\n'
  | _, _ => false

/-- Whether a piece of a shape ends where a text starts. -/
def Shape.EndsBefore (shape : Shape) (r : Text) : Prop := ∀ c ∈ r.head?, shape.goesOn c = false

/-- Every shape ends at the end of a text. -/
theorem Shape.endsBefore_nil (shape : Shape) : shape.EndsBefore [] := nofun

/-- A shape ends before a code point exactly if it does not go on with it. -/
theorem Shape.endsBefore_cons {shape : Shape} {c : CodePoint} {r : Text} :
    shape.EndsBefore (c :: r) ↔ shape.goesOn c = false := by
  simp [EndsBefore]

/-- Only the start of a text matters to what is before it. -/
theorem Shape.endsBefore_append {shape : Shape} {s : Text} (nonempty : s ≠ []) (r : Text) :
    shape.EndsBefore (s ++ r) ↔ shape.EndsBefore s := by
  obtain ⟨c, s, rfl⟩ := List.exists_cons_of_ne_nil nonempty
  rw [List.cons_append, endsBefore_cons, endsBefore_cons]

/-- What a shape goes on with can be added to a text of that shape. -/
theorem Shape.Spells.concat {shape : Shape} {w : Text} (h : shape.Spells w) {c : CodePoint}
    (more : shape.goesOn c = true) : shape.Spells (w ++ [c]) := by
  -- The last code point is one more of a run.
  have run {p : CodePoint → Bool} {t : Text} (all : ∀ d ∈ t, p d = true) (hc : p c = true) :
      ∀ d ∈ t ++ [c], p d = true := by
    intro d hd
    rcases List.mem_append.1 hd with hd | hd
    · exact all d hd
    · rw [List.mem_singleton.1 hd]
      exact hc
  cases h with
  | numeral nonempty areDigits => exact .numeral (by simp) (run areDigits more)
  | negative nonempty areDigits => exact .negative (by simp) (run areDigits more)
  | word start parts => exact .word start (run parts more)
  | blank nonempty spaces => exact .blank (by simp) (run spaces more)
  | comment oneLine =>
    refine .comment fun d hd => ?_
    rcases List.mem_append.1 hd with hd | hd
    · exact oneLine d hd
    · rw [List.mem_singleton.1 hd]
      simpa [goesOn] using more
  | _ => cases more

/-- What is longer of a shape goes on with its next code point. -/
theorem Shape.Spells.goesOn_of_append {shape : Shape} {w u : Text} {c : CodePoint}
    (h : shape.Spells w) (longer : shape.Spells (w ++ c :: u)) : shape.goesOn c = true := by
  have inside : c ∈ w ++ c :: u := List.mem_append_right _ List.mem_cons_self
  generalize hv : w ++ c :: u = v at longer inside
  cases longer with
  | @string quote body isQuote between =>
    -- Both strings end at the first quote that closes them.
    cases h with
    | @string q b isQuote' between' =>
      rw [List.cons_append, List.cons.injEq, List.append_assoc, List.singleton_append] at hv
      obtain ⟨rfl, hv⟩ := hv
      have first := stringLength?_of_body isQuote' between' 0 (c :: u)
      have second := stringLength?_of_body isQuote between 0 []
      rw [hv] at first
      rw [first, Option.some.injEq] at second
      have lengths := congrArg List.length hv
      simp at lengths
      omega
  | numeral nonempty areDigits =>
    cases h with
    | numeral _ _ => exact areDigits c inside
    | negative _ _ => exact areDigits c inside
  | @negative digits nonempty areDigits =>
    have behind : c ∈ digits := by
      cases h with
      | numeral some_digits areDigits' =>
        obtain ⟨d, t, rfl⟩ := List.exists_cons_of_ne_nil some_digits
        rw [List.cons_append, List.cons.injEq] at hv
        rw [← hv.2]
        simp
      | negative _ _ =>
        rw [List.cons_append, List.cons.injEq] at hv
        rw [← hv.2]
        simp
    exact areDigits c behind
  | @word d t start parts =>
    have behind : c ∈ t := by
      cases h with
      | word _ _ =>
        rw [List.cons_append, List.cons.injEq] at hv
        rw [← hv.2]
        simp
    exact parts c behind
  | blank nonempty spaces => exact spaces c inside
  | @comment t oneLine =>
    have behind : c ∈ t := by
      cases h with
      | comment _ =>
        rw [List.cons_append, List.cons.injEq] at hv
        rw [← hv.2]
        simp
    simpa [goesOn] using oneLine c behind
  | lineFeed =>
    cases h with
    | lineFeed => simp at hv
    | returnAndFeed => simp at hv
  | returnAndFeed =>
    cases h with
    | lineFeed => exact absurd (List.cons.inj hv).1 (by decide)
    | returnAndFeed => simp at hv
  | equals | dot | comma | opening | closing =>
    cases h
    simp at hv

/-- **A piece is the longest of its shape exactly if it does not go on.** -/
theorem Shape.longest_append_iff {shape : Shape} {w r : Text} :
    shape.Longest w (w ++ r) ↔ shape.Spells w ∧ shape.EndsBefore r := by
  constructor
  · intro longest
    refine ⟨longest.spelled, ?_⟩
    intro c hc
    obtain ⟨r, rfl⟩ := List.head?_eq_some_iff.1 hc
    by_contra more
    have spelled := longest.spelled.concat (by simpa using more)
    have shorter := longest.length_le _ ⟨r, by simp⟩ spelled
    rw [List.length_append, List.length_singleton] at shorter
    omega
  · rintro ⟨spelled, ends⟩
    refine ⟨List.prefix_append w r, spelled, ?_⟩
    intro v hv longer
    rcases List.prefix_or_prefix_of_prefix hv (List.prefix_append w r) with shorter | ⟨u, rfl⟩
    · exact shorter.length_le
    · cases u with
      | nil => simp
      | cons c u =>
        obtain ⟨_, hr⟩ := hv
        rw [List.append_assoc, List.append_cancel_left_eq, List.cons_append] at hr
        have stops := ends c (by rw [← hr]; rfl)
        rw [spelled.goesOn_of_append longer] at stops
        cases stops

/-- No piece goes on with a line feed. -/
theorem Shape.goesOn_lineFeed (shape : Shape) : shape.goesOn '\n' = false := by
  cases shape with
  | lexeme terminal =>
    cases terminal with
    | _ => rfl
  | _ => rfl

/-! ## Taking apart and putting together -/

/-- What is spelled and does not go on is cut first. -/
theorem cuts_append_iff {place : Place} {shape : Shape} {w r : Text} {pieces : List Piece}
    (spelled : shape.Spells w) (ends : shape.EndsBefore r) :
    Cuts place (w ++ r) pieces ↔
      ∃ more, Cuts (place.after w) r more ∧ pieces = ⟨shape, w, place⟩ :: more := by
  have longest : shape.Longest w (w ++ r) := Shape.longest_append_iff.2 ⟨spelled, ends⟩
  constructor
  · intro h
    generalize ht : w ++ r = t at h
    cases h with
    | nil => exact absurd (List.append_eq_nil_iff.1 ht).1 spelled.ne_nil
    | @cons _ shape' w' r' more longest' rest =>
      rw [← ht] at longest'
      obtain ⟨rfl, rfl⟩ := longest.shape_unique longest'
      obtain rfl := List.append_cancel_left ht
      exact ⟨more, rest, rfl⟩
  · rintro ⟨more, rest, rfl⟩
    exact .cons longest rest

/-- A text that is cut is taken apart between any two of its pieces. -/
theorem Cuts.exists_parts {place : Place} {t : Text} {a b : List Piece}
    (h : Cuts place t (a ++ b)) :
    ∃ s r, t = s ++ r ∧ CutsBefore r place s a ∧ Cuts (place.after s) r b := by
  induction a generalizing place t with
  | nil => exact ⟨[], t, rfl, .nil, h⟩
  | cons p a ih =>
    obtain _ | ⟨longest, rest⟩ := h
    obtain ⟨s, r, rfl, before, behind⟩ := ih rest
    refine ⟨_ ++ s, r, (List.append_assoc _ _ _).symm, .cons longest before, ?_⟩
    rwa [Place.after_append]

/-- What is cut up to a text, and the text, are cut together. -/
theorem CutsBefore.append {place : Place} {s r : Text} {a b : List Piece}
    (h : CutsBefore r place s a) (behind : Cuts (place.after s) r b) :
    Cuts place (s ++ r) (a ++ b) := by
  induction h with
  | nil => exact behind
  | @cons place shape w s pieces longest more ih =>
    rw [Place.after_append] at behind
    rw [List.append_assoc, List.cons_append]
    exact .cons longest (ih behind)

/-- What is cut up to a text is cut up to another if its last piece does not go on with that. -/
theorem CutsBefore.change {place : Place} {s r r' : Text} {a : List Piece}
    (h : CutsBefore r place s a) (ends : ∀ p ∈ a.getLast?, p.shape.EndsBefore r') :
    CutsBefore r' place s a := by
  induction h with
  | nil => exact .nil
  | @cons place shape w s pieces longest more ih =>
    obtain ⟨spelled, before⟩ := Shape.longest_append_iff.1 longest
    cases more with
    | nil =>
      refine .cons (Shape.longest_append_iff.2 ⟨spelled, ?_⟩) .nil
      rw [List.nil_append]
      exact ends _ rfl
    | @cons _ shape' w' s' pieces' longest' more' =>
      have nonempty : w' ++ s' ≠ [] := by
        intro empty
        exact longest'.spelled.ne_nil (List.append_eq_nil_iff.1 empty).1
      rw [Shape.endsBefore_append nonempty] at before
      refine .cons (Shape.longest_append_iff.2 ⟨spelled, ?_⟩) (ih ?_)
      · rwa [Shape.endsBefore_append nonempty]
      · rwa [List.getLast?_cons_cons] at ends

/-- A text that is cut with nothing behind it is cut by itself. -/
theorem CutsBefore.cuts {place : Place} {s : Text} {a : List Piece}
    (h : CutsBefore [] place s a) : Cuts place s a := by
  have whole := h.append .nil
  rwa [List.append_nil, List.append_nil] at whole

/-! ## A line feed at the end -/

/-- A line feed behind a text is a piece of its own, unless there is a carriage return before it. -/
theorem cuts_append_lineFeed_iff {place : Place} {t : Text} {pieces : List Piece}
    (noReturn : t.getLast? ≠ some (CodePoint.ofChar '\r')) :
    Cuts place (t ++ [CodePoint.ofChar '\n']) pieces ↔
      ∃ a, Cuts place t a ∧
        pieces = a ++ [⟨.lexeme .newline, [CodePoint.ofChar '\n'], place.after t⟩] := by
  constructor
  · intro h
    obtain ⟨init, w, p, rfl⟩ := h.exists_newline (Text.endsLine_concat_lineFeed t) (by simp)
    obtain ⟨s, r, split, before, last⟩ := h.exists_parts
    obtain _ | ⟨longest, rest⟩ := last
    cases rest
    rw [List.append_nil] at split
    -- The last piece is the line feed, for before it there is no carriage return.
    generalize hshape : Shape.lexeme Terminal.newline = shape at longest
    cases longest.spelled with
    | lineFeed =>
      obtain rfl := List.append_cancel_right split
      exact ⟨init, (before.change fun p _ => p.shape.endsBefore_nil).cuts, rfl⟩
    | returnAndFeed =>
      have returned : t = s ++ [CodePoint.ofChar '\r'] :=
        List.append_cancel_right (split.trans (List.append_assoc s ['\r'] ['\n']).symm)
      exact absurd (by rw [returned, List.getLast?_concat]) noReturn
    | _ => cases hshape
  · rintro ⟨a, ha, rfl⟩
    have before : CutsBefore [CodePoint.ofChar '\n'] place t a := by
      refine ha.cutsBefore.change fun p _ => ?_
      rw [Shape.endsBefore_cons]
      exact p.shape.goesOn_lineFeed
    exact before.append (.cons (longest_newline []) .nil)

end Packaging.Script
