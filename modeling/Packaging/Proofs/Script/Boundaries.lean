import Packaging.Proofs.Script.Gaps

/-! # Places between lexemes
A place that no lexeme reaches across is in a gap, which goes from the end of the lexeme before it
to the start of the one behind it. What may be put there is a matter of the gap: what fills it
leaves the lexemes as they are, and a sign is a lexeme of its own, unless a comment has begun. -/

namespace Packaging.Script

/-! ## The order of lexemes -/

/-- The offset where a lexeme is over. -/
def Lexeme.stop (l : Lexeme) : Nat := l.place.offset + l.text.length

/-- No piece of a text stands before the text. -/
theorem Cuts.offset_le {place : Place} {t : Text} {pieces : List Piece}
    (h : Cuts place t pieces) : ∀ p ∈ pieces, place.offset ≤ p.place.offset := by
  induction h with
  | nil => exact nofun
  | @cons place shape w r pieces longest rest ih =>
    rw [Place.offset_after] at ih
    refine List.forall_mem_cons.2 ⟨Nat.le_refl _, fun p hp => ?_⟩
    exact (Nat.le_add_right _ _).trans (ih p hp)

/-- Each piece is over where the next one starts. -/
theorem Cuts.pairwise {place : Place} {t : Text} {pieces : List Piece} (h : Cuts place t pieces) :
    pieces.Pairwise fun p q => p.place.offset + p.text.length ≤ q.place.offset := by
  induction h with
  | nil => exact .nil
  | @cons place shape w r pieces longest rest ih =>
    refine .cons (fun q hq => ?_) ih
    have behind := rest.offset_le q hq
    rwa [Place.offset_after] at behind

/-- Each lexeme is over where the next one starts. -/
theorem Lexes.pairwise {t : Text} {ls : List Lexeme} (h : Lexes t ls) :
    ls.Pairwise fun l m => l.stop ≤ m.place.offset := by
  obtain ⟨pieces, cuts, rfl⟩ := h
  refine cuts.pairwise.filterMap _ ?_
  intro p q behind l hl m hm
  obtain rfl := lexeme?_eq_some_iff.1 hl
  obtain rfl := lexeme?_eq_some_iff.1 hm
  exact behind

/-- The last piece ends where its text ends. -/
theorem CutsBefore.stop_of_concat {rest : Text} {place : Place} {t : Text} {a : List Piece}
    {p : Piece} (h : CutsBefore rest place t (a ++ [p])) :
    p.place.offset + p.text.length = place.offset + t.length := by
  obtain ⟨r, s, rfl, -, last⟩ := h.exists_append
  cases last with
  | cons longest more =>
    cases more
    rw [List.append_nil, List.length_append, Place.offset_after, Nat.add_assoc]

/-! ## Boundaries -/

/-- A place in a text, given by the text before it and the text behind it, that no lexeme reaches
across. -/
structure Boundary (s r : Text) (before after : List Lexeme) : Prop where
  /-- The lexemes of the text. -/
  lexes : Lexes (s ++ r) (before ++ after)
  /-- Those before the place are over there. -/
  left : ∀ l ∈ before, l.stop ≤ s.length
  /-- Those behind the place start there at the earliest. -/
  right : ∀ l ∈ after, s.length ≤ l.place.offset

/-- Lexemes that do not reach across a place are some before it and some behind it. -/
theorem exists_boundary {s r : Text} {ls : List Lexeme} (lexes : Lexes (s ++ r) ls)
    (outside : ∀ l ∈ ls, l.stop ≤ s.length ∨ s.length ≤ l.place.offset) :
    ∃ before after, ls = before ++ after ∧ Boundary s r before after := by
  have parted : ∃ before after, ls = before ++ after ∧ (∀ l ∈ before, l.stop ≤ s.length) ∧
      ∀ l ∈ after, s.length ≤ l.place.offset := by
    have ordered := lexes.pairwise
    clear lexes
    induction ordered with
    | nil => exact ⟨[], [], rfl, nofun, nofun⟩
    | @cons l ls behind ordered ih =>
      rw [List.forall_mem_cons] at outside
      rcases outside.1 with left | right
      · obtain ⟨before, after, rfl, lefts, rights⟩ := ih outside.2
        exact ⟨l :: before, after, rfl, List.forall_mem_cons.2 ⟨left, lefts⟩, rights⟩
      · refine ⟨[], l :: ls, rfl, nofun, List.forall_mem_cons.2 ⟨right, fun m hm => ?_⟩⟩
        exact right.trans ((Nat.le_add_right _ _).trans (behind m hm))
  obtain ⟨before, after, rfl, left, right⟩ := parted
  exact ⟨before, after, rfl, lexes, left, right⟩

/-- A place that is behind the last of some lexemes and before the first of the others is between
all of them. -/
theorem boundary_of_append {s r : Text} {before after : List Lexeme}
    (lexes : Lexes (s ++ r) (before ++ after)) (left : ∀ l ∈ before.getLast?, l.stop ≤ s.length)
    (right : ∀ l ∈ after.head?, s.length ≤ l.place.offset) : Boundary s r before after := by
  obtain ⟨lefts, rights, -⟩ := List.pairwise_append.1 lexes.pairwise
  refine ⟨lexes, fun m hm => ?_, fun m hm => ?_⟩
  · obtain ⟨init, l, rfl⟩ := List.eq_nil_or_concat before |>.resolve_left (List.ne_nil_of_mem hm)
    rw [List.concat_eq_append] at lefts hm left
    have last := left l List.getLast?_concat
    rcases List.mem_append.1 hm with hm | hm
    · have ends := (List.pairwise_append.1 lefts).2.2 m hm l List.mem_cons_self
      exact ends.trans ((Nat.le_add_right _ _).trans last)
    · rwa [List.mem_singleton.1 hm]
  · obtain ⟨l, more, rfl⟩ := List.exists_cons_of_ne_nil (List.ne_nil_of_mem hm)
    have first := right l rfl
    rcases List.mem_cons.1 hm with rfl | hm
    · exact first
    · have starts := List.rel_of_pairwise_cons rights hm
      exact first.trans ((Nat.le_add_right _ _).trans starts)

/-! ## The gap around a boundary -/

/-- Whether the last of some pieces, if there are any, is a lexeme. -/
def EndsWithLexeme (pieces : List Piece) : Prop := ∀ p ∈ pieces.getLast?, (p.lexeme?).isSome = true

/-- Pieces are some that end with a lexeme, and some that are skipped. -/
theorem exists_endsWithLexeme (pieces : List Piece) :
    ∃ a skipped, pieces = a ++ skipped ∧ skipped.filterMap Piece.lexeme? = [] ∧
      EndsWithLexeme a := by
  induction pieces using List.reverseRecOn with
  | nil => exact ⟨[], [], rfl, rfl, nofun⟩
  | append_singleton pieces p ih =>
    cases h : p.lexeme? with
    | some l =>
      refine ⟨pieces ++ [p], [], (List.append_nil _).symm, rfl, ?_⟩
      intro q hq
      rw [List.getLast?_concat] at hq
      obtain rfl := Option.some.inj hq
      rw [h]
      rfl
    | none =>
      obtain ⟨a, skipped, rfl, none, ends⟩ := ih
      refine ⟨a, skipped ++ [p], List.append_assoc _ _ _, ?_, ends⟩
      rw [List.filterMap_append, none, List.filterMap_cons_none h]
      rfl

/-- The gap between two lexemes: the text before it ends with the lexemes before, and the text
behind it starts with the lexemes behind. -/
structure Seam (s g rest : Text) (before after : List Lexeme) : Prop where
  /-- The lexemes before. -/
  pieces : ∃ a, CutsBefore (g ++ rest) .origin s a ∧ EndsWithLexeme a ∧
    before = a.filterMap Piece.lexeme?
  /-- The gap. -/
  gap : Gap rest g
  /-- The lexemes behind. -/
  lexes : LexesFrom (.after .origin (s ++ g)) rest after
  /-- They start where the gap is over. -/
  starts : StartsWith (.after .origin (s ++ g)) rest after

/-- There is a gap wherever lexemes are parted. -/
theorem Lexes.exists_seam {t : Text} {before after : List Lexeme}
    (h : Lexes t (before ++ after)) :
    ∃ s g rest, t = s ++ (g ++ rest) ∧ Seam s g rest before after := by
  obtain ⟨pieces, cuts, hls⟩ := h
  obtain ⟨x, y, rfl, rfl, rfl⟩ := List.filterMap_eq_append_iff.1 hls.symm
  -- What is skipped behind the last lexeme before the place belongs to the gap.
  obtain ⟨a, skipped, rfl, none, ends⟩ := exists_endsWithLexeme x
  rw [List.append_assoc] at cuts
  obtain ⟨s, t, rfl, cutsBefore, behind⟩ := cuts.exists_parts
  have skips : (skipped ++ y).filterMap Piece.lexeme? = y.filterMap Piece.lexeme? := by
    rw [List.filterMap_append, none, List.nil_append]
  have lexesBehind : LexesFrom (.after .origin s) t (y.filterMap Piece.lexeme?) :=
    ⟨_, behind, skips.symm⟩
  obtain ⟨g, rest, rfl, gap, lexes, starts⟩ := lexesBehind.exists_gap
  rw [← Place.after_append] at lexes starts
  refine ⟨s, g, rest, rfl, ⟨a, cutsBefore, ends, ?_⟩, gap, lexes, starts⟩
  rw [List.filterMap_append, none, List.append_nil]

namespace Seam

variable {s g rest : Text} {before after : List Lexeme}

/-- A gap starts where the last lexeme before it is over. -/
theorem stop_eq {init : List Lexeme} {l : Lexeme} (h : Seam s g rest (init ++ [l]) after) :
    l.stop = s.length := by
  obtain ⟨a, cuts, ends, last⟩ := h.pieces
  rcases List.eq_nil_or_concat a with rfl | ⟨start, p, rfl⟩
  · simp at last
  · rw [List.concat_eq_append] at cuts ends last
    obtain ⟨m, hm⟩ := Option.isSome_iff_exists.1 (ends p List.getLast?_concat)
    rw [List.filterMap_append, List.filterMap_cons_some hm] at last
    obtain ⟨-, same⟩ := List.append_inj' last rfl
    obtain rfl := (List.cons.inj same).1
    have stop := cuts.stop_of_concat
    obtain rfl := lexeme?_eq_some_iff.1 hm
    exact stop.trans (Nat.zero_add _)

/-- Without a lexeme before it a gap starts where the text does. -/
theorem eq_nil (h : Seam s g rest [] after) : s = [] := by
  obtain ⟨a, cuts, ends, none⟩ := h.pieces
  rcases List.eq_nil_or_concat a with rfl | ⟨start, p, rfl⟩
  · cases cuts
    rfl
  · rw [List.concat_eq_append] at ends none
    obtain ⟨m, hm⟩ := Option.isSome_iff_exists.1 (ends p List.getLast?_concat)
    rw [List.filterMap_append, List.filterMap_cons_some hm] at none
    simp at none

/-- A gap starts before a place that all lexemes before it are before. -/
theorem start_le (h : Seam s g rest before after) {n : Nat} (left : ∀ l ∈ before, l.stop ≤ n) :
    s.length ≤ n := by
  rcases List.eq_nil_or_concat before with rfl | ⟨init, l, rfl⟩
  · rw [h.eq_nil]
    exact Nat.zero_le n
  · rw [List.concat_eq_append] at h left
    rw [← h.stop_eq]
    exact left l (by simp)

/-- A gap is over behind a place that all lexemes behind it are behind. -/
theorem le_stop (h : Seam s g rest before after) {n : Nat}
    (right : ∀ l ∈ after, n ≤ l.place.offset) (inside : n ≤ (s ++ (g ++ rest)).length) :
    n ≤ (s ++ g).length := by
  have starts := h.starts
  cases starts with
  | nil empty => rwa [empty, List.append_nil] at inside
  | @cons l ls here longest =>
    have first := right l List.mem_cons_self
    rw [here, Place.offset_after] at first
    exact first.trans (Nat.zero_add _).le

/-- Behind the lexemes before a gap there may be other text, if it does not start with a letter or a
digit. -/
theorem glue (h : Seam s g rest before after) {t : Text} {ls : List Lexeme}
    (other : ∀ c ∈ t.head?, c.isWordPart = false) (behind : LexesFrom (.after .origin s) t ls) :
    Lexes (s ++ t) (before ++ ls) := by
  obtain ⟨a, cuts, ends, rfl⟩ := h.pieces
  obtain ⟨b, cutsBehind, rfl⟩ := behind
  have changed : CutsBefore t .origin s a := by
    refine cuts.change fun p hp => ?_
    obtain ⟨l, hl⟩ := Option.isSome_iff_exists.1 (ends p hp)
    obtain rfl := lexeme?_eq_some_iff.1 hl
    exact Shape.lexeme_endsBefore other
  exact ⟨a ++ b, changed.append cutsBehind, List.filterMap_append.symm⟩

/-- In front of a lexeme that ends no line there is no comment. -/
theorem not_comment {l : Lexeme} (h : Seam s g rest before (l :: after))
    (goesOn : l.terminal ≠ .newline) : ¬ Shape.comment.EndsBefore rest := by
  intro ends
  cases h.starts with
  | cons here longest =>
    obtain ⟨c, t, rfl⟩ := List.exists_cons_of_ne_nil fun empty : rest = [] =>
      longest.spelled.ne_nil (List.prefix_nil.1 (empty ▸ longest.isBeginning))
    have feed : c = '\n' := by simpa [Shape.goesOn] using ends c rfl
    rw [feed] at longest
    obtain ⟨shape, -⟩ := longest.shape_unique (longest_newline t)
    exact goesOn (Shape.lexeme.inj shape)

end Seam

/-- A boundary is in a gap. -/
theorem Boundary.exists_seam {s r : Text} {before after : List Lexeme}
    (h : Boundary s r before after) :
    ∃ s' g₁ g₂ rest, s = s' ++ g₁ ∧ r = g₂ ++ rest ∧ Seam s' (g₁ ++ g₂) rest before after := by
  obtain ⟨s', g, rest, split, seam⟩ := h.lexes.exists_seam
  have start_le := seam.start_le h.left
  have le_stop := seam.le_stop h.right (by rw [← split, List.length_append]; omega)
  obtain ⟨g₁, rfl⟩ := List.prefix_of_prefix_length_le (List.prefix_append s' (g ++ rest))
    (split ▸ List.prefix_append s r) start_le
  rw [List.append_assoc, List.append_cancel_left_eq] at split
  have le_gap : g₁.length ≤ g.length := by
    simpa only [List.length_append, Nat.add_le_add_iff_left] using le_stop
  obtain ⟨g₂, rfl⟩ := List.prefix_of_prefix_length_le (split ▸ List.prefix_append g₁ r)
    (List.prefix_append g rest) le_gap
  rw [List.append_assoc, List.append_cancel_left_eq] at split
  exact ⟨s', g₁, g₂, rest, rfl, split, seam⟩

/-! ## Putting something at a boundary -/

section Insertions

variable {s r g₁ g₂ rest : Text} {before after : List Lexeme}

/-- What holds no lexeme may be put into a gap. -/
theorem Seam.fill (h : Seam s (g₁ ++ g₂) rest before after) {filler : Text}
    (fills : Gap rest filler) (nonempty : filler ≠ []) :
    ∃ after', Lexes ((s ++ g₁) ++ (filler ++ (g₂ ++ rest))) (before ++ after') ∧
      List.Forall₂ (Lexeme.Matches Place.forget) after after' := by
  have gap := h.gap.insert fills
  obtain ⟨after', lexes, same⟩ := h.lexes.exists_at
    (.after (.after .origin s) (g₁ ++ (filler ++ g₂)))
  refine ⟨after', ?_, same⟩
  have glued := h.glue ?_ (lexes.of_gap gap h.starts.endsBefore)
  · simpa only [List.append_assoc] using glued
  · rw [List.head?_append_of_ne_nil _ (by simp [nonempty])]
    exact gap.head_not_wordPart

/-- **A gap may be filled.** What holds no lexeme changes no lexeme. -/
theorem Boundary.fill (h : Boundary s r before after) {filler : Text} (fills : Gap r filler) :
    ∃ after', Lexes (s ++ (filler ++ r)) (before ++ after') ∧
      List.Forall₂ (Lexeme.Matches Place.forget) after after' := by
  by_cases empty : filler = []
  · subst empty
    exact ⟨after, h.lexes, forall₂_matches_refl _ after⟩
  obtain ⟨s, g₁, g₂, rest, rfl, rfl, seam⟩ := h.exists_seam
  refine seam.fill ?_ empty
  cases fills with
  | spaces spaces => exact .spaces spaces
  | comment spaces oneLine ends =>
    -- The line ends behind the place, so nothing of the gap is there.
    cases g₂ with
    | nil => exact .comment spaces oneLine ends
    | cons c g₂ =>
      have feed : c = '\n' := by simpa [Shape.goesOn] using ends c rfl
      exact absurd feed (seam.gap.oneLine c (by simp))

/-- In front of a carriage return that belongs to the end of a line there may be a comment, which
takes the carriage return along. -/
theorem Boundary.comment_before_return
    (h : Boundary s (CodePoint.ofChar '\r' :: CodePoint.ofChar '\n' :: r) before after) {t : Text}
    (oneLine : ∀ c ∈ t, c ≠ '\n') :
    ∃ after', Lexes (s ++ (CodePoint.ofChar '#' ::
        (t ++ CodePoint.ofChar '\r' :: CodePoint.ofChar '\n' :: r))) (before ++ after') ∧
      List.Forall₂ (Lexeme.Matches Place.forget) after after' := by
  obtain ⟨s, g₁, g₂, rest, rfl, split, seam⟩ := h.exists_seam
  cases g₂ with
  | nil =>
    obtain rfl : _ = rest := split
    -- A comment before the carriage return would have taken it along already.
    have spaces : ∀ c ∈ g₁, isSpace c = true := by
      rcases seam.gap.split with ⟨spaces, -⟩ | ⟨u, v, -, -, ends⟩
      · exact spaces
      · exact absurd (ends _ rfl) (by decide)
    obtain ⟨more, rfl, behind⟩ := seam.lexes.exists_cons (longest_returnAndFeed r)
    have feed : Shape.comment.EndsBefore (CodePoint.ofChar '\n' :: r) :=
      Shape.endsBefore_cons.2 rfl
    have gap : Gap (CodePoint.ofChar '\n' :: r)
        (g₁ ++ CodePoint.ofChar '#' :: (t ++ [CodePoint.ofChar '\r'])) := by
      refine .comment spaces ?_ feed
      rw [List.forall_mem_append, List.forall_mem_singleton]
      exact ⟨oneLine, by decide⟩
    obtain ⟨more', lexes, same⟩ := behind.exists_at (.after (.after (.after .origin s)
      (g₁ ++ CodePoint.ofChar '#' :: (t ++ [CodePoint.ofChar '\r']))) [CodePoint.ofChar '\n'])
    have newline := LexesFrom.cons (longest_newline r) lexes
    have glued := seam.glue (by
      rw [List.head?_append_of_ne_nil _ (by simp)]
      exact gap.head_not_wordPart) (newline.of_gap gap (Shape.endsBefore_cons.2 rfl))
    simp only [List.append_assoc, List.cons_append, List.nil_append] at glued ⊢
    exact ⟨_, glued, .cons ⟨rfl, fun goesOn => absurd rfl goesOn⟩ same⟩
  | cons c g₂ =>
    -- The carriage return is in a comment, and so is what is put before it.
    obtain ⟨rfl, -⟩ := List.cons.inj split
    rw [split, ← List.cons_append]
    rcases seam.gap.split with ⟨-, right⟩ | ⟨u, v, -, -, ends⟩
    · exact absurd (right.head _ rfl) (by decide)
    · have fills : Gap rest (CodePoint.ofChar '#' :: t) := .comment (u := []) nofun oneLine ends
      exact seam.fill fills (List.cons_ne_nil _ _)

/-- The lexeme that a sign is behind a text. -/
def signBehind (s : Text) (terminal : Terminal) (c : CodePoint) : Lexeme :=
  ⟨terminal, [c], .after .origin s⟩

/-- **A sign between lexemes is a lexeme**, unless a comment has begun before it. -/
theorem Boundary.insert_sign (h : Boundary s r before after) {c : CodePoint} {terminal : Terminal}
    (sign : signs.lookup c = some terminal) (other : c.isWordPart = false)
    (noComment : (∃ init l, before = init ++ [l] ∧ l.stop = s.length) ∨
      ∃ l more, after = l :: more ∧ l.terminal ≠ .newline) :
    ∃ after', Lexes (s ++ c :: r) (before ++ signBehind s terminal c :: after') ∧
      List.Forall₂ (Lexeme.Matches Place.forget) after after' := by
  obtain ⟨s, g₁, g₂, rest, rfl, rfl, seam⟩ := h.exists_seam
  -- In front of the sign no comment may be open, for it would swallow the sign.
  obtain ⟨spaces, gap⟩ : (∀ c ∈ g₁, isSpace c = true) ∧ Gap rest g₂ := by
    rcases seam.gap.split with parts | ⟨u, t, -, begun, ends⟩
    · exact parts
    · rcases noComment with ⟨init, l, rfl, tight⟩ | ⟨l, more, rfl, goesOn⟩
      · rw [seam.stop_eq, begun] at tight
        simp at tight
      · exact absurd ends (seam.not_comment goesOn)
  have longest := longest_sign (g₂ ++ rest) sign
  have first : StartsWith .origin (c :: (g₂ ++ rest)) [⟨terminal, [c], .origin⟩] :=
    .cons rfl longest
  obtain ⟨after', lexes, same⟩ := seam.lexes.exists_at
    (.after (.after (.after (.after .origin s) g₁) [c]) g₂)
  have behind := (LexesFrom.cons longest (lexes.of_gap gap seam.starts.endsBefore)).of_spaces spaces
    first.endsBefore
  refine ⟨after', ?_, same⟩
  have glued := seam.glue ?_ behind
  · rwa [← List.append_assoc, ← Place.after_append] at glued
  · cases g₁ with
    | nil =>
      intro d hd
      obtain rfl := Option.some.inj hd
      exact other
    | cons d g₁ =>
      have left : Gap rest (d :: g₁) := .spaces spaces
      exact left.head_not_wordPart

end Insertions

/-- Parentheses around lexemes are lexemes before and behind them. -/
theorem Lexes.parentheses {s m r : Text} {before inner after more init : List Lexeme}
    {first last : Lexeme} (h : Lexes ((s ++ m) ++ r) ((before ++ inner) ++ after))
    (hfirst : inner = first :: more) (starts : first.place.offset = s.length)
    (goesOn : first.terminal ≠ .newline) (hlast : inner = init ++ [last])
    (stops : last.stop = (s ++ m).length) :
    ∃ ls, Lexes (s ++ (CodePoint.ofChar '(' :: (m ++ CodePoint.ofChar ')' :: r)))
        (before ++ signBehind s .opening '(' :: ls) ∧
      List.Forall₂ (Lexeme.Matches Place.forget)
        (inner ++ signBehind (s ++ m) .closing ')' :: after) ls := by
  -- The closing parenthesis comes first, so that the places before it stay as they are.
  have right : Boundary (s ++ m) r (before ++ inner) after := by
    refine boundary_of_append h (fun l hl => ?_) fun l hl => ?_
    · rw [hlast, ← List.append_assoc, List.getLast?_concat] at hl
      obtain rfl := Option.some.inj hl
      exact stops.le
    · rw [← stops]
      exact (List.pairwise_append.1 h.pairwise).2.2 last (by simp [hlast]) l (List.mem_of_head? hl)
  obtain ⟨after', closed, sameAfter⟩ := right.insert_sign (c := ')') rfl rfl
    (Or.inl ⟨before ++ init, last, by rw [hlast, List.append_assoc], stops⟩)
  rw [List.append_assoc, List.append_assoc] at closed
  have left : Boundary s (m ++ CodePoint.ofChar ')' :: r) before
      (inner ++ signBehind (s ++ m) .closing ')' :: after') := by
    refine boundary_of_append closed (fun l hl => ?_) fun l hl => ?_
    · rw [← starts]
      exact (List.pairwise_append.1 closed.pairwise).2.2 l (List.mem_of_getLast? hl) first
        (by simp [hfirst])
    · rw [hfirst] at hl
      obtain rfl := Option.some.inj hl
      exact starts.ge
  obtain ⟨ls, both, same⟩ := left.insert_sign (c := '(') rfl rfl
    (Or.inr ⟨first, _, by rw [hfirst, List.cons_append], goesOn⟩)
  refine ⟨ls, both, forall₂_matches_trans ?_ same⟩
  exact List.rel_append (forall₂_matches_refl _ inner) (.cons ⟨rfl, fun _ => rfl⟩ sameAfter)

end Packaging.Script
