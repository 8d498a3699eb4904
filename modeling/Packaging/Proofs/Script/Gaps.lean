import Packaging.Proofs.Script.Junctures
import Packaging.Proofs.Script.Rewording

/-! # Gaps between lexemes
Between two lexemes there is a gap of spaces and tabs, which in front of the end of a line may hold
a comment as well. A gap may be filled with any other gap, for what is read of a text is its
lexemes. -/

namespace Packaging.Script

/-! ## Gaps -/

/-- The texts that may stand in front of a rest and hold no lexeme: spaces and tabs and, if the rest
starts with the end of a line or is nothing, a comment behind them. -/
inductive Gap (rest : Text) : Text → Prop
  /-- Spaces and tabs. -/
  | spaces {u : Text} (spaces : ∀ c ∈ u, isSpace c = true) : Gap rest u
  /-- Spaces and tabs, and a comment. -/
  | comment {u t : Text} (spaces : ∀ c ∈ u, isSpace c = true) (oneLine : ∀ c ∈ t, c ≠ '\n')
      (ends : Shape.comment.EndsBefore rest) : Gap rest (u ++ CodePoint.ofChar '#' :: t)

namespace Gap

variable {rest g : Text}

/-- A gap holds no line feed. -/
theorem oneLine (h : Gap rest g) : ∀ c ∈ g, c ≠ '\n' := by
  have space {u : Text} (spaces : ∀ c ∈ u, isSpace c = true) : ∀ c ∈ u, c ≠ '\n' := by
    rintro c hc rfl
    exact absurd (spaces _ hc) (by decide)
  cases h with
  | spaces spaces => exact space spaces
  | comment spaces oneLine ends =>
    rw [List.forall_mem_append, List.forall_mem_cons]
    exact ⟨space spaces, by decide, oneLine⟩

/-- Spaces may come before a gap. -/
theorem append {u : Text} (h : Gap rest g) (more : ∀ c ∈ u, isSpace c = true) :
    Gap rest (u ++ g) := by
  cases h with
  | spaces spaces => exact .spaces (List.forall_mem_append.2 ⟨more, spaces⟩)
  | @comment v t spaces oneLine ends =>
    rw [← List.append_assoc]
    exact .comment (List.forall_mem_append.2 ⟨more, spaces⟩) oneLine ends

/-- A beginning of a gap is spaces with a gap behind them, or a comment has begun in it. -/
theorem split {g₁ g₂ : Text} (h : Gap rest (g₁ ++ g₂)) :
    ((∀ c ∈ g₁, isSpace c = true) ∧ Gap rest g₂) ∨
      ∃ u t, (∀ c ∈ u, isSpace c = true) ∧ g₁ = u ++ CodePoint.ofChar '#' :: t ∧
        Shape.comment.EndsBefore rest := by
  generalize whole : g₁ ++ g₂ = g at h
  cases h with
  | spaces spaces =>
    rw [← whole, List.forall_mem_append] at spaces
    exact Or.inl ⟨spaces.1, .spaces spaces.2⟩
  | @comment u t spaces oneLine ends =>
    rcases List.append_eq_append_iff.1 whole with ⟨more, rfl, rfl⟩ | ⟨more, rfl, hmore⟩
    · rw [List.forall_mem_append] at spaces
      exact Or.inl ⟨spaces.1, .comment spaces.2 oneLine ends⟩
    · cases more with
      | nil =>
        rw [List.nil_append] at hmore
        rw [List.append_nil, ← hmore]
        exact Or.inl ⟨spaces, .comment (u := []) nofun oneLine ends⟩
      | cons c more =>
        obtain ⟨rfl, -⟩ := List.cons.inj hmore
        exact Or.inr ⟨u, more, spaces, rfl, ends⟩

/-- A gap may be filled with another one anywhere. -/
theorem insert {g₁ g₂ filler : Text} (h : Gap rest (g₁ ++ g₂)) (fills : Gap rest filler) :
    Gap rest (g₁ ++ (filler ++ g₂)) := by
  have behind := (List.forall_mem_append.1 h.oneLine).2
  rcases h.split with ⟨spaces, right⟩ | ⟨u, t, spaces, rfl, ends⟩
  · apply Gap.append _ spaces
    cases fills with
    | spaces more => exact right.append more
    | @comment u t more oneLine ends =>
      rw [List.append_assoc, List.cons_append]
      exact .comment more (List.forall_mem_append.2 ⟨oneLine, behind⟩) ends
  · have before := (List.forall_mem_append.1 h.oneLine).1
    rw [List.append_assoc, List.cons_append]
    refine .comment spaces ?_ ends
    rw [List.forall_mem_append, List.forall_mem_append]
    rw [List.forall_mem_append, List.forall_mem_cons] at before
    exact ⟨before.2.2, fills.oneLine, behind⟩

/-- A gap starts with a space or a comment. -/
theorem head (h : Gap rest g) : ∀ c ∈ g.head?, isSpace c = true ∨ c = '#' := by
  intro c hc
  cases h with
  | spaces spaces => exact Or.inl (spaces c (List.mem_of_mem_head? hc))
  | @comment u t spaces oneLine ends =>
    cases u with
    | nil => exact Or.inr (Option.some.inj hc).symm
    | cons d u =>
      obtain rfl := Option.some.inj hc
      exact Or.inl (spaces _ List.mem_cons_self)

/-- A gap starts with no letter and no digit. -/
theorem head_not_wordPart (h : Gap rest g) : ∀ c ∈ g.head?, c.isWordPart = false := by
  intro c hc
  rcases h.head c hc with space | rfl
  · simp only [isSpace, Bool.or_eq_true, beq_iff_eq] at space
    simp only [CodePoint.isWordPart, CodePoint.isWordStart, CodePoint.isDigit,
      CodePoint.isBetween, Bool.or_eq_false_iff, Bool.and_eq_false_iff, decide_eq_false_iff_not,
      beq_eq_false_iff_ne]
    omega
  · rfl

end Gap

/-- A lexeme goes on with letters and digits only. -/
theorem Shape.lexeme_endsBefore {terminal : Terminal} {r : Text}
    (other : ∀ c ∈ r.head?, c.isWordPart = false) : (Shape.lexeme terminal).EndsBefore r := by
  intro c hc
  have part := other c hc
  cases terminal with
  | word => exact part
  | integer =>
    rw [CodePoint.isWordPart, Bool.or_eq_false_iff] at part
    exact part.2
  | _ => rfl

/-! ## Lexemes from a place on -/

/-- The lexemes of a text that starts at a place. -/
def LexesFrom (place : Place) (t : Text) (lexemes : List Lexeme) : Prop :=
  ∃ pieces, Cuts place t pieces ∧ lexemes = pieces.filterMap Piece.lexeme?

/-- What is spelled and does not go on is the first lexeme. -/
theorem LexesFrom.cons {place : Place} {terminal : Terminal} {w r : Text} {ls : List Lexeme}
    (longest : (Shape.lexeme terminal).Longest w (w ++ r)) (h : LexesFrom (place.after w) r ls) :
    LexesFrom place (w ++ r) (⟨terminal, w, place⟩ :: ls) := by
  obtain ⟨pieces, cuts, rfl⟩ := h
  exact ⟨_, .cons longest cuts, rfl⟩

/-- What is spelled and does not go on is the first lexeme, and nothing else is. -/
theorem LexesFrom.exists_cons {place : Place} {terminal : Terminal} {w r : Text}
    {ls : List Lexeme} (longest : (Shape.lexeme terminal).Longest w (w ++ r))
    (h : LexesFrom place (w ++ r) ls) :
    ∃ more, ls = ⟨terminal, w, place⟩ :: more ∧ LexesFrom (place.after w) r more := by
  obtain ⟨pieces, cuts, rfl⟩ := h
  obtain ⟨spelled, ends⟩ := Shape.longest_append_iff.1 longest
  obtain ⟨more, behind, rfl⟩ := (cuts_append_iff spelled ends).1 cuts
  exact ⟨_, rfl, more, behind, rfl⟩

/-- A text has the same lexemes at another place, but for their places. -/
theorem LexesFrom.exists_at {place : Place} {t : Text} {ls : List Lexeme}
    (h : LexesFrom place t ls) (other : Place) :
    ∃ ls', LexesFrom other t ls' ∧ List.Forall₂ (Lexeme.Matches Place.forget) ls ls' := by
  obtain ⟨pieces, cuts, rfl⟩ := h
  induction cuts generalizing other with
  | nil => exact ⟨[], ⟨[], .nil, rfl⟩, .nil⟩
  | @cons place shape w r pieces longest rest ih =>
    obtain ⟨ls', ⟨more, behind, rfl⟩, same⟩ := ih (other.after w)
    cases shape with
    | lexeme terminal =>
      exact ⟨_, ⟨_, .cons longest behind, rfl⟩, .cons ⟨rfl, fun _ => rfl⟩ same⟩
    | blank => exact ⟨_, ⟨_, .cons longest behind, rfl⟩, same⟩
    | comment => exact ⟨_, ⟨_, .cons longest behind, rfl⟩, same⟩

/-! ## What a text starts with -/

/-- Whether a text that starts at a place starts with the first of some lexemes, or there is neither
text nor lexeme. -/
inductive StartsWith (place : Place) (t : Text) : List Lexeme → Prop
  /-- There is neither. -/
  | nil (empty : t = []) : StartsWith place t []
  /-- The first lexeme is here. -/
  | cons {l : Lexeme} {ls : List Lexeme} (here : l.place = place)
      (longest : (Shape.lexeme l.terminal).Longest l.text t) : StartsWith place t (l :: ls)

/-- A gap is over where a lexeme starts. -/
theorem StartsWith.endsBefore {place : Place} {t : Text} {ls : List Lexeme}
    (h : StartsWith place t ls) : Shape.blank.EndsBefore t := by
  cases h with
  | nil empty =>
    rw [empty]
    exact Shape.endsBefore_nil _
  | cons here longest =>
    intro c hc
    by_contra space
    obtain ⟨s, rfl⟩ := List.head?_eq_some_iff.1 hc
    obtain ⟨shape, -⟩ :=
      longest.shape_unique (longest_blank (by simpa [Shape.goesOn] using space))
    cases shape

/-- **What is cut is a gap and then lexemes.** The pieces before the first lexeme are a gap. -/
theorem LexesFrom.exists_gap {place : Place} {t : Text} {ls : List Lexeme}
    (h : LexesFrom place t ls) :
    ∃ g rest, t = g ++ rest ∧ Gap rest g ∧ LexesFrom (place.after g) rest ls ∧
      StartsWith (place.after g) rest ls := by
  obtain ⟨pieces, cuts, rfl⟩ := h
  induction cuts with
  | nil => exact ⟨[], [], rfl, .spaces nofun, ⟨[], .nil, rfl⟩, .nil rfl⟩
  | @cons place shape w r pieces longest behind ih =>
    cases shape with
    | lexeme terminal =>
      exact ⟨[], w ++ r, rfl, .spaces nofun, ⟨_, .cons longest behind, rfl⟩, .cons rfl longest⟩
    | blank =>
      obtain ⟨g, rest, rfl, gap, lexes, starts⟩ := ih
      have spaces : ∀ c ∈ w, isSpace c = true := by
        cases longest.spelled with
        | blank _ spaces => exact spaces
      rw [← Place.after_append] at lexes starts
      exact ⟨w ++ g, rest, (List.append_assoc _ _ _).symm, gap.append spaces, lexes, starts⟩
    | comment =>
      obtain ⟨g, rest, rfl, gap, lexes, starts⟩ := ih
      have ends := (Shape.longest_append_iff.1 longest).2
      -- A comment reaches to the end of its line, so no gap is left behind it.
      have empty : g = [] := by
        cases g with
        | nil => rfl
        | cons c g =>
          have feed := ends c rfl
          exact absurd (by simpa [Shape.goesOn] using feed) (gap.oneLine c List.mem_cons_self)
      subst empty
      refine ⟨w, rest, rfl, ?_, lexes, starts⟩
      cases longest.spelled with
      | comment oneLine => exact .comment (u := []) nofun oneLine ends

/-- Spaces before a text that starts with none are skipped. -/
theorem LexesFrom.of_spaces {place : Place} {u rest : Text} {ls : List Lexeme}
    (spaces : ∀ c ∈ u, isSpace c = true) (starts : Shape.blank.EndsBefore rest)
    (h : LexesFrom (place.after u) rest ls) : LexesFrom place (u ++ rest) ls := by
  by_cases empty : u = []
  · subst empty
    exact h
  · obtain ⟨pieces, cuts, rfl⟩ := h
    exact ⟨_, (cuts_append_iff (.blank empty spaces) starts).2 ⟨pieces, cuts, rfl⟩, rfl⟩

/-- A gap before a text that starts with a lexeme is skipped. -/
theorem LexesFrom.of_gap {place : Place} {g rest : Text} {ls : List Lexeme} (gap : Gap rest g)
    (starts : Shape.blank.EndsBefore rest) (h : LexesFrom (place.after g) rest ls) :
    LexesFrom place (g ++ rest) ls := by
  cases gap with
  | spaces spaces => exact h.of_spaces spaces starts
  | @comment u t spaces oneLine ends =>
    rw [Place.after_append] at h
    obtain ⟨pieces, cuts, rfl⟩ := h
    have behind : LexesFrom (place.after u) (CodePoint.ofChar '#' :: t ++ rest) _ :=
      ⟨_, (cuts_append_iff (.comment oneLine) ends).2 ⟨pieces, cuts, rfl⟩, rfl⟩
    rw [List.append_assoc]
    exact behind.of_spaces spaces (Shape.endsBefore_cons.2 rfl)

end Packaging.Script
