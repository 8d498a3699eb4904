import Packaging.Proofs.Script.SyntaxErrors

/-! # Lexemes and what is expected
A reader that knows what may come next could look for nothing else. It would cut a text into the
same pieces: wherever a piece starts no other shape fits, and the piece is as long as its shape
allows. All that is left for such a reader to decide is whether `True`, `False` and `None` are
keywords or names, and where it has to give up. -/

namespace Packaging.Script

/-! ## Symbols -/

/-- What a piece may be taken for: its shape, or a keyword. -/
inductive Symbol
  /-- Whatever has a shape. -/
  | ofShape (shape : Shape)
  /-- A keyword. -/
  | keyword (word : Text)
  deriving DecidableEq

namespace Symbol

/-- The symbol of names. -/
def name : Symbol := .ofShape (.lexeme .word)

/-- The texts of each symbol. A keyword has one text only. -/
def Spells : Symbol → Text → Prop
  | .ofShape shape, w => shape.Spells w
  | .keyword word, w => w = word ∧ isKeyword word = true

/-- The shape of the pieces that are taken for a symbol. -/
def pieceShape : Symbol → Shape
  | .ofShape shape => shape
  | .keyword _ => .lexeme .word

/-- Whether what is taken for a symbol is skipped. -/
def isSkipped : Symbol → Bool
  | .ofShape .blank | .ofShape .comment => true
  | _ => false

/-- Keywords are words. -/
theorem spells_word_of_isKeyword {w : Text} (h : isKeyword w = true) :
    (Shape.lexeme .word).Spells w := by
  obtain ⟨value, found⟩ := Option.isSome_iff_exists.1 h
  obtain ⟨before, after, split, -⟩ := List.lookup_eq_some_iff.1 found
  have mem : (w, value) ∈ keywords := by
    rw [split]
    exact List.mem_append_right _ List.mem_cons_self
  simp only [keywords, List.mem_cons, Prod.mk.injEq, List.not_mem_nil, or_false] at mem
  rcases mem with ⟨rfl, -⟩ | ⟨rfl, -⟩ | ⟨rfl, -⟩
  · exact .word (by decide) (by decide)
  · exact .word (by decide) (by decide)
  · exact .word (by decide) (by decide)

/-- A text that spells a symbol spells the shape of its pieces. -/
theorem Spells.pieceShape {g : Symbol} {w : Text} (h : g.Spells w) : g.pieceShape.Spells w := by
  cases g with
  | ofShape shape => exact h
  | keyword word =>
    obtain ⟨rfl, isKeyword⟩ := h
    exact spells_word_of_isKeyword isKeyword

end Symbol

/-- Where a piece of one shape starts, every symbol that a beginning spells is of that shape. -/
theorem Shape.Longest.pieceShape_eq {shape : Shape} {w t : Text} (h : shape.Longest w t)
    {g : Symbol} {v : Text} (isBeginning : v <+: t) (spelled : g.Spells v) :
    g.pieceShape = shape := by
  cases t with
  | nil => exact absurd (List.prefix_nil.1 h.isBeginning) h.spelled.ne_nil
  | cons c r =>
    obtain ⟨n, cut⟩ := exists_cut?_eq_some h.isBeginning h.spelled
    obtain ⟨m, cut'⟩ := exists_cut?_eq_some isBeginning spelled.pieceShape
    exact (Prod.mk.inj (Option.some.inj (cut'.symm.trans cut))).1

/-! ## The pieces of a text -/

/-- The texts of pieces, one after the other. -/
def textOf (pieces : List Piece) : Text := Text.concat (pieces.map (·.text))

/-- No pieces make the empty text. -/
@[simp] theorem textOf_nil : textOf [] = [] := rfl

/-- The text of pieces starts with that of the first one. -/
@[simp] theorem textOf_cons (p : Piece) (pieces : List Piece) :
    textOf (p :: pieces) = p.text ++ textOf pieces := rfl

/-- Pieces one after the other make their texts one after the other. -/
@[simp] theorem textOf_append (a b : List Piece) : textOf (a ++ b) = textOf a ++ textOf b := by
  simp [textOf, Text.concat]

/-- The pieces that a text is cut into make the text. -/
theorem CutsBefore.textOf_eq {rest : Text} {place : Place} {t : Text} {pieces : List Piece}
    (h : CutsBefore rest place t pieces) : textOf pieces = t := by
  induction h with
  | nil => rfl
  | cons _ _ ih => rw [textOf_cons, ih]

/-- The pieces of a text and what is left are the whole text. -/
theorem textOf_pieces_scan (t : Text) : textOf (scan t).pieces ++ (scan t).rest = t :=
  flatten_pieces_scanFrom .origin t

/-- No piece starts with what is left. -/
theorem startsNothing_rest_scan (t : Text) : StartsNothing (scan t).rest := by
  obtain ⟨-, -, -, -, nothing⟩ := cutsBefore_scanFrom .origin t
  exact nothing

/-- A piece of a text is the longest one of its shape behind the pieces before it, and it stands
where these lead. -/
theorem longest_of_pieces_scan {t : Text} {before after : List Piece} {p : Piece}
    (h : (scan t).pieces = before ++ p :: after) :
    p.shape.Longest p.text (p.text ++ (textOf after ++ (scan t).rest)) ∧
      p.place = Place.origin.after (textOf before) := by
  obtain ⟨whole, -, cuts, -, -⟩ := cutsBefore_scanFrom .origin t
  rw [← scan, h] at cuts
  obtain ⟨r, s, rfl, first, behind⟩ := cuts.exists_append
  rw [first.textOf_eq]
  cases behind with
  | cons longest more => exact ⟨by rw [more.textOf_eq]; exact longest, rfl⟩

/-! ## Readers that look for what they expect -/

/-- A piece together with the symbol that it is taken for. -/
structure Taken where
  /-- The symbol. -/
  symbol : Symbol
  /-- The text. -/
  text : Text
  /-- The place where it starts. -/
  place : Place
  deriving DecidableEq

/-- The piece that is taken. -/
def Taken.piece (x : Taken) : Piece := ⟨x.symbol.pieceShape, x.text, x.place⟩

/-- What a reader allows to come next, by all that it has taken. Wherever it allows a keyword, it
allows a name. -/
structure Expectation where
  /-- Whether a symbol may come next. -/
  allows : List Taken → Symbol → Bool
  /-- A name may come wherever a keyword may. -/
  name_of_keyword : ∀ taken word, allows taken (.keyword word) = true → allows taken .name = true

namespace Expectation

variable {e : Expectation}

/-- How a reader may take a beginning of a text for a symbol. It looks only for symbols that it
allows or that are skipped, in any order, and takes the longest text of the one that it finds. Where
names are allowed too, a keyword is taken only if it is all of a word; and a keyword that is allowed
is not taken for a name. -/
structure Takes (e : Expectation) (taken : List Taken) (t : Text) (g : Symbol) (w : Text) :
    Prop where
  /-- The symbol is one of those that the reader looks for. -/
  allowed : g.isSkipped = true ∨ e.allows taken g = true
  /-- The symbol is found. -/
  isBeginning : w <+: t
  /-- What is found is one of its texts. -/
  spelled : g.Spells w
  /-- No longer text of the symbol is found. -/
  length_le : ∀ v, v <+: t → g.Spells v → v.length ≤ w.length
  /-- A keyword is a whole word. -/
  wholeWord : ∀ word, g = .keyword word → e.allows taken .name = true →
    (Shape.lexeme .word).Longest w t
  /-- A name is no keyword that is allowed. -/
  notKeyword : g = .name → isKeyword w = true → e.allows taken (.keyword w) = false

/-- A text read up to a rest, by what the reader allows at each place. -/
inductive Reads (e : Expectation) (t : Text) : List Taken → Text → Prop
  /-- Nothing has been read. -/
  | start : Reads e t [] t
  /-- One more symbol is taken, which stands where all that was taken before leads. -/
  | next {taken : List Taken} {g : Symbol} {w r : Text} (before : Reads e t taken (w ++ r))
      (takes : e.Takes taken (w ++ r) g w) :
      Reads e t (taken ++ [⟨g, w, .after .origin (textOf (taken.map Taken.piece))⟩]) r

/-- What a reader takes a piece for: a word for a keyword if it is one that the reader allows, and
everything else for what its shape says. -/
def symbolOf (e : Expectation) (taken : List Taken) (shape : Shape) (w : Text) : Symbol :=
  if shape = .lexeme .word ∧ isKeyword w = true ∧ e.allows taken (.keyword w) = true then .keyword w
  else .ofShape shape

/-- Whatever symbol a reader takes a piece for, the piece has the shape of that symbol. -/
theorem pieceShape_symbolOf (e : Expectation) (taken : List Taken) (shape : Shape) (w : Text) :
    (e.symbolOf taken shape w).pieceShape = shape := by
  rw [symbolOf]
  split
  next word => exact word.1.symm
  · rfl

/-- Whether a reader agrees to what is taken next. -/
structure Grants (e : Expectation) (before : List Taken) (x : Taken) : Prop where
  /-- It is taken for what the reader takes it for. -/
  symbol : x.symbol = e.symbolOf before x.piece.shape x.text
  /-- It is skipped or allowed. -/
  allowed : x.symbol.isSkipped = true ∨ e.allows before x.symbol = true

instance (e : Expectation) (before : List Taken) (x : Taken) : Decidable (e.Grants before x) :=
  decidable_of_iff (x.symbol = e.symbolOf before x.piece.shape x.text ∧
      (x.symbol.isSkipped = true ∨ e.allows before x.symbol = true))
    ⟨fun h => ⟨h.1, h.2⟩, fun h => ⟨h.symbol, h.allowed⟩⟩

/-- Whether a reader agrees to everything that is taken. -/
def GrantsAll (e : Expectation) (taken : List Taken) : Prop :=
  ∀ before x after, taken = before ++ x :: after → e.Grants before x

/-- There is nothing to grant where nothing was taken. -/
theorem grantsAll_nil (e : Expectation) : e.GrantsAll [] := by
  intro before x after same
  exact absurd same.symm (List.append_ne_nil_of_right_ne_nil _ (List.cons_ne_nil _ _))

/-- All pieces are granted exactly if those before the last are, and then the last one. -/
theorem grantsAll_concat_iff {taken : List Taken} {x : Taken} :
    e.GrantsAll (taken ++ [x]) ↔ e.GrantsAll taken ∧ e.Grants taken x := by
  constructor
  · intro all
    refine ⟨fun before y after same => all before y (after ++ [x]) ?_, all taken x [] rfl⟩
    rw [same, List.append_assoc, List.cons_append]
  · rintro ⟨all, last⟩ before y after same
    -- What is granted is the last that is taken, or one of those before it.
    rcases List.eq_nil_or_concat after with rfl | ⟨init, z, rfl⟩
    · obtain ⟨rfl, one⟩ := List.append_inj' same rfl
      obtain rfl := (List.cons.inj one).1
      exact last
    · rw [List.concat_eq_append, ← List.cons_append, ← List.append_assoc] at same
      exact all before y init (List.append_inj' same rfl).1

/-- Pieces are taken one by one, each after those before it. -/
theorem exists_grantsAll_concat_iff {pieces : List Piece} {p : Piece} :
    (∃ taken, taken.map Taken.piece = pieces ++ [p] ∧ e.GrantsAll taken) ↔
      ∃ taken, taken.map Taken.piece = pieces ∧ e.GrantsAll taken ∧
        ∃ x : Taken, x.piece = p ∧ e.Grants taken x := by
  constructor
  · rintro ⟨taken, same, all⟩
    obtain ⟨init, last, rfl, rfl, one⟩ := List.map_eq_append_iff.1 same
    obtain ⟨x, rfl, rfl⟩ := List.map_eq_singleton_iff.1 one
    obtain ⟨all, granted⟩ := grantsAll_concat_iff.1 all
    exact ⟨init, rfl, all, x, rfl, granted⟩
  · rintro ⟨taken, rfl, all, x, rfl, granted⟩
    exact ⟨taken ++ [x], List.map_append, grantsAll_concat_iff.2 ⟨all, granted⟩⟩

/-- Where a piece starts, a reader takes exactly that piece, if it takes anything. -/
theorem takes_iff {shape : Shape} {w t v : Text} (longest : shape.Longest w t)
    {taken : List Taken} {g : Symbol} :
    e.Takes taken t g v ↔ v = w ∧ g = e.symbolOf taken shape w ∧
      (g.isSkipped = true ∨ e.allows taken g = true) := by
  constructor
  · intro takes
    have same := longest.pieceShape_eq takes.isBeginning takes.spelled
    cases g with
    | ofShape other =>
      obtain rfl : other = shape := same
      obtain rfl := Shape.Longest.unique ⟨takes.isBeginning, takes.spelled, takes.length_le⟩ longest
      refine ⟨rfl, ?_, takes.allowed⟩
      rw [symbolOf, if_neg]
      rintro ⟨rfl, isKeyword, allowed⟩
      rw [takes.notKeyword rfl isKeyword] at allowed
      cases allowed
    | keyword word =>
      -- Where the keyword is allowed a name is too, so it is the whole word, which is the piece.
      obtain rfl : Shape.lexeme .word = shape := same
      obtain ⟨rfl, isKeyword⟩ := takes.spelled
      have allowed : e.allows taken (.keyword v) = true := by
        simpa [Symbol.isSkipped] using takes.allowed
      obtain rfl :=
        (takes.wholeWord v rfl (e.name_of_keyword taken v allowed)).unique longest
      exact ⟨rfl, (if_pos ⟨rfl, isKeyword, allowed⟩).symm, takes.allowed⟩
  · rintro ⟨rfl, decided, allowed⟩
    rw [symbolOf] at decided
    split at decided
    next word =>
      obtain ⟨rfl, isKeyword, -⟩ := word
      subst decided
      refine ⟨allowed, longest.isBeginning, ⟨rfl, isKeyword⟩, ?_, fun _ _ _ => longest, nofun⟩
      rintro u - ⟨rfl, -⟩
      exact Nat.le_refl _
    next other =>
      subst decided
      refine ⟨allowed, longest.isBeginning, longest.spelled, longest.length_le, nofun, ?_⟩
      intro isName isKeyword
      by_contra allows
      exact other ⟨Symbol.ofShape.inj isName, isKeyword, Bool.not_eq_false _ ▸ allows⟩

/-- **Readers take the pieces of a text, whatever they expect.** What a reader has taken are the
first pieces of the text, each as the reader takes it, and the rest is what comes behind them. -/
theorem reads_iff {t : Text} {taken : List Taken} {rest : Text} :
    e.Reads t taken rest ↔ ∃ ahead, (scan t).pieces = taken.map Taken.piece ++ ahead ∧
      rest = textOf ahead ++ (scan t).rest ∧ e.GrantsAll taken := by
  constructor
  · intro h
    induction h with
    | start => exact ⟨_, rfl, (textOf_pieces_scan t).symm, e.grantsAll_nil⟩
    | @next taken g w r before takes ih =>
      obtain ⟨ahead, split, same, all⟩ := ih
      cases ahead with
      | nil =>
        -- No piece starts with what scanning leaves, so nothing is taken there.
        rw [textOf_nil, List.nil_append] at same
        exact absurd takes.spelled.pieceShape
          (startsNothing_rest_scan t _ w (same ▸ takes.isBeginning))
      | cons p ahead =>
        obtain ⟨longest, place⟩ := longest_of_pieces_scan split
        rw [textOf_cons, List.append_assoc] at same
        obtain ⟨rfl, decided, allowed⟩ := (takes_iff (same ▸ longest)).1 takes
        have shape : g.pieceShape = p.shape := by rw [decided, pieceShape_symbolOf]
        refine ⟨ahead, ?_, List.append_cancel_left same, grantsAll_concat_iff.2 ⟨all, ?_, allowed⟩⟩
        · rw [split, List.map_append, List.append_assoc, ← place]
          simp [Taken.piece, shape]
        · rw [decided, Taken.piece]
          dsimp only
          rw [pieceShape_symbolOf]
  · rintro ⟨ahead, split, rfl, all⟩
    -- From the last that is taken, which comes back to what is ahead of those before it.
    induction taken using List.reverseRecOn generalizing ahead with
    | nil =>
      have whole : textOf ahead ++ (scan t).rest = t := by
        rw [← List.nil_append ahead]
        exact split ▸ textOf_pieces_scan t
      rw [whole]
      exact .start
    | append_singleton taken x ih =>
      obtain ⟨all, last⟩ := grantsAll_concat_iff.1 all
      rw [List.map_append, List.append_assoc] at split
      obtain ⟨longest, place⟩ := longest_of_pieces_scan split
      have takes := (takes_iff (e := e) longest).2 ⟨rfl, last.symbol, last.allowed⟩
      have before := ih (x.piece :: ahead) split all
      rw [textOf_cons, List.append_assoc] at before
      obtain ⟨symbol, text, _⟩ := x
      obtain rfl : _ = Place.origin.after _ := place
      exact .next before takes

/-- What is taken for a keyword is a whole word, and that word is the keyword. -/
theorem Reads.wholeWord {t : Text} {taken : List Taken} {rest : Text} (h : e.Reads t taken rest)
    {x : Taken} (mem : x ∈ taken) {word : Text} (keyword : x.symbol = .keyword word) :
    ∃ before behind, t = before ++ (word ++ behind) ∧ x.place = Place.origin.after before ∧
      (Shape.lexeme .word).Longest word (word ++ behind) := by
  obtain ⟨ahead, split, -, all⟩ := reads_iff.1 h
  obtain ⟨before, after, rfl⟩ := List.append_of_mem mem
  have decided := (all before x after rfl).symbol
  rw [keyword, symbolOf] at decided
  split_ifs at decided with isWord
  obtain rfl : word = x.text := Symbol.keyword.inj decided
  rw [List.map_append, List.append_assoc] at split
  obtain ⟨longest, place⟩ := longest_of_pieces_scan split
  rw [isWord.1] at longest
  refine ⟨_, _, ?_, place, longest⟩
  have whole := textOf_pieces_scan t
  rw [split, textOf_append, List.append_assoc] at whole
  exact whole.symm.trans (congrArg _ (List.append_assoc x.text _ _))

end Expectation

/-! ## What the machine expects -/

namespace Machine

/-- Whether an expression may start next. -/
def awaitsOperand (m : Machine) : Bool :=
  match m.mode with
  | .lineStart | .operand | .argument => true
  | _ => false

/-- Whether a machine may read a symbol next. Keywords are expressions, so after a dot there are
none. -/
def allows (m : Machine) : Symbol → Bool
  | .ofShape (.lexeme terminal) => (m.step ⟨terminal, [], .origin⟩).isSome
  | .ofShape _ => false
  | .keyword word => isKeyword word && m.awaitsOperand

/-- Whether a lexeme can be an operand is a matter of its terminal. -/
theorem isSome_readOperand (m : Machine) (l : Lexeme) :
    (m.readOperand l).isSome = (m.readOperand ⟨l.terminal, [], .origin⟩).isSome := by
  obtain ⟨terminal, text, place⟩ := l
  cases terminal with
  | word =>
    simp only [readOperand]
    split_ifs <;> rfl
  | _ => rfl

/-- Whether a lexeme is refused is a matter of its shape. -/
theorem isSome_step (m : Machine) (l : Lexeme) :
    (m.step l).isSome = m.allows (.ofShape (.lexeme l.terminal)) := by
  obtain ⟨lines, purpose, frames, mode⟩ := m
  rw [allows]
  -- Only where an expression may start does a text count, and then for what is read, not whether.
  cases mode with
  | lineStart =>
    simp only [step]
    split_ifs
    · rfl
    · exact isSome_readOperand _ l
  | operand => exact isSome_readOperand _ l
  | argument =>
    simp only [step]
    split
    · rfl
    · exact isSome_readOperand _ l
  | dot base start =>
    simp only [step]
    split_ifs <;> rfl
  | word w | done value start | member base attr start => rfl

/-- Where an operand is awaited, a name is allowed. -/
theorem allows_name_of_awaitsOperand {m : Machine} (h : m.awaitsOperand = true) :
    m.allows .name = true := by
  obtain ⟨lines, purpose, frames, mode⟩ := m
  cases mode with
  | lineStart | operand | argument => rfl
  | word w | done value start | dot base start | member base attr start => cases h

/-- Where a keyword is allowed, so is a name. -/
theorem allows_name_of_keyword {m : Machine} {word : Text} (h : m.allows (.keyword word) = true) :
    m.allows .name = true :=
  allows_name_of_awaitsOperand (Bool.and_eq_true_iff.1 h).2

/-- A lexeme that is taken for an allowed symbol is read. -/
theorem exists_step_of_allows {m : Machine} {l : Lexeme} {g : Symbol} (h : m.allows g = true)
    (shape : g.pieceShape = .lexeme l.terminal) : ∃ n, m.step l = some n := by
  rw [← Option.isSome_iff_exists, isSome_step]
  cases g with
  | ofShape other =>
    obtain rfl : other = _ := shape
    exact h
  | keyword word =>
    rw [← Shape.lexeme.inj shape]
    exact allows_name_of_keyword h

/-- A word is read as a complete expression exactly if it is a keyword that may come. -/
theorem allows_keyword_iff {m n : Machine} {l : Lexeme} (word : l.terminal = .word)
    (h : m.step l = some n) :
    m.allows (.keyword l.text) = true ↔ n.mode = .done (.literal l) l.place := by
  obtain ⟨lines, purpose, frames, mode⟩ := m
  obtain ⟨terminal, text, place⟩ := l
  obtain rfl : terminal = .word := word
  have operand (o : Machine) (hn : o.readOperand ⟨.word, text, place⟩ = some n) :
      isKeyword text = true ↔ n.mode = .done (.literal ⟨.word, text, place⟩) place := by
    simp only [readOperand] at hn
    split_ifs at hn with keyword
    · obtain rfl := Option.some.inj hn
      exact iff_of_true keyword rfl
    · obtain rfl := Option.some.inj hn
      exact iff_of_false keyword nofun
  cases mode with
  | lineStart | operand | argument => simpa [allows, awaitsOperand] using operand _ h
  | dot base start =>
    obtain rfl := Option.some.inj h
    simp [allows, awaitsOperand]
  | word w | done value start | member base attr start => cases h

end Machine

/-- What the machine expects that reads scripts, or expressions: what it may read after the lexemes
that have been taken, and nothing after lexemes that it refuses. -/
def Start.expectation (start : Start) : Expectation where
  allows taken g :=
    match start.machine.run ((taken.map Taken.piece).filterMap Piece.lexeme?) with
    | .ok m => m.allows g
    | .error _ => false
  name_of_keyword taken word h := by
    revert h
    split
    · exact Machine.allows_name_of_keyword
    · exact nofun

namespace Start

variable {start : Start} {taken : List Taken} {m : Machine}

/-- A reader that has taken pieces expects what the machine allows behind them. -/
theorem allows_expectation (h : start.machine.run
    ((taken.map Taken.piece).filterMap Piece.lexeme?) = .ok m) (g : Symbol) :
    start.expectation.allows taken g = m.allows g := by
  simp only [expectation, h]

/-- A lexeme is granted exactly if the machine reads it. -/
theorem grants_iff {p : Piece} {l : Lexeme}
    (h : start.machine.run ((taken.map Taken.piece).filterMap Piece.lexeme?) = .ok m)
    (isLexeme : p.lexeme? = some l) :
    (∃ x : Taken, x.piece = p ∧ start.expectation.Grants taken x) ↔ ∃ n, m.step l = some n := by
  obtain rfl := lexeme?_eq_some_iff.1 isLexeme
  constructor
  · rintro ⟨⟨symbol, text, place⟩, same, grants⟩
    obtain ⟨shape, rfl, rfl⟩ := Piece.mk.inj same
    refine Machine.exists_step_of_allows (g := symbol) ?_ shape
    rw [← allows_expectation h]
    -- A lexeme is no piece that every expectation skips.
    refine grants.allowed.resolve_left fun skipped => ?_
    cases symbol with
    | ofShape other =>
      obtain rfl : other = _ := shape
      cases skipped
    | keyword word => cases skipped
  · intro reads
    have shape := start.expectation.pieceShape_symbolOf taken (.lexeme l.terminal) l.text
    refine ⟨⟨start.expectation.symbolOf taken (.lexeme l.terminal) l.text, l.text, l.place⟩, ?_,
      ?_, Or.inr ?_⟩
    · rw [Taken.piece, shape]
    · rw [Taken.piece, shape]
    · dsimp only
      rw [Expectation.symbolOf]
      split
      next keyword => exact keyword.2.2
      · rw [allows_expectation h, ← Machine.isSome_step]
        exact Option.isSome_iff_exists.2 reads

/-- What is skipped is granted everywhere. -/
theorem exists_grants_of_skipped {p : Piece} (skipped : p.lexeme? = none) :
    ∃ x : Taken, x.piece = p ∧ start.expectation.Grants taken x := by
  obtain ⟨shape, text, place⟩ := p
  have isSkipped : (Symbol.ofShape shape).isSkipped = true := by
    cases shape with
    | lexeme terminal => cases skipped
    | blank | comment => rfl
  refine ⟨⟨.ofShape shape, text, place⟩, rfl, ?_, Or.inl isSkipped⟩
  rw [Expectation.symbolOf, if_neg]
  · rfl
  · rintro ⟨word, -⟩
    obtain rfl : shape = _ := word
    cases isSkipped

/-- The machine reads the lexemes among some pieces exactly if its own expectation grants these
pieces. -/
theorem exists_run_iff (pieces : List Piece) :
    (∃ m, start.machine.run (pieces.filterMap Piece.lexeme?) = .ok m) ↔
      ∃ taken, taken.map Taken.piece = pieces ∧ start.expectation.GrantsAll taken := by
  -- By induction from the last piece, for what is allowed depends on those before it.
  induction pieces using List.reverseRecOn with
  | nil => exact iff_of_true ⟨_, rfl⟩ ⟨[], rfl, Expectation.grantsAll_nil _⟩
  | append_singleton pieces p ih =>
    rw [Expectation.exists_grantsAll_concat_iff, List.filterMap_append]
    cases isLexeme : p.lexeme? with
    | none =>
      rw [List.filterMap_cons_none isLexeme, List.filterMap_nil, List.append_nil, ih]
      refine exists_congr fun taken => and_congr_right fun _ => ?_
      exact (and_iff_left (exists_grants_of_skipped isLexeme)).symm
    | some l =>
      rw [List.filterMap_cons_some isLexeme, List.filterMap_nil]
      constructor
      · rintro ⟨m, hrun⟩
        obtain ⟨n, before, hstep⟩ := Machine.run_concat_iff.1 hrun
        obtain ⟨taken, rfl, all⟩ := ih.1 ⟨n, before⟩
        exact ⟨taken, rfl, all, (grants_iff before isLexeme).2 ⟨m, hstep⟩⟩
      · rintro ⟨taken, rfl, all, granted⟩
        obtain ⟨n, before⟩ := ih.2 ⟨taken, rfl, all⟩
        obtain ⟨m, hstep⟩ := (grants_iff before isLexeme).1 granted
        exact ⟨m, Machine.run_concat_iff.2 ⟨n, before, hstep⟩⟩

end Start

/-- **Pieces do not depend on what is expected.** The pieces of a text and what is left, with which
no piece starts, are the text. Each piece is the longest of its shape where it stands, which is
counted in what comes before it, and no other symbol fits there but a keyword where a word stands.
Whatever a reader expects, it takes the first pieces of the text, as far as it allows them, and
decides only which of the words that are keywords are taken as such; a keyword is never a part of a
longer word. So does the machine: it reads lexemes as far as a reader gets that looks only for what
the machine may read next, and a word is an expression by itself for it exactly if that is a keyword
that it expects. -/
theorem pieces_independent_of_expectation (t : Text) :
    textOf (scan t).pieces ++ (scan t).rest = t ∧ StartsNothing (scan t).rest ∧
    (∀ before p after, (scan t).pieces = before ++ p :: after →
      p.place = ⟨(textOf before).length, 1 + (textOf before).lineFeeds,
        1 + (textOf before).lastLine.length⟩ ∧
      p.shape.Longest p.text (p.text ++ (textOf after ++ (scan t).rest)) ∧
      ∀ (g : Symbol) w, w <+: p.text ++ (textOf after ++ (scan t).rest) → g.Spells w →
        g = .ofShape p.shape ∨ p.shape = .lexeme .word ∧ g = .keyword w) ∧
    (∀ (e : Expectation) taken rest, e.Reads t taken rest ↔
      ∃ ahead, (scan t).pieces = taken.map Taken.piece ++ ahead ∧
        rest = textOf ahead ++ (scan t).rest ∧ e.GrantsAll taken) ∧
    (∀ (e : Expectation) taken rest, e.Reads t taken rest → ∀ x ∈ taken, ∀ word,
      x.symbol = .keyword word → ∃ before behind, t = before ++ (word ++ behind) ∧
        x.place = Place.origin.after before ∧
        (Shape.lexeme .word).Longest word (word ++ behind)) ∧
    (∀ (start : Start) done ahead, (scan t).pieces = done ++ ahead →
      ((∃ m, start.machine.run (done.filterMap Piece.lexeme?) = .ok m) ↔
        ∃ taken, taken.map Taken.piece = done ∧
          start.expectation.Reads t taken (textOf ahead ++ (scan t).rest))) ∧
    ∀ (m n : Machine) (l : Lexeme), l.terminal = .word → m.step l = some n →
      (m.allows (.keyword l.text) = true ↔ n.mode = .done (.literal l) l.place) := by
  refine ⟨textOf_pieces_scan t, startsNothing_rest_scan t, ?_,
    fun e taken rest => Expectation.reads_iff, fun e taken rest reads x mem word => reads.wholeWord mem,
    ?_, fun m n l => Machine.allows_keyword_iff⟩
  · intro before p after split
    obtain ⟨longest, place⟩ := longest_of_pieces_scan split
    refine ⟨by rw [place, Place.after_origin], longest, ?_⟩
    intro g w isBeginning spelled
    have shape := longest.pieceShape_eq isBeginning spelled
    cases g with
    | ofShape other => exact Or.inl (congrArg Symbol.ofShape shape)
    | keyword word => exact Or.inr ⟨shape.symm, by rw [spelled.1]⟩
  · intro start done ahead split
    -- The machine is one of the expectations, so what is said of all of them is said of it.
    rw [Start.exists_run_iff]
    refine exists_congr fun taken => and_congr_right fun same => ?_
    rw [Expectation.reads_iff]
    constructor
    · intro all
      exact ⟨ahead, by rw [same, split], rfl, all⟩
    · rintro ⟨-, -, -, all⟩
      exact all

/-- In `None_(True).True` the first word is a name, for it is longer than a keyword; the second is a
keyword, and the third is a name, for after a dot no keyword is expected. -/
theorem keyword_only_where_expected :
    ∃ taken, Start.expr.expectation.Reads "None_(True).True" taken [] ∧
      taken.map (·.symbol) = [.name, .ofShape (.lexeme .opening), .keyword "True",
        .ofShape (.lexeme .closing), .ofShape (.lexeme .dot), .name] := by
  let taken : List Taken := [] ++ [⟨.name, "None_", ⟨0, 1, 1⟩⟩] ++
    [⟨.ofShape (.lexeme .opening), "(", ⟨5, 1, 6⟩⟩] ++ [⟨.keyword "True", "True", ⟨6, 1, 7⟩⟩] ++
    [⟨.ofShape (.lexeme .closing), ")", ⟨10, 1, 11⟩⟩] ++
    [⟨.ofShape (.lexeme .dot), ".", ⟨11, 1, 12⟩⟩] ++ [⟨.name, "True", ⟨12, 1, 13⟩⟩]
  have granted : Start.expr.expectation.GrantsAll taken := by
    simp only [taken, Expectation.grantsAll_concat_iff, Expectation.grantsAll_nil, true_and]
    decide +kernel
  refine ⟨taken, ?_, rfl⟩
  exact ((pieces_independent_of_expectation "None_(True).True").2.2.2.1 _ taken []).2
    ⟨[], by decide +kernel, by decide +kernel, granted⟩

end Packaging.Script
