import Mathlib.Data.List.TakeWhile
import Packaging.Script.Lexeme

/-! # What scanning cuts
The texts that each shape allows are defined apart from the scanner. What the scanner cuts off a
text is the longest beginning of the one shape that any beginning has, so a text that can be cut
completely is cut in one way only, and scanning finds it. -/

namespace Packaging.Script

/-! ## The texts of each shape -/

/-- The texts that may stand between two quotes: a backslash takes the code point after it along,
everything else stands for itself, and no line feed may occur. -/
inductive QuotedBody (quote : CodePoint) : Text → Prop
  /-- Nothing between the quotes. -/
  | nil : QuotedBody quote []
  /-- A code point that stands for itself. -/
  | plain {c : CodePoint} {t : Text} (notQuote : c ≠ quote) (notBackslash : c ≠ '\\')
      (notFeed : c ≠ '\n') (rest : QuotedBody quote t) : QuotedBody quote (c :: t)
  /-- A backslash and what it takes along. -/
  | escape {c : CodePoint} {t : Text} (notFeed : c ≠ '\n') (rest : QuotedBody quote t) :
      QuotedBody quote ('\\' :: c :: t)

/-- The texts of each shape. -/
inductive Shape.Spells : Shape → Text → Prop
  /-- A string between two quotes of the same kind. -/
  | string {quote : CodePoint} {body : Text} (isQuote : quote = '"' ∨ quote = '\'')
      (between : QuotedBody quote body) : Spells (.lexeme .string) (quote :: (body ++ [quote]))
  /-- Some digits. -/
  | numeral {digits : Text} (nonempty : digits ≠ []) (areDigits : ∀ d ∈ digits, d.isDigit = true) :
      Spells (.lexeme .integer) digits
  /-- A minus sign and some digits. -/
  | negative {digits : Text} (nonempty : digits ≠ []) (areDigits : ∀ d ∈ digits, d.isDigit = true) :
      Spells (.lexeme .integer) ('-' :: digits)
  /-- A letter or an underscore, then letters, underscores and digits. -/
  | word {c : CodePoint} {t : Text} (start : c.isWordStart = true)
      (parts : ∀ d ∈ t, d.isWordPart = true) : Spells (.lexeme .word) (c :: t)
  /-- The end of a line. -/
  | lineFeed : Spells (.lexeme .newline) ['\n']
  /-- The end of a line, with a carriage return. -/
  | returnAndFeed : Spells (.lexeme .newline) ['\r', '\n']
  /-- The sign `=`. -/
  | equals : Spells (.lexeme .equals) ['=']
  /-- The sign `.`. -/
  | dot : Spells (.lexeme .dot) ['.']
  /-- The sign `,`. -/
  | comma : Spells (.lexeme .comma) [',']
  /-- The sign `(`. -/
  | opening : Spells (.lexeme .opening) ['(']
  /-- The sign `)`. -/
  | closing : Spells (.lexeme .closing) [')']
  /-- Some spaces and tabs. -/
  | blank {t : Text} (nonempty : t ≠ []) (spaces : ∀ c ∈ t, isSpace c = true) : Spells .blank t
  /-- A hash sign and the rest of its line. -/
  | comment {t : Text} (oneLine : ∀ c ∈ t, c ≠ '\n') : Spells .comment ('#' :: t)

/-- A beginning of a text is the longest one of a shape. -/
structure Shape.Longest (shape : Shape) (w t : Text) : Prop where
  /-- It is a beginning of the text. -/
  isBeginning : w <+: t
  /-- It has the shape. -/
  spelled : shape.Spells w
  /-- No beginning of the text that has the shape is longer. -/
  length_le : ∀ v, v <+: t → shape.Spells v → v.length ≤ w.length

/-- No shape is spelled by the empty text. -/
theorem Shape.Spells.ne_nil {shape : Shape} {t : Text} (h : shape.Spells t) : t ≠ [] := by
  cases h with
  | numeral nonempty _ => exact nonempty
  | blank nonempty _ => exact nonempty
  | _ => exact List.cons_ne_nil _ _

/-- Two longest beginnings of one shape are the same. -/
theorem Shape.Longest.unique {shape : Shape} {v w t : Text} (hv : shape.Longest v t)
    (hw : shape.Longest w t) : v = w := by
  have hlen : v.length = w.length :=
    Nat.le_antisymm (hw.length_le v hv.isBeginning hv.spelled)
      (hv.length_le w hw.isBeginning hw.spelled)
  rw [List.prefix_iff_eq_take.1 hv.isBeginning, List.prefix_iff_eq_take.1 hw.isBeginning, hlen]

/-! ## Strings -/

/-- How far a string goes, one code point further on. -/
theorem stringLength?_cons (quote : CodePoint) (taken : Nat) (c : CodePoint) (r : Text) :
    stringLength? quote taken (c :: r) =
      if c = quote then some (taken + 1)
      else if c = '\n' then none
      else if c = '\\' then
        match r with
        | [] => none
        | d :: r => if d = '\n' then none else stringLength? quote (taken + 2) r
      else stringLength? quote (taken + 1) r := by
  rw [stringLength?.eq_def]
  rfl

/-- What is counted up to the closing quote may stand between two quotes. -/
theorem exists_body_of_stringLength? {quote : CodePoint} {taken n : Nat} {r : Text}
    (h : stringLength? quote taken r = some n) :
    ∃ body rest, QuotedBody quote body ∧ r = body ++ quote :: rest ∧
      n = taken + body.length + 1 := by
  -- Of the seven ways to count, only the closing quote and the two that go on find anything.
  fun_induction stringLength? quote taken r generalizing n with
  | case1 => cases h
  | case2 taken r =>
    -- the closing quote
    refine ⟨[], r, .nil, rfl, ?_⟩
    rw [List.length_nil]
    exact (Option.some.inj h).symm
  | case3 => cases h
  | case4 => cases h
  | case5 => cases h
  | case6 taken d r hd _ _ ih =>
    -- a backslash and what it takes along
    obtain ⟨body, rest, hbody, rfl, rfl⟩ := ih h
    refine ⟨_ :: d :: body, rest, .escape hd hbody, rfl, ?_⟩
    rw [List.length_cons, List.length_cons]
    omega
  | case7 taken c r hq hn hb ih =>
    -- a code point that stands for itself
    obtain ⟨body, rest, hbody, rfl, rfl⟩ := ih h
    refine ⟨c :: body, rest, .plain hq hb hn hbody, rfl, ?_⟩
    rw [List.length_cons]
    omega

/-- What may stand between two quotes is counted up to the closing quote. -/
theorem stringLength?_of_body {quote : CodePoint} (isQuote : quote = '"' ∨ quote = '\'')
    {body : Text} (h : QuotedBody quote body) (taken : Nat) (rest : Text) :
    stringLength? quote taken (body ++ quote :: rest) = some (taken + body.length + 1) := by
  have notBackslash : quote ≠ '\\' := by rcases isQuote with rfl | rfl <;> decide
  -- The count so far is general, for each step goes on from a larger one.
  induction h generalizing taken with
  | nil => rw [List.nil_append, stringLength?_cons, if_pos rfl]; rfl
  | plain hq hb hn _ ih =>
    rw [List.cons_append, stringLength?_cons, if_neg hq, if_neg hn, if_neg hb, ih,
      List.length_cons]
    congr 1
    omega
  | @escape c t hn _ ih =>
    rw [List.cons_append, List.cons_append, stringLength?_cons, if_neg notBackslash.symm,
      if_neg (by decide), if_pos rfl]
    dsimp only
    rw [if_neg hn, ih, List.length_cons, List.length_cons]
    congr 1
    omega

/-! ## Runs of code points -/

/-- A beginning of one sort is no longer than the longest one of that sort. -/
theorem length_le_takeWhile {p : CodePoint → Bool} {t r : Text} (h : t <+: r)
    (all : ∀ c ∈ t, p c = true) : t.length ≤ (r.takeWhile p).length := by
  obtain ⟨rest, rfl⟩ := h
  rw [List.takeWhile_append_of_pos all, List.length_append]
  exact Nat.le_add_right _ _

/-- The longest beginning of one sort is the beginning of its length. -/
theorem take_length_takeWhile (p : CodePoint → Bool) (r : Text) :
    r.take (r.takeWhile p).length = r.takeWhile p :=
  (List.prefix_iff_eq_take.1 (List.takeWhile_prefix p)).symm

/-- What a run starts with is a run. -/
theorem take_of_le_length_takeWhile {p : CodePoint → Bool} {r : Text} {n : Nat}
    (enough : n ≤ (r.takeWhile p).length) :
    (r.take n).length = n ∧ ∀ c ∈ r.take n, p c = true := by
  have within : r.take n = (r.takeWhile p).take n := by
    rw [← take_length_takeWhile p r, List.take_take, Nat.min_eq_left enough]
  rw [within]
  exact ⟨List.length_take_of_le enough, fun c hc =>
    List.mem_takeWhile_imp (List.mem_of_mem_take hc)⟩

/-- A run of code points after a first one that decides the shape is the longest. -/
theorem Shape.longest_run {shape : Shape} {p : CodePoint → Bool} {c : CodePoint} {r : Text}
    (spelled : shape.Spells (c :: r.takeWhile p))
    (parts : ∀ t, shape.Spells (c :: t) → ∀ d ∈ t, p d = true)
    (notEmpty : ¬ shape.Spells []) :
    shape.Longest (c :: r.take (r.takeWhile p).length) (c :: r) := by
  rw [take_length_takeWhile]
  refine ⟨List.cons_prefix_cons.2 ⟨rfl, List.takeWhile_prefix p⟩, spelled, ?_⟩
  intro v hv hs
  cases v with
  | nil => exact absurd hs notEmpty
  | cons d t =>
    obtain ⟨rfl, ht⟩ := List.cons_prefix_cons.1 hv
    exact Nat.succ_le_succ (length_le_takeWhile ht (parts t hs))

/-! ## The first code point decides the shape -/

/-- Nothing that starts a word is skipped. -/
theorem isSpace_eq_false_of_isWordStart {c : CodePoint} (h : c.isWordStart = true) :
    isSpace c = false := by
  simp only [CodePoint.isWordStart, CodePoint.isBetween, Bool.or_eq_true, Bool.and_eq_true,
    decide_eq_true_eq, beq_iff_eq] at h
  simp only [isSpace, Bool.or_eq_false_iff, beq_eq_false_iff_ne]
  omega

/-- No digit is skipped. -/
theorem isSpace_eq_false_of_isDigit {c : CodePoint} (h : c.isDigit = true) :
    isSpace c = false := by
  simp only [CodePoint.isDigit, CodePoint.isBetween, Bool.and_eq_true, decide_eq_true_eq] at h
  simp only [isSpace, Bool.or_eq_false_iff, beq_eq_false_iff_ne]
  omega

/-- No digit starts a word. -/
theorem isWordStart_eq_false_of_isDigit {c : CodePoint} (h : c.isDigit = true) :
    c.isWordStart = false := by
  simp only [CodePoint.isDigit, CodePoint.isBetween, Bool.and_eq_true, decide_eq_true_eq] at h
  simp only [CodePoint.isWordStart, CodePoint.isBetween, Bool.or_eq_false_iff,
    Bool.and_eq_false_iff, decide_eq_false_iff_not, beq_eq_false_iff_ne]
  omega

/-- Code points that a test tells apart are different. -/
theorem ne_of_isTrue {p : CodePoint → Bool} {c d : CodePoint} (hc : p c = true)
    (hd : p d = false) : c ≠ d := by
  rintro rfl
  rw [hc] at hd
  cases hd

/-! ## One piece of each shape -/

/-- Blanks are cut off to the last one in the row. -/
theorem longest_blank {c : CodePoint} {r : Text} (h : isSpace c = true) :
    Shape.Longest .blank (c :: r.take (r.takeWhile isSpace).length) (c :: r) := by
  refine Shape.longest_run (.blank (List.cons_ne_nil _ _) ?_) ?_ ?_
  · intro d hd
    rcases List.mem_cons.1 hd with rfl | hd
    · exact h
    · exact List.mem_takeWhile_imp hd
  · rintro t (_ | _ | _ | _ | _ | _ | _ | _ | _ | _ | _ | ⟨_, spaces⟩) d hd
    exact spaces d (List.mem_cons_of_mem _ hd)
  · rintro (_ | _ | _ | _ | _ | _ | _ | _ | _ | _ | _ | ⟨nonempty, _⟩)
    exact nonempty rfl

/-- A comment is cut off to the end of its line. -/
theorem longest_comment (r : Text) :
    Shape.Longest .comment
      ('#' :: r.take (r.takeWhile (· ≠ CodePoint.ofChar '\n')).length) ('#' :: r) := by
  refine Shape.longest_run (.comment ?_) ?_ ?_
  · intro d hd
    simpa using List.mem_takeWhile_imp hd
  · intro t ht d hd
    cases ht with
    | comment oneLine => simpa using oneLine d hd
  · intro h
    cases h

/-- A word is cut off to its last letter, digit or underscore. -/
theorem longest_word {c : CodePoint} {r : Text} (h : c.isWordStart = true) :
    Shape.Longest (.lexeme .word) (c :: r.take (r.takeWhile (·.isWordPart)).length) (c :: r) := by
  refine Shape.longest_run (.word h fun d hd => List.mem_takeWhile_imp hd) ?_ ?_
  · intro t ht d hd
    cases ht with
    | word _ parts => exact parts d hd
  · intro h
    cases h

/-- All but the first code point of a numeral are digits. -/
theorem digits_of_spells_integer {c : CodePoint} {t : Text}
    (h : Shape.Spells (.lexeme .integer) (c :: t)) : ∀ d ∈ t, d.isDigit = true := by
  intro d hd
  cases h with
  | numeral _ areDigits => exact areDigits d (List.mem_cons_of_mem _ hd)
  | negative _ areDigits => exact areDigits d hd

/-- A numeral is cut off to its last digit. -/
theorem longest_integer {c : CodePoint} {r : Text}
    (h : Shape.Spells (.lexeme .integer) (c :: r.takeWhile (·.isDigit))) :
    Shape.Longest (.lexeme .integer) (c :: r.take (r.takeWhile (·.isDigit)).length) (c :: r) := by
  refine Shape.longest_run h (fun t ht => digits_of_spells_integer ht) ?_
  intro h
  cases h with
  | numeral nonempty _ => exact nonempty rfl

/-- A string is cut off with its closing quote. -/
theorem longest_string {quote : CodePoint} {r : Text} {n : Nat}
    (isQuote : quote = '"' ∨ quote = '\'') (h : stringLength? quote 0 r = some n) :
    n ≤ r.length ∧ Shape.Longest (.lexeme .string) (quote :: r.take n) (quote :: r) := by
  obtain ⟨body, rest, hbody, hr, hn⟩ := exists_body_of_stringLength? h
  rw [Nat.zero_add] at hn
  have hsplit : r = (body ++ [quote]) ++ rest := by rw [hr]; simp
  have hlen : (body ++ [quote]).length = n := by rw [hn]; simp
  have htake : r.take n = body ++ [quote] := by rw [hsplit, ← hlen, List.take_left]
  refine ⟨?_, ?_, ?_, ?_⟩
  · rw [hsplit, List.length_append, hlen]
    exact Nat.le_add_right _ _
  · rw [List.cons_prefix_cons]
    exact ⟨rfl, List.take_prefix _ _⟩
  · rw [htake]
    exact .string isQuote hbody
  · -- Another string with the same beginning ends at the same count, so it is no longer.
    intro v hv hs
    cases hs with
    | @string q b hq hb =>
      obtain ⟨rfl, rest', hr'⟩ := List.cons_prefix_cons.1 hv
      rw [List.append_assoc, List.singleton_append] at hr'
      have hcount : stringLength? q 0 r = some (0 + b.length + 1) := by
        rw [← hr']
        exact stringLength?_of_body isQuote hb 0 rest'
      rw [h, Option.some.injEq] at hcount
      rw [htake]
      simp only [List.length_cons, List.length_append, List.length_nil]
      omega

/-- A line feed is cut off by itself. -/
theorem longest_newline (r : Text) :
    Shape.Longest (.lexeme .newline) ['\n'] ('\n' :: r) := by
  refine ⟨List.cons_prefix_cons.2 ⟨rfl, List.nil_prefix⟩, .lineFeed, ?_⟩
  intro v hv hs
  cases hs with
  | lineFeed => exact Nat.le_refl _
  | returnAndFeed => exact absurd (List.cons_prefix_cons.1 hv).1 (by decide)

/-- A carriage return is cut off with its line feed. -/
theorem longest_returnAndFeed (r : Text) :
    Shape.Longest (.lexeme .newline) ['\r', '\n'] ('\r' :: '\n' :: r) := by
  refine ⟨?_, .returnAndFeed, ?_⟩
  · rw [List.cons_prefix_cons, List.cons_prefix_cons]
    exact ⟨rfl, rfl, List.nil_prefix⟩
  · intro v hv hs
    cases hs with
    | lineFeed => exact absurd (List.cons_prefix_cons.1 hv).1 (by decide)
    | returnAndFeed => exact Nat.le_refl _

/-- A sign is cut off by itself. -/
theorem longest_sign {c : CodePoint} {terminal : Terminal} (r : Text)
    (h : signs.lookup c = some terminal) :
    Shape.Longest (.lexeme terminal) [c] (c :: r) := by
  obtain ⟨before, after, hsigns, _⟩ := List.lookup_eq_some_iff.1 h
  have hmem : (c, terminal) ∈ signs := by
    rw [hsigns]
    exact List.mem_append_right _ List.mem_cons_self
  simp only [signs, List.mem_cons, Prod.mk.injEq, List.not_mem_nil, or_false] at hmem
  have one (spelled : Shape.Spells (.lexeme terminal) [c])
      (short : ∀ v, Shape.Spells (.lexeme terminal) v → v.length ≤ 1) :
      Shape.Longest (.lexeme terminal) [c] (c :: r) :=
    ⟨List.cons_prefix_cons.2 ⟨rfl, List.nil_prefix⟩, spelled, fun v _ hs => short v hs⟩
  rcases hmem with ⟨rfl, rfl⟩ | ⟨rfl, rfl⟩ | ⟨rfl, rfl⟩ | ⟨rfl, rfl⟩ | ⟨rfl, rfl⟩ | ⟨rfl, rfl⟩
  · exact one .equals (by rintro v ⟨⟩; exact Nat.le_refl _)
  · exact one .dot (by rintro v ⟨⟩; exact Nat.le_refl _)
  · exact one .comma (by rintro v ⟨⟩; exact Nat.le_refl _)
  · exact one .opening (by rintro v ⟨⟩; exact Nat.le_refl _)
  · exact one .closing (by rintro v ⟨⟩; exact Nat.le_refl _)
  · exact longest_newline r

/-! ## What is cut off a text -/

/-- A piece is cut as the longest one of its shape. -/
theorem longest_of_cut?_eq_some {c : CodePoint} {r : Text} {shape : Shape} {n : Nat}
    (h : cut? c r = some (shape, n)) :
    n ≤ r.length ∧ shape.Longest (c :: r.take n) (c :: r) := by
  have run (p : CodePoint → Bool) : (r.takeWhile p).length ≤ r.length :=
    (List.takeWhile_prefix p).length_le
  rw [cut?] at h
  dsimp only at h
  -- One case for each shape, in the order in which the scanner tries them.
  split_ifs at h with space hash start digit minus noDigits quoted returned feed
  · obtain ⟨rfl, rfl⟩ := Prod.mk.inj (Option.some.inj h)
    exact ⟨run _, longest_blank space⟩
  · obtain ⟨rfl, rfl⟩ := Prod.mk.inj (Option.some.inj h)
    subst hash
    exact ⟨run _, longest_comment r⟩
  · obtain ⟨rfl, rfl⟩ := Prod.mk.inj (Option.some.inj h)
    exact ⟨run _, longest_word start⟩
  · obtain ⟨rfl, rfl⟩ := Prod.mk.inj (Option.some.inj h)
    refine ⟨run _, longest_integer (.numeral (List.cons_ne_nil _ _) ?_)⟩
    intro d hd
    rcases List.mem_cons.1 hd with rfl | hd
    · exact digit
    · exact List.mem_takeWhile_imp hd
  · obtain ⟨rfl, rfl⟩ := Prod.mk.inj (Option.some.inj h)
    subst minus
    refine ⟨run _, longest_integer (.negative ?_ fun d hd => List.mem_takeWhile_imp hd)⟩
    simpa using noDigits
  · obtain ⟨m, hm, hpair⟩ := Option.map_eq_some_iff.1 h
    obtain ⟨rfl, rfl⟩ := Prod.mk.inj hpair
    exact longest_string quoted hm
  · obtain ⟨rfl, rfl⟩ := Prod.mk.inj (Option.some.inj h)
    subst returned
    obtain ⟨rest, rfl⟩ := List.head?_eq_some_iff.1 feed
    exact ⟨Nat.succ_le_succ (Nat.zero_le _), longest_returnAndFeed rest⟩
  · obtain ⟨terminal, hsign, hpair⟩ := Option.map_eq_some_iff.1 h
    obtain ⟨rfl, rfl⟩ := Prod.mk.inj hpair
    exact ⟨Nat.zero_le _, longest_sign r hsign⟩

/-- Every beginning of some shape makes a piece of that shape be cut. -/
theorem exists_cut?_eq_some {shape : Shape} {c : CodePoint} {r w : Text}
    (beginning : w <+: c :: r) (spelled : shape.Spells w) :
    ∃ n, cut? c r = some (shape, n) := by
  cases spelled with
  | @string quote body isQuote between =>
    obtain ⟨rfl, rest, hr⟩ := List.cons_prefix_cons.1 beginning
    rw [List.append_assoc, List.singleton_append] at hr
    have hcount : stringLength? quote 0 r = some (0 + body.length + 1) := by
      rw [← hr]
      exact stringLength?_of_body isQuote between 0 rest
    rcases isQuote with rfl | rfl
    · exact ⟨_, by rw [cut?, hcount]; rfl⟩
    · exact ⟨_, by rw [cut?, hcount]; rfl⟩
  | @numeral digits nonempty areDigits =>
    obtain ⟨d, t, rfl⟩ := List.exists_cons_of_ne_nil nonempty
    obtain ⟨rfl, -⟩ := List.cons_prefix_cons.1 beginning
    have digit := areDigits d List.mem_cons_self
    -- A digit is none of what the scanner tries before it tries digits.
    rw [cut?, if_neg (by simp [isSpace_eq_false_of_isDigit digit]),
      if_neg (ne_of_isTrue digit rfl),
      if_neg (by simp [isWordStart_eq_false_of_isDigit digit]), if_pos digit]
    exact ⟨_, rfl⟩
  | @negative digits nonempty areDigits =>
    obtain ⟨rfl, ht⟩ := List.cons_prefix_cons.1 beginning
    have long := length_le_takeWhile ht areDigits
    have some_digits : ¬ (r.takeWhile (·.isDigit)).isEmpty = true := by
      intro none
      rw [List.isEmpty_iff.1 none] at long
      exact nonempty (List.length_eq_zero_iff.1 (Nat.le_zero.1 long))
    refine ⟨(r.takeWhile (·.isDigit)).length, ?_⟩
    show (if (r.takeWhile (·.isDigit)).isEmpty = true then none else some _) = some _
    rw [if_neg some_digits]
  | word start _ =>
    obtain ⟨rfl, -⟩ := List.cons_prefix_cons.1 beginning
    rw [cut?, if_neg (by simp [isSpace_eq_false_of_isWordStart start]),
      if_neg (ne_of_isTrue start rfl), if_pos start]
    exact ⟨_, rfl⟩
  | blank nonempty spaces =>
    obtain ⟨d, t, rfl⟩ := List.exists_cons_of_ne_nil nonempty
    obtain ⟨rfl, -⟩ := List.cons_prefix_cons.1 beginning
    rw [cut?, if_pos (spaces d List.mem_cons_self)]
    exact ⟨_, rfl⟩
  | returnAndFeed =>
    obtain ⟨rfl, rest, rfl⟩ := List.cons_prefix_cons.1 beginning
    exact ⟨1, rfl⟩
  | comment _ =>
    obtain ⟨rfl, -⟩ := List.cons_prefix_cons.1 beginning
    exact ⟨_, rfl⟩
  | lineFeed | equals | dot | comma | opening | closing =>
    obtain ⟨rfl, -⟩ := List.cons_prefix_cons.1 beginning
    exact ⟨0, rfl⟩

/-- What is cut is exactly the longest beginning of its shape; no other shape fits. -/
theorem cut?_eq_some_iff {c : CodePoint} {r : Text} {shape : Shape} {n : Nat} :
    cut? c r = some (shape, n) ↔ n ≤ r.length ∧ shape.Longest (c :: r.take n) (c :: r) := by
  refine ⟨longest_of_cut?_eq_some, ?_⟩
  rintro ⟨hn, hlong⟩
  -- Something of this shape is cut, and it is as long, for both are the longest.
  obtain ⟨m, hm⟩ := exists_cut?_eq_some hlong.isBeginning hlong.spelled
  obtain ⟨hmr, hlong'⟩ := longest_of_cut?_eq_some hm
  have hlen := congrArg List.length (hlong'.unique hlong)
  rw [List.length_cons, List.length_cons, List.length_take_of_le hmr,
    List.length_take_of_le hn] at hlen
  rw [hm, Nat.succ.inj hlen]

/-! ## Texts that can be cut completely -/

/-- A text cut into pieces from a place on: each piece is the longest one of its shape where it
starts. -/
inductive Cuts : Place → Text → List Piece → Prop
  /-- Nothing is left. -/
  | nil {place : Place} : Cuts place [] []
  /-- A piece, and the rest from the place after it. -/
  | cons {place : Place} {shape : Shape} {w r : Text} {pieces : List Piece}
      (longest : shape.Longest w (w ++ r)) (rest : Cuts (place.after w) r pieces) :
      Cuts place (w ++ r) (⟨shape, w, place⟩ :: pieces)

/-- A text is scanned by cutting a piece off and scanning the rest from the place behind it. -/
theorem scanFrom_cons_of_some {c : CodePoint} {r : Text} {shape : Shape} {n : Nat}
    (place : Place) (h : cut? c r = some (shape, n)) :
    scanFrom place (c :: r) =
      { scanFrom (place.after (c :: r.take n)) (r.drop n) with
        pieces := ⟨shape, c :: r.take n, place⟩ ::
          (scanFrom (place.after (c :: r.take n)) (r.drop n)).pieces } := by
  rw [scanFrom, h]

/-- A text that is scanned to its end is cut into the pieces of the scan. -/
theorem cuts_scanFrom {place : Place} {t : Text} (h : (scanFrom place t).rest = []) :
    Cuts place t (scanFrom place t).pieces := by
  fun_induction scanFrom place t with
  | case1 => exact .nil
  | case2 => cases h
  | case3 place c r shape n hcut text scan ih =>
    obtain ⟨_, longest⟩ := longest_of_cut?_eq_some hcut
    have hsplit : c :: r = text ++ r.drop n := by
      rw [List.cons_append, List.take_append_drop]
    have hcuts : Cuts place (text ++ r.drop n) (⟨shape, text, place⟩ :: scan.pieces) :=
      .cons (hsplit ▸ longest) (ih h)
    rwa [← hsplit] at hcuts

/-- What is cut first, and what is found behind it. -/
theorem scanFrom_append {shape : Shape} {w r : Text} (longest : shape.Longest w (w ++ r))
    (place : Place) :
    scanFrom place (w ++ r) = { scanFrom (place.after w) r with
      pieces := ⟨shape, w, place⟩ :: (scanFrom (place.after w) r).pieces } := by
  obtain ⟨c, w, rfl⟩ := List.exists_cons_of_ne_nil longest.spelled.ne_nil
  have hcut : cut? c (w ++ r) = some (shape, w.length) := by
    rw [cut?_eq_some_iff, List.take_left, List.length_append]
    exact ⟨Nat.le_add_right _ _, longest⟩
  rw [List.cons_append, scanFrom_cons_of_some place hcut, List.take_left, List.drop_left]

/-- A text that can be cut is scanned to its end, into just these pieces. -/
theorem scanFrom_of_cuts {place : Place} {t : Text} {pieces : List Piece}
    (h : Cuts place t pieces) :
    (scanFrom place t).rest = [] ∧ (scanFrom place t).pieces = pieces := by
  induction h with
  | nil => rw [scanFrom_nil]; exact ⟨rfl, rfl⟩
  | @cons place shape w r pieces longest rest ih =>
    rw [scanFrom_append longest]
    exact ⟨ih.1, by rw [ih.2]⟩

/-- A text is cut completely in exactly one way, which is the one that scanning finds. -/
theorem cuts_iff {place : Place} {t : Text} {pieces : List Piece} :
    Cuts place t pieces ↔ (scanFrom place t).rest = [] ∧ (scanFrom place t).pieces = pieces := by
  constructor
  · exact scanFrom_of_cuts
  · rintro ⟨hrest, rfl⟩
    exact cuts_scanFrom hrest

/-- The lexemes of a text that can be cut completely. -/
def Lexes (t : Text) (lexemes : List Lexeme) : Prop :=
  ∃ pieces, Cuts .origin t pieces ∧ lexemes = pieces.filterMap Piece.lexeme?

/-- A text has the lexemes that scanning finds, if scanning leaves nothing, and no others. -/
theorem lexes_iff {t : Text} {lexemes : List Lexeme} :
    Lexes t lexemes ↔ (scan t).rest = [] ∧ (scan t).lexemes = lexemes := by
  constructor
  · rintro ⟨pieces, hcuts, rfl⟩
    obtain ⟨hrest, hpieces⟩ := cuts_iff.1 hcuts
    exact ⟨hrest, by rw [Scan.lexemes, scan, hpieces]⟩
  · rintro ⟨hrest, hlex⟩
    exact ⟨(scan t).pieces, cuts_scanFrom hrest, hlex.symm⟩

/-- A text has one list of lexemes at most. -/
theorem Lexes.unique {t : Text} {ls ls' : List Lexeme} (h : Lexes t ls) (h' : Lexes t ls') :
    ls = ls' :=
  (lexes_iff.1 h).2.symm.trans (lexes_iff.1 h').2

end Packaging.Script
