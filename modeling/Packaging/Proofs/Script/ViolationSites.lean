import Packaging.Proofs.Script.Nodes

/-! # What breaks a rule, and where
All that breaks a rule in a derived script can be told from its lexemes and from the arguments of
its calls, and each violation has a site in the text. Building a tree goes through the violations in
one order, and what it is refused for is the first of them. -/

namespace Packaging.Script

open Script.Derivation

/-! ## Sites -/

/-- Where a rule is broken: at a lexeme, or ahead of it, before all that is wrong with the lexeme
itself. -/
structure Site where
  /-- The place of the lexeme. -/
  place : Place
  /-- Whether the site is ahead of the lexeme. -/
  ahead : Bool
  deriving DecidableEq

/-- Whether a site comes before another one in the text. -/
def Site.Before (s t : Site) : Prop :=
  s.place.offset < t.place.offset ∨ s.place = t.place ∧ s.ahead = true ∧ t.ahead = false

/-- No two sites stand before each other. -/
theorem Site.Before.asymm {s t : Site} (h : s.Before t) : ¬ t.Before s := by
  rintro (back | ⟨place, ahead, _⟩)
  · rcases h with forth | ⟨place, _⟩
    · omega
    · rw [place] at back
      exact Nat.lt_irrefl _ back
  · rcases h with forth | ⟨_, _, behind⟩
    · rw [place] at forth
      exact Nat.lt_irrefl _ forth
    · exact Bool.false_ne_true (behind.symm.trans ahead)

/-! ## What breaks a rule -/

namespace Derivation

/-- The arguments of a call, in order. -/
def Arguments.list : Arguments → List Arg
  | .last argument => [argument]
  | .lastWithComma argument _ => [argument]
  | .more argument _ rest => argument :: rest.list

/-- The name of an argument, if it has one. -/
def Arg.names : Arg → List Text
  | .positional _ => []
  | .keyword name _ _ => [name.1.text]

/-- The parts of a script that build nodes. -/
def Program.nodes (program : Program) : List Postfix :=
  program.flatMap fun (stmt, _) => stmt.elim [] Stmt.nodes

end Derivation

/-- The violations among some lexemes and in the calls among some parts, each with its site. -/
inductive Breaks [CharacterNames] (ls : List Lexeme) (parts : List Postfix) :
    Site → Violation → Prop
  /-- A string that stands for no text, at its lexeme; the string is what is reported. -/
  | badString {l : Lexeme} {fault : Literal.Fault} (mem : l ∈ ls) (shape : l.terminal = .string)
      (broken : Literal.decode l.text = .error fault) :
      Breaks ls parts ⟨l.place, false⟩ (.badString l.text fault l.place.spot)
  /-- A numeral with too many digits, at its lexeme. -/
  | tooLong {l : Lexeme} {fault : Integer.TooLong} (mem : l ∈ ls) (shape : l.terminal = .integer)
      (broken : integerValue l.text = .error fault) :
      Breaks ls parts ⟨l.place, false⟩ (.tooLong fault)
  /-- A name that an argument before has, at the name; the call is what is reported. -/
  | duplicateKeyword {func : Name} {opening : Token .opening} {arguments : Arguments}
      {closing : Token .closing} (mem : .callWith func opening arguments closing ∈ parts)
      {before after : List Arg} {name : Name} {equals : Token .equals} {value : Postfix}
      (among : arguments.list = before ++ .keyword name equals value :: after)
      (again : name.1.text ∈ before.flatMap Arg.names) :
      Breaks ls parts ⟨name.1.place, false⟩
        (.duplicateKeyword name.1.text func.1.text func.1.place.spot)
  /-- An argument without a name behind one with a name, ahead of its first lexeme; the call is what
  is reported. -/
  | positionalAfterKeyword {func : Name} {opening : Token .opening} {arguments : Arguments}
      {closing : Token .closing} (mem : .callWith func opening arguments closing ∈ parts)
      {before after : List Arg} {value : Postfix}
      (among : arguments.list = before ++ .positional value :: after)
      (named : before.flatMap Arg.names ≠ []) :
      Breaks ls parts ⟨value.start, true⟩
        (.positionalAfterKeyword func.1.text func.1.place.spot)

/-! ## Violations in the order in which they are found -/

/-- What is wrong with a string or a numeral. -/
def Lexeme.violations [CharacterNames] (l : Lexeme) : List (Site × Violation) :=
  match literalValue l with
  | .ok _ => []
  | .error v => [(⟨l.place, false⟩, v)]

namespace Derivation

/-- What is wrong with an argument that comes after others with certain names, whatever its value
is. -/
def Arg.misplacement (func : Lexeme) (names : List Text) : Arg → List (Site × Violation)
  | .positional value =>
    if names = [] then []
    else [(⟨value.start, true⟩, .positionalAfterKeyword func.text func.place.spot)]
  | .keyword name _ _ =>
    if names.contains name.1.text then
      [(⟨name.1.place, false⟩, .duplicateKeyword name.1.text func.text func.place.spot)]
    else []

variable [CharacterNames]

mutual

/-- The violations in an expression. -/
def Postfix.violations : Postfix → List (Site × Violation)
  | .string l => l.1.violations
  | .integer l => l.1.violations
  | .keyword _ => []
  | .name _ => []
  | .group _ inner _ => inner.violations
  | .member base _ _ => base.violations
  | .call _ _ _ => []
  | .callWith func _ arguments _ => arguments.violations func.1 []

/-- The violations in arguments that come after others with certain names. -/
def Arguments.violations (func : Lexeme) : List Text → Arguments → List (Site × Violation)
  | names, .last argument => argument.misplacement func names ++ argument.violations
  | names, .lastWithComma argument _ => argument.misplacement func names ++ argument.violations
  | names, .more argument _ rest =>
    argument.misplacement func names ++ argument.violations ++
      rest.violations func (names ++ argument.names)

/-- The violations in the value of an argument. -/
def Arg.violations : Arg → List (Site × Violation)
  | .positional value => value.violations
  | .keyword _ _ value => value.violations

end

/-- The violations in a statement. -/
def Stmt.violations : Stmt → List (Site × Violation)
  | .assign _ _ value => value.violations
  | .write target _ _ _ value => target.violations ++ value.violations
  | .bare value => value.violations

/-- The violations in a script. -/
def Program.violations (program : Program) : List (Site × Violation) :=
  program.flatMap fun (stmt, _) => stmt.elim [] Stmt.violations

/-- An empty line breaks no rule. -/
theorem Program.violations_cons_none (newline : Token .newline) (program : Program) :
    Program.violations ((none, newline) :: program) = program.violations := rfl

/-- The violations of a line come before those of the lines after it. -/
theorem Program.violations_cons_some (stmt : Stmt) (newline : Token .newline)
    (program : Program) :
    Program.violations ((some stmt, newline) :: program) =
      stmt.violations ++ program.violations := rfl

end Derivation

/-! ## All violations are found -/

section Breaks

variable {ls ls' : List Lexeme} {parts parts' : List Postfix} {s : Site} {v : Violation}

variable [CharacterNames]

/-- Where there is nothing, nothing breaks a rule. -/
theorem breaks_nil : ¬ Breaks [] [] s v := by
  rintro (mem | mem | mem | mem) <;> cases mem

/-- What breaks a rule breaks it among more lexemes and more parts. -/
theorem Breaks.mono (h : Breaks ls parts s v) (sub : ls ⊆ ls') (sub' : parts ⊆ parts') :
    Breaks ls' parts' s v := by
  cases h with
  | badString mem shape broken => exact .badString (sub mem) shape broken
  | tooLong mem shape broken => exact .tooLong (sub mem) shape broken
  | duplicateKeyword mem among again => exact .duplicateKeyword (sub' mem) among again
  | positionalAfterKeyword mem among named => exact .positionalAfterKeyword (sub' mem) among named

/-- What breaks a rule in one of two places breaks it in both together. -/
theorem breaks_append_iff :
    Breaks (ls ++ ls') (parts ++ parts') s v ↔ Breaks ls parts s v ∨ Breaks ls' parts' s v := by
  constructor
  · intro h
    cases h with
    | badString mem shape broken =>
      exact (List.mem_append.1 mem).imp (.badString · shape broken) (.badString · shape broken)
    | tooLong mem shape broken =>
      exact (List.mem_append.1 mem).imp (.tooLong · shape broken) (.tooLong · shape broken)
    | duplicateKeyword mem among again =>
      exact (List.mem_append.1 mem).imp (.duplicateKeyword · among again)
        (.duplicateKeyword · among again)
    | positionalAfterKeyword mem among named =>
      exact (List.mem_append.1 mem).imp (.positionalAfterKeyword · among named)
        (.positionalAfterKeyword · among named)
  · rintro (h | h)
    · exact h.mono (List.subset_append_left _ _) (List.subset_append_left _ _)
    · exact h.mono (List.subset_append_right _ _) (List.subset_append_right _ _)

/-- Lexemes that are neither strings nor numerals break no rule. -/
theorem breaks_cons_iff {l : Lexeme} {terminal : Terminal} (shape : l.terminal = terminal)
    (other : terminal ≠ .string ∧ terminal ≠ .integer) :
    Breaks (l :: ls) parts s v ↔ Breaks ls parts s v := by
  constructor
  · intro h
    cases h with
    | badString mem isString broken =>
      rcases List.mem_cons.1 mem with rfl | mem
      · exact absurd (shape.symm.trans isString) other.1
      · exact .badString mem isString broken
    | tooLong mem isInteger broken =>
      rcases List.mem_cons.1 mem with rfl | mem
      · exact absurd (shape.symm.trans isInteger) other.2
      · exact .tooLong mem isInteger broken
    | duplicateKeyword mem among again => exact .duplicateKeyword mem among again
    | positionalAfterKeyword mem among named => exact .positionalAfterKeyword mem among named
  · intro h
    exact h.mono (List.subset_cons_self _ _) (List.Subset.refl _)

/-- Lexemes that are neither strings nor numerals break no rule behind others either. -/
theorem breaks_concat_iff {l : Lexeme} {terminal : Terminal} (shape : l.terminal = terminal)
    (other : terminal ≠ .string ∧ terminal ≠ .integer) :
    Breaks (ls ++ [l]) parts s v ↔ Breaks ls parts s v := by
  have append : Breaks (ls ++ [l]) (parts ++ []) s v ↔ _ := breaks_append_iff
  rw [List.append_nil, breaks_cons_iff shape other] at append
  rw [append, or_iff_left breaks_nil]

/-- Parts without arguments break no rule. -/
theorem breaks_part_iff {d : Postfix}
    (notCall : ∀ func opening arguments closing, d ≠ .callWith func opening arguments closing) :
    Breaks ls (d :: parts) s v ↔ Breaks ls parts s v := by
  constructor
  · intro h
    cases h with
    | badString mem shape broken => exact .badString mem shape broken
    | tooLong mem shape broken => exact .tooLong mem shape broken
    | duplicateKeyword mem among again =>
      rcases List.mem_cons.1 mem with same | mem
      · exact absurd same.symm (notCall _ _ _ _)
      · exact .duplicateKeyword mem among again
    | positionalAfterKeyword mem among named =>
      rcases List.mem_cons.1 mem with same | mem
      · exact absurd same.symm (notCall _ _ _ _)
      · exact .positionalAfterKeyword mem among named
  · intro h
    exact h.mono (List.Subset.refl _) (List.subset_cons_self _ _)

end Breaks

namespace Derivation

/-- The violation of a lexeme is what its own text breaks. -/
theorem mem_violations_lexeme [CharacterNames] {l : Lexeme} {s : Site} {v : Violation} :
    (s, v) ∈ l.violations ↔ Breaks [l] [] s v := by
  constructor
  · intro h
    rw [Lexeme.violations] at h
    split at h
    · cases h
    · next broken =>
      obtain ⟨rfl, rfl⟩ := Prod.mk.inj (List.mem_singleton.1 h)
      -- Only strings and integers can be wrong by themselves.
      rw [literalValue] at broken
      split at broken
      · next shape =>
        split at broken
        · cases broken
        · next fault wrong =>
          obtain rfl := Except.error.inj broken
          exact .badString List.mem_cons_self shape wrong
      · next shape =>
        split at broken
        · cases broken
        · next fault wrong =>
          obtain rfl := Except.error.inj broken
          exact .tooLong List.mem_cons_self shape wrong
      · cases broken
  · intro h
    cases h with
    | badString mem shape broken =>
      obtain rfl := List.mem_singleton.1 mem
      simp [Lexeme.violations, literalValue, shape, broken]
    | tooLong mem shape broken =>
      obtain rfl := List.mem_singleton.1 mem
      simp [Lexeme.violations, literalValue, shape, broken]
    | duplicateKeyword mem => cases mem
    | positionalAfterKeyword mem => cases mem

/-- Whether something is wrong with one of some arguments that come after others with certain names,
whatever their values are. -/
def Misplaced (func : Lexeme) (names : List Text) (arguments : List Arg)
    (x : Site × Violation) : Prop :=
  ∃ before a after, arguments = before ++ a :: after ∧
    x ∈ a.misplacement func (names ++ before.flatMap Arg.names)

/-- What is misplaced among arguments is the first one or one after it, with one name more known. -/
theorem misplaced_cons_iff {func : Lexeme} {names : List Text} {a : Arg} {arguments : List Arg}
    {x : Site × Violation} :
    Misplaced func names (a :: arguments) x ↔
      x ∈ a.misplacement func names ∨ Misplaced func (names ++ a.names) arguments x := by
  constructor
  · rintro ⟨before, b, after, split, mem⟩
    rcases List.cons_eq_append_iff.1 split with ⟨rfl, same⟩ | ⟨before', rfl, rest⟩
    · obtain ⟨rfl, rfl⟩ := List.cons.inj same
      rw [List.flatMap_nil, List.append_nil] at mem
      exact .inl mem
    · rw [List.flatMap_cons, ← List.append_assoc] at mem
      exact .inr ⟨before', b, after, rest, mem⟩
  · rintro (mem | ⟨before, b, after, rfl, mem⟩)
    · refine ⟨[], a, arguments, rfl, ?_⟩
      rwa [List.flatMap_nil, List.append_nil]
    · refine ⟨a :: before, b, after, rfl, ?_⟩
      rwa [List.flatMap_cons, ← List.append_assoc]

/-- Without arguments none is misplaced. -/
theorem not_misplaced_nil {func : Lexeme} {names : List Text} {x : Site × Violation} :
    ¬ Misplaced func names [] x := by
  rintro ⟨before, a, after, split, -⟩
  simp at split

/-- What breaks a rule in a call is misplaced in it, or breaks a rule elsewhere. -/
theorem breaks_call_iff [CharacterNames] {ls : List Lexeme} {parts : List Postfix} {func : Name}
    {opening : Token .opening} {arguments : Arguments} {closing : Token .closing} {s : Site}
    {v : Violation} :
    Breaks ls (.callWith func opening arguments closing :: parts) s v ↔
      Misplaced func.1 [] arguments.list (s, v) ∨ Breaks ls parts s v := by
  constructor
  · intro h
    cases h with
    | badString mem shape broken => exact .inr (.badString mem shape broken)
    | tooLong mem shape broken => exact .inr (.tooLong mem shape broken)
    -- What is wrong with an argument is wrong in this call or in one of the parts.
    | duplicateKeyword mem among again =>
      rcases List.mem_cons.1 mem with same | mem
      · obtain ⟨rfl, rfl, rfl, rfl⟩ := Postfix.callWith.inj same
        refine .inl ⟨_, _, _, among, ?_⟩
        rw [Arg.misplacement, List.nil_append, if_pos (List.contains_iff_mem.2 again)]
        exact List.mem_singleton_self _
      · exact .inr (.duplicateKeyword mem among again)
    | positionalAfterKeyword mem among named =>
      rcases List.mem_cons.1 mem with same | mem
      · obtain ⟨rfl, rfl, rfl, rfl⟩ := Postfix.callWith.inj same
        refine .inl ⟨_, _, _, among, ?_⟩
        rw [Arg.misplacement, List.nil_append, if_neg named]
        exact List.mem_singleton_self _
      · exact .inr (.positionalAfterKeyword mem among named)
  · rintro (⟨before, a, after, among, mem⟩ | h)
    · cases a with
      | positional value =>
        rw [Arg.misplacement] at mem
        split at mem
        · cases mem
        · next named =>
          obtain ⟨rfl, rfl⟩ := Prod.mk.inj (List.mem_singleton.1 mem)
          exact .positionalAfterKeyword List.mem_cons_self among named
      | keyword name equals value =>
        rw [Arg.misplacement] at mem
        split at mem
        · next again =>
          obtain ⟨rfl, rfl⟩ := Prod.mk.inj (List.mem_singleton.1 mem)
          exact .duplicateKeyword List.mem_cons_self among (List.contains_iff_mem.1 again)
        · cases mem
    · exact h.mono (List.Subset.refl _) (List.subset_cons_self _ _)

section Members

variable {s : Site} {v : Violation}

variable [CharacterNames]

mutual

/-- **What breaks a rule is found.** -/
theorem Postfix.mem_violations_iff (d : Postfix) :
    (s, v) ∈ d.violations ↔ Breaks d.yield d.nodes s v := by
  have none : (s, v) ∈ ([] : List (Site × Violation)) ↔ Breaks [] [] s v :=
    iff_of_false List.not_mem_nil breaks_nil
  cases d with
  | string l =>
    rw [Postfix.violations, Postfix.yield, Postfix.nodes]
    refine mem_violations_lexeme.trans (breaks_part_iff ?_).symm
    nofun
  | integer l =>
    rw [Postfix.violations, Postfix.yield, Postfix.nodes]
    refine mem_violations_lexeme.trans (breaks_part_iff ?_).symm
    nofun
  | keyword l =>
    rw [Postfix.violations, Postfix.yield, Postfix.nodes, breaks_cons_iff l.2.1 (by decide)]
    refine none.trans (breaks_part_iff ?_).symm
    nofun
  | name l =>
    rw [Postfix.violations, Postfix.yield, Postfix.nodes, breaks_cons_iff l.2.1 (by decide)]
    refine none.trans (breaks_part_iff ?_).symm
    nofun
  -- Brackets, dots and names break nothing, so they may be left out.
  | group opening inner closing =>
    rw [Postfix.violations, Postfix.yield, Postfix.nodes, breaks_cons_iff opening.2 (by decide),
      breaks_concat_iff closing.2 (by decide)]
    exact inner.mem_violations_iff
  | member base dot attr =>
    rw [Postfix.violations, Postfix.yield, Postfix.nodes, List.append_cons,
      breaks_concat_iff attr.2 (by decide), breaks_concat_iff dot.2 (by decide)]
    refine base.mem_violations_iff.trans (breaks_part_iff ?_).symm
    nofun
  | call func opening closing =>
    rw [Postfix.violations, Postfix.yield, Postfix.nodes, breaks_cons_iff func.2.1 (by decide),
      breaks_cons_iff opening.2 (by decide), breaks_cons_iff closing.2 (by decide)]
    refine none.trans (breaks_part_iff ?_).symm
    nofun
  | callWith func opening arguments closing =>
    rw [Postfix.violations, Postfix.yield, Postfix.nodes, breaks_call_iff,
      breaks_cons_iff func.2.1 (by decide), breaks_cons_iff opening.2 (by decide),
      breaks_concat_iff closing.2 (by decide)]
    exact arguments.mem_violations_iff func.1 []
termination_by structural d

/-- The violations that are found in arguments are the misplaced ones and what their parts break. -/
theorem Arguments.mem_violations_iff (a : Arguments) (func : Lexeme) (names : List Text) :
    (s, v) ∈ a.violations func names ↔
      Misplaced func names a.list (s, v) ∨ Breaks a.yield a.nodes s v := by
  cases a with
  | last argument =>
    rw [Arguments.violations, Arguments.list, Arguments.yield, Arguments.nodes, List.mem_append,
      misplaced_cons_iff, or_iff_left not_misplaced_nil, argument.mem_violations_iff]
  | lastWithComma argument comma =>
    rw [Arguments.violations, Arguments.list, Arguments.yield, Arguments.nodes, List.mem_append,
      misplaced_cons_iff, or_iff_left not_misplaced_nil, breaks_concat_iff comma.2 (by decide),
      argument.mem_violations_iff]
  | more argument comma rest =>
    rw [Arguments.violations, Arguments.list, Arguments.yield, Arguments.nodes, List.mem_append,
      List.mem_append, misplaced_cons_iff, breaks_append_iff, breaks_cons_iff comma.2 (by decide),
      argument.mem_violations_iff, rest.mem_violations_iff]
    exact or_or_or_comm
termination_by structural a

/-- The violations that are found in an argument are what its parts break. -/
theorem Arg.mem_violations_iff (a : Arg) :
    (s, v) ∈ a.violations ↔ Breaks a.yield a.nodes s v := by
  cases a with
  | positional value =>
    rw [Arg.violations, Arg.yield, Arg.nodes]
    exact value.mem_violations_iff
  | keyword name equals value =>
    rw [Arg.violations, Arg.yield, Arg.nodes, breaks_cons_iff name.2.1 (by decide),
      breaks_cons_iff equals.2 (by decide)]
    exact value.mem_violations_iff
termination_by structural a

end

/-- The violations that are found in a statement are what its parts break. -/
theorem Stmt.mem_violations_iff (stmt : Stmt) :
    (s, v) ∈ stmt.violations ↔ Breaks stmt.yield stmt.nodes s v := by
  cases stmt with
  | assign target equals value =>
    rw [Stmt.violations, Stmt.yield, Stmt.nodes, breaks_cons_iff target.2.1 (by decide),
      breaks_cons_iff equals.2 (by decide)]
    exact value.mem_violations_iff
  | write target dot attr equals value =>
    rw [Stmt.violations, Stmt.yield, Stmt.nodes, List.mem_append, breaks_append_iff,
      breaks_cons_iff dot.2 (by decide), breaks_cons_iff attr.2 (by decide),
      breaks_cons_iff equals.2 (by decide)]
    exact or_congr target.mem_violations_iff value.mem_violations_iff
  | bare value => exact value.mem_violations_iff

/-- **What breaks a rule in a script is found.** -/
theorem Program.mem_violations_iff (program : Program) :
    (s, v) ∈ program.violations ↔ Breaks program.yield program.nodes s v := by
  induction program with
  | nil => exact iff_of_false List.not_mem_nil breaks_nil
  | cons row program ih =>
    obtain ⟨stmt, newline⟩ := row
    cases stmt with
    | none =>
      rw [Program.violations_cons_none, Program.yield_cons_none,
        breaks_cons_iff newline.2 (by decide)]
      exact ih
    | some stmt =>
      have nodes : Program.nodes ((some stmt, newline) :: program) =
          stmt.nodes ++ Program.nodes program := rfl
      rw [Program.violations_cons_some, Program.yield_cons_some, nodes, List.mem_append,
        breaks_append_iff, breaks_cons_iff newline.2 (by decide)]
      exact or_congr stmt.mem_violations_iff ih

end Members

end Derivation

/-! ## The first one is what a tree is refused for -/

/-- Whether a result is an error exactly if something is listed, and then the first of it. -/
def FirstOf {α : Type} (listed : List (Site × Violation)) (x : Except Violation α) : Prop :=
  match listed with
  | [] => ∃ a, x = .ok a
  | first :: _ => x = .error first.2

section FirstOf

variable {α β : Type} {listed others : List (Site × Violation)} {x : Except Violation α}

/-- A result is refused for nothing. -/
theorem firstOf_ok (a : α) : FirstOf [] (.ok a) := ⟨a, rfl⟩

/-- Mapping results keeps what they are refused for. -/
theorem FirstOf.map (h : FirstOf listed x) (f : α → β) : FirstOf listed (x.map f) := by
  cases listed with
  | nil =>
    obtain ⟨a, rfl⟩ := h
    exact firstOf_ok _
  | cons first rest =>
    obtain rfl : x = .error first.2 := h
    rfl

/-- What goes wrong first goes wrong in the first part of a sequence, if anything does there. -/
theorem FirstOf.bind {f : α → Except Violation β} (h : FirstOf listed x)
    (hf : ∀ a, FirstOf others (f a)) : FirstOf (listed ++ others) (x >>= f) := by
  cases listed with
  | nil =>
    obtain ⟨a, rfl⟩ := h
    exact hf a
  | cons first rest =>
    obtain rfl : x = .error first.2 := h
    rfl

/-- There is a result exactly if there is nothing to refuse. -/
theorem FirstOf.ok_iff (h : FirstOf listed x) : (∃ a, x = .ok a) ↔ listed = [] := by
  cases listed with
  | nil => exact iff_of_true h rfl
  | cons first rest =>
    obtain rfl : x = .error first.2 := h
    simp

/-- What a result is refused for is listed. -/
theorem FirstOf.exists_mem (h : FirstOf listed x) {v : Violation} (broken : x = .error v) :
    ∃ s, (s, v) ∈ listed := by
  cases listed with
  | nil =>
    obtain ⟨a, rfl⟩ := h
    cases broken
  | cons first rest =>
    obtain rfl : x = .error first.2 := h
    obtain rfl := Except.error.inj broken
    exact ⟨first.1, List.mem_cons_self⟩

/-- A result is an error about what comes before everything else that is listed. -/
theorem FirstOf.error_iff (h : FirstOf listed x)
    (sorted : (listed.map (·.1)).Pairwise Site.Before) (v : Violation) :
    x = .error v ↔ ∃ s, (s, v) ∈ listed ∧ ∀ y ∈ listed, y = (s, v) ∨ s.Before y.1 := by
  cases listed with
  | nil =>
    obtain ⟨a, rfl⟩ := h
    simp
  | cons first rest =>
    obtain rfl : x = .error first.2 := h
    have ahead : ∀ y ∈ rest, first.1.Before y.1 := by simpa using (List.pairwise_cons.1 sorted).1
    constructor
    · intro same
      obtain rfl := Except.error.inj same
      refine ⟨first.1, List.mem_cons_self, fun y hy => ?_⟩
      exact (List.mem_cons.1 hy).imp_right (ahead y)
    · rintro ⟨s, mem, least⟩
      rcases List.mem_cons.1 mem with rfl | mem
      · rfl
      · rcases least first List.mem_cons_self with rfl | before
        · rfl
        · exact absurd before (ahead _ mem).asymm

end FirstOf

/-- A positional argument is turned into its tree before the arguments after it. -/
theorem callOf_positional [CharacterNames] {func : Lexeme} {args : List Expr} {value : Phrase}
    {rest : List Argument} :
    callOf func args [] (.positional value :: rest) =
      value.toExpr >>= fun e => callOf func (e :: args) [] rest := by
  rw [callOf]
  cases value.toExpr <;> rfl

/-- A keyword argument with a new name is turned into its tree before the arguments after it. -/
theorem callOf_keyword [CharacterNames] {func name : Lexeme} {args : List Expr}
    {named : List (Text × Expr)} {value : Phrase} {rest : List Argument}
    (fresh : name.text ∉ named.map (·.1)) :
    callOf func args named (.keyword name value :: rest) =
      value.toExpr >>= fun e => callOf func args ((name.text, e) :: named) rest := by
  rw [callOf, if_neg]
  · cases value.toExpr <;> rfl
  · simpa using fresh

namespace Derivation

variable [CharacterNames]

/-- A literal is refused for the violation of its lexeme. -/
theorem firstOf_literal (l : Lexeme) : FirstOf l.violations (Phrase.literal l).toExpr := by
  rw [Lexeme.violations, Phrase.toExpr]
  cases literalValue l with
  | ok value => exact firstOf_ok _
  | error v => rfl

mutual

/-- **An expression is refused for its first violation.** -/
theorem Postfix.firstOf_toExpr (d : Postfix) : FirstOf d.violations d.phrase.toExpr := by
  cases d with
  | string l =>
    rw [Postfix.violations, Postfix.phrase]
    exact firstOf_literal l.1
  | integer l =>
    rw [Postfix.violations, Postfix.phrase]
    exact firstOf_literal l.1
  | keyword l =>
    rw [Postfix.violations, Postfix.phrase, Phrase.toExpr, literalValue, l.2.1]
    exact firstOf_ok _
  | name l =>
    rw [Postfix.violations, Postfix.phrase, Phrase.toExpr]
    exact firstOf_ok _
  | group opening inner closing =>
    rw [Postfix.violations, Postfix.phrase]
    exact inner.firstOf_toExpr
  | member base dot attr =>
    rw [Postfix.violations, Postfix.phrase, Phrase.toExpr]
    exact base.firstOf_toExpr.map _
  | call func opening closing =>
    rw [Postfix.violations, Postfix.phrase, Phrase.toExpr, callOf]
    exact firstOf_ok _
  | callWith func opening arguments closing =>
    rw [Postfix.violations, Postfix.phrase, Phrase.toExpr]
    exact arguments.firstOf_callOf func.1 [] []
termination_by structural d

/-- A call is refused for the first violation in its arguments. -/
theorem Arguments.firstOf_callOf (a : Arguments) (func : Lexeme) (args : List Expr)
    (named : List (Text × Expr)) :
    FirstOf (a.violations func (named.map (·.1)).reverse) (callOf func args named a.phrases) := by
  have complete (args' : List Expr) (named' : List (Text × Expr)) :
      FirstOf [] (callOf func args' named' []) := by
    rw [callOf]
    exact firstOf_ok _
  cases a with
  | last argument =>
    rw [Arguments.violations, Arguments.phrases, ← List.append_nil (_ ++ argument.violations)]
    exact argument.firstOf_callOf fun args' named' _ => complete args' named'
  | lastWithComma argument comma =>
    rw [Arguments.violations, Arguments.phrases, ← List.append_nil (_ ++ argument.violations)]
    exact argument.firstOf_callOf fun args' named' _ => complete args' named'
  | more argument comma rest =>
    rw [Arguments.violations, Arguments.phrases]
    refine argument.firstOf_callOf fun args' named' names => ?_
    rw [← names]
    exact rest.firstOf_callOf func args' named'
termination_by structural a

/-- A call is refused for what is wrong with an argument, or with what comes behind it. -/
theorem Arg.firstOf_callOf (a : Arg) {func : Lexeme} {args : List Expr}
    {named : List (Text × Expr)} {rest : List Argument} {others : List (Site × Violation)}
    (behind : ∀ args' named', (named'.map (·.1)).reverse = (named.map (·.1)).reverse ++ a.names →
      FirstOf others (callOf func args' named' rest)) :
    FirstOf (a.misplacement func (named.map (·.1)).reverse ++ a.violations ++ others)
      (callOf func args named (a.phrase :: rest)) := by
  cases a with
  | positional value =>
    rw [Arg.misplacement, Arg.phrase, Arg.violations]
    cases named with
    | nil =>
      rw [callOf_positional]
      refine value.firstOf_toExpr.bind fun e => behind _ _ ?_
      rw [Arg.names, List.append_nil]
    | cons entry named =>
      rw [if_neg (by simp), callOf]
      rfl
  | keyword name equals value =>
    rw [Arg.misplacement, Arg.phrase, Arg.violations]
    split
    · next used =>
      rw [callOf, if_pos (by simpa using used)]
      rfl
    · next fresh =>
      rw [callOf_keyword fun used => fresh (List.contains_iff_mem.2 (List.mem_reverse.2 used))]
      refine value.firstOf_toExpr.bind fun e => behind _ _ ?_
      rw [Arg.names, List.map_cons, List.reverse_cons]
termination_by structural a

end

/-- A statement is refused for its first violation. -/
theorem Stmt.firstOf_toStatement (stmt : Stmt) :
    FirstOf stmt.violations stmt.line.toStatement := by
  cases stmt with
  | assign target equals value =>
    rw [Stmt.violations, Stmt.line, Line.toStatement]
    exact value.firstOf_toExpr.map _
  | write target dot attr equals value =>
    rw [Stmt.violations, Stmt.line, Line.toStatement]
    refine target.firstOf_toExpr.bind fun base => ?_
    rw [← List.append_nil value.violations]
    exact value.firstOf_toExpr.bind fun e => firstOf_ok _
  | bare value =>
    rw [Stmt.violations, Stmt.line, Line.toStatement]
    exact value.firstOf_toExpr.map _

/-- **A script is refused for its first violation.** -/
theorem Program.firstOf_mapM (program : Program) :
    FirstOf program.violations (program.lines.mapM Line.toStatement) := by
  induction program with
  | nil => exact firstOf_ok _
  | cons row program ih =>
    obtain ⟨stmt, newline⟩ := row
    cases stmt with
    | none =>
      rw [Program.violations_cons_none, Program.lines_cons_none]
      exact ih
    | some stmt =>
      rw [Program.violations_cons_some, Program.lines_cons_some, List.mapM_cons]
      refine stmt.firstOf_toStatement.bind fun statement => ?_
      rw [← List.append_nil (Program.violations program)]
      exact ih.bind fun statements => firstOf_ok _

end Derivation

end Packaging.Script
