import Mathlib.Data.List.Nodup
import Packaging.Proofs.Outcomes
import Packaging.Proofs.Script.Derivation
import Packaging.Script.Tree

/-! # What derivations build
The tree of a derivation, as a relation. A derivation builds no tree if one of its strings stands
for no text, if one of its numerals has too many digits, or if in one of its calls a name occurs
twice or an argument without a name follows one with a name. Otherwise it builds the tree that its
phrase is turned into. -/

namespace Packaging.Script

namespace Derivation

/-! ## The relation -/

section

variable [CharacterNames]

mutual

/-- The expression that a derivation builds. Parentheses build nothing. -/
inductive Postfix.Builds : Postfix → Expr → Prop
  /-- A string builds the text that it stands for. -/
  | string {l : Token .string} {t : Text} (evaluates : Literal.decode l.1.text = .ok t) :
      Postfix.Builds (.string l) (.literal (.text t) l.1.place.spot)
  /-- A numeral without a sign builds its number. -/
  | numeral {l : Token .integer} (unsigned : l.1.text.head? ≠ some '-')
      (short : l.1.text.length ≤ 4300) :
      Postfix.Builds (.integer l) (.literal (.int l.1.text.decimalValue) l.1.place.spot)
  /-- A numeral with a minus sign builds the negative number. -/
  | negative {l : Token .integer} {digits : Text}
      (signed : l.1.text = CodePoint.ofChar '-' :: digits) (short : digits.length ≤ 4300) :
      Postfix.Builds (.integer l) (.literal (.int (-digits.decimalValue)) l.1.place.spot)
  /-- A keyword builds its constant. -/
  | keyword {l : Keyword} {value : Json} (isValue : keywords.lookup l.1.text = some value) :
      Postfix.Builds (.keyword l) (.literal value l.1.place.spot)
  /-- A name builds itself. -/
  | name {l : Name} : Postfix.Builds (.name l) (.name l.1.text l.1.place.spot)
  /-- Parentheses build what is between them. -/
  | group {opening : Token .opening} {inner : Postfix} {closing : Token .closing} {e : Expr}
      (built : inner.Builds e) : Postfix.Builds (.group opening inner closing) e
  /-- An attribute is read from what its base builds. -/
  | member {base : Postfix} {dot : Token .dot} {attr : Token .word} {e : Expr}
      (built : base.Builds e) :
      Postfix.Builds (.member base dot attr) (.member e attr.1.text base.start.spot)
  /-- A call without arguments. -/
  | call {func : Name} {opening : Token .opening} {closing : Token .closing} :
      Postfix.Builds (.call func opening closing) (.call func.1.text [] [] func.1.place.spot)
  /-- A call with arguments, whose names are distinct. -/
  | callWith {func : Name} {opening : Token .opening} {arguments : Arguments}
      {closing : Token .closing} {args : List Expr} {named : List (Text × Expr)}
      (built : arguments.Builds args named) (distinct : (named.map (·.1)).Nodup) :
      Postfix.Builds (.callWith func opening arguments closing)
        (.call func.1.text args named func.1.place.spot)

/-- The expressions without a name and those with a name that some arguments build. -/
inductive Arguments.Builds : Arguments → List Expr → List (Text × Expr) → Prop
  /-- The last argument. -/
  | last {argument : Arg} {args : List Expr} {named : List (Text × Expr)}
      (built : argument.Builds [] [] args named) : Arguments.Builds (.last argument) args named
  /-- The last argument, whose comma builds nothing. -/
  | lastWithComma {argument : Arg} {comma : Token .comma} {args : List Expr}
      {named : List (Text × Expr)} (built : argument.Builds [] [] args named) :
      Arguments.Builds (.lastWithComma argument comma) args named
  /-- An argument before others. -/
  | more {argument : Arg} {comma : Token .comma} {rest : Arguments} {args args' : List Expr}
      {named named' : List (Text × Expr)} (others : rest.Builds args named)
      (built : argument.Builds args named args' named') :
      Arguments.Builds (.more argument comma rest) args' named'

/-- What an argument makes of what the arguments after it build. -/
inductive Arg.Builds :
    Arg → List Expr → List (Text × Expr) → List Expr → List (Text × Expr) → Prop
  /-- An argument without a name may stand before any others. -/
  | positional {value : Postfix} {e : Expr} {args : List Expr} {named : List (Text × Expr)}
      (built : value.Builds e) : Arg.Builds (.positional value) args named (e :: args) named
  /-- An argument with a name may only stand before others with names. -/
  | keyword {name : Name} {equals : Token .equals} {value : Postfix} {e : Expr}
      {named : List (Text × Expr)} (built : value.Builds e) :
      Arg.Builds (.keyword name equals value) [] named [] ((name.1.text, e) :: named)

end

/-- The statement that a derivation builds. -/
inductive Stmt.Builds : Stmt → Statement → Prop
  /-- A value for a name. -/
  | assign {target : Name} {equals : Token .equals} {value : Postfix} {e : Expr}
      (built : value.Builds e) :
      Builds (.assign target equals value) (.assign target.1.text e target.1.place.spot)
  /-- A value for an attribute. -/
  | write {target : Postfix} {dot : Token .dot} {attr : Token .word} {equals : Token .equals}
      {value : Postfix} {base e : Expr} (target_built : target.Builds base)
      (built : value.Builds e) :
      Builds (.write target dot attr equals value) (.write base attr.1.text e target.start.spot)
  /-- An expression alone. -/
  | bare {value : Postfix} {e : Expr} (built : value.Builds e) :
      Builds (.bare value) (.bare e value.start.spot)

/-- The statements that the lines of a script build; an empty line builds none. -/
inductive Program.Builds : Program → List Statement → Prop
  /-- No lines. -/
  | nil : Builds [] []
  /-- An empty line. -/
  | blank {newline : Token .newline} {program : Program} {statements : List Statement}
      (rest : Builds program statements) : Builds ((none, newline) :: program) statements
  /-- A line with a statement. -/
  | line {stmt : Stmt} {newline : Token .newline} {program : Program} {statement : Statement}
      {statements : List Statement} (built : stmt.Builds statement)
      (rest : Builds program statements) :
      Builds ((some stmt, newline) :: program) (statement :: statements)

/-! ## Literals -/

end

/-- A numeral without a minus sign is read as it stands. -/
theorem integerValue_unsigned {t : Text} (unsigned : t.head? ≠ some '-') :
    integerValue t = Integer.read false t := by
  cases t with
  | nil => rfl
  | cons c r => exact if_neg fun h => unsigned (congrArg some h)

/-- A numeral is read exactly if it has no more than 4300 digits, as the number that they are. -/
theorem read_eq_ok_iff {negative : Bool} {digits : Text} {n : Int} :
    Integer.read negative digits = .ok n ↔
      digits.length ≤ 4300 ∧
        (if negative then -(digits.decimalValue : Int) else digits.decimalValue) = n := by
  rw [Integer.read]
  split
  · next long =>
    constructor
    · intro h
      cases h
    · rintro ⟨short, -⟩
      exact absurd long (Nat.not_lt.2 short)
  · next short =>
    constructor
    · intro h
      exact ⟨Nat.not_lt.1 short, Except.ok.inj h⟩
    · rintro ⟨-, rfl⟩
      rfl

variable [CharacterNames]

/-- A string is read as the text that it stands for. -/
theorem literalValue_string_ok_iff {l : Token .string} {v : Json} :
    literalValue l.1 = .ok v ↔ ∃ t, Literal.decode l.1.text = .ok t ∧ v = .text t := by
  rw [literalValue, l.2]
  dsimp only
  cases Literal.decode l.1.text with
  | ok t =>
    constructor
    · intro h
      exact ⟨t, rfl, (Except.ok.inj h).symm⟩
    · rintro ⟨_, ht, rfl⟩
      rw [Except.ok.inj ht]
  | error fault =>
    constructor
    · intro h
      cases h
    · rintro ⟨_, ht, _⟩
      cases ht

/-- A numeral is read as its number, if it is short enough. -/
theorem literalValue_integer_ok_iff {l : Token .integer} {v : Json} :
    literalValue l.1 = .ok v ↔ ∃ n, integerValue l.1.text = .ok n ∧ v = .int n := by
  rw [literalValue, l.2]
  dsimp only
  cases integerValue l.1.text with
  | ok n =>
    constructor
    · intro h
      exact ⟨n, rfl, (Except.ok.inj h).symm⟩
    · rintro ⟨_, hn, rfl⟩
      rw [Except.ok.inj hn]
  | error fault =>
    constructor
    · intro h
      cases h
    · rintro ⟨_, hn, _⟩
      cases hn

/-- What a numeral builds is its number. -/
theorem builds_of_integerValue {l : Token .integer} {n : Int}
    (h : integerValue l.1.text = .ok n) :
    Postfix.Builds (.integer l) (.literal (.int n) l.1.place.spot) := by
  by_cases signed : l.1.text.head? = some '-'
  · obtain ⟨digits, htext⟩ := List.head?_eq_some_iff.1 signed
    rw [htext, integerValue, if_pos rfl, read_eq_ok_iff] at h
    obtain ⟨short, rfl⟩ := h
    exact .negative htext short
  · rw [integerValue_unsigned signed, read_eq_ok_iff] at h
    obtain ⟨short, rfl⟩ := h
    exact .numeral signed short

/-- An integer literal builds the number that its numeral is read as. -/
theorem integerValue_of_builds {l : Token .integer} {e : Expr}
    (h : Postfix.Builds (.integer l) e) :
    ∃ n, integerValue l.1.text = .ok n ∧ e = .literal (.int n) l.1.place.spot := by
  cases h with
  | numeral unsigned short =>
    refine ⟨_, ?_, rfl⟩
    rw [integerValue_unsigned unsigned, read_eq_ok_iff]
    exact ⟨short, rfl⟩
  | negative signed short =>
    refine ⟨_, ?_, rfl⟩
    rw [signed, integerValue, if_pos rfl, read_eq_ok_iff]
    exact ⟨short, rfl⟩

/-- A keyword has the value that the table of keywords gives it. -/
theorem literalValue_keyword_ok_iff {l : Keyword} {v : Json} :
    literalValue l.1 = .ok v ↔ keywords.lookup l.1.text = some v := by
  obtain ⟨value, hvalue⟩ := Option.isSome_iff_exists.1 l.2.2
  rw [literalValue, l.2.1, hvalue]
  exact ⟨fun h => congrArg some (Except.ok.inj h), fun h => congrArg Except.ok (Option.some.inj h)⟩

/-- A literal is turned into its value, at its own spot. -/
theorem toExpr_literal_ok_iff {l : Lexeme} {e : Expr} :
    (Phrase.literal l).toExpr = .ok e ↔
      ∃ v, literalValue l = .ok v ∧ e = .literal v l.place.spot := by
  rw [Phrase.toExpr, Except.map_eq_ok_iff]

/-! ## Calls -/

/-- What some arguments build, by what is made of it when they complete any call. The names of the
call are distinct, and an argument without a name comes after none with a name. -/
def Completes (func : Lexeme) (built : List Expr → List (Text × Expr) → Prop)
    (arguments : List Argument) : Prop :=
  ∀ (args : List Expr) (named : List (Text × Expr)) (e : Expr), (named.map (·.1)).Nodup →
    (callOf func args named arguments = .ok e ↔
      ∃ args' named', built args' named' ∧ (named ≠ [] → args' = []) ∧
        ((named.reverse ++ named').map (·.1)).Nodup ∧
        e = .call func.text (args.reverse ++ args') (named.reverse ++ named') func.place.spot)

/-- Without arguments nothing is added to a call. -/
theorem completes_nil (func : Lexeme) :
    Completes func (fun args named => args = [] ∧ named = []) [] := by
  intro args named e distinct
  rw [callOf]
  constructor
  · intro h
    refine ⟨[], [], ⟨rfl, rfl⟩, fun _ => rfl, ?_, ?_⟩
    · rw [List.append_nil, List.map_reverse]
      exact List.nodup_reverse.2 distinct
    · rw [List.append_nil, List.append_nil]
      exact (Except.ok.inj h).symm
  · rintro ⟨_, _, ⟨rfl, rfl⟩, -, -, rfl⟩
    rw [List.append_nil, List.append_nil]

/-- An argument without a name adds its expression in front, unless there are names before it. -/
theorem completes_positional {func : Lexeme} {value : Phrase} {rest : List Argument}
    {built : List Expr → List (Text × Expr) → Prop} (others : Completes func built rest) :
    Completes func
      (fun args named => ∃ first args', value.toExpr = .ok first ∧ built args' named ∧
        args = first :: args')
      (.positional value :: rest) := by
  intro args named e distinct
  rw [callOf]
  split
  · next none =>
    obtain rfl := List.isEmpty_iff.1 none
    cases hvalue : value.toExpr with
    | ok first =>
      refine (others (first :: args) [] e distinct).trans ⟨?_, ?_⟩
      · rintro ⟨args', named', hbuilt, -, hdistinct, rfl⟩
        refine ⟨first :: args', named', ⟨first, args', rfl, hbuilt, rfl⟩, absurd rfl, hdistinct, ?_⟩
        rw [List.reverse_cons, List.append_assoc, List.singleton_append]
      · rintro ⟨_, named', ⟨_, args', hfirst, hbuilt, rfl⟩, -, hdistinct, rfl⟩
        obtain rfl := Except.ok.inj hfirst
        refine ⟨args', named', hbuilt, absurd rfl, hdistinct, ?_⟩
        rw [List.reverse_cons, List.append_assoc, List.singleton_append]
    | error violation =>
      constructor
      · intro h
        cases h
      · rintro ⟨_, _, ⟨_, _, hfirst, -, -⟩, -⟩
        cases hfirst
  · next some_named =>
    -- Nothing is made of it, and with names before it nothing may be built of it either.
    constructor
    · intro h
      cases h
    · rintro ⟨_, _, ⟨_, _, -, -, rfl⟩, noMore, -⟩
      cases noMore fun none => some_named (List.isEmpty_iff.2 none)

/-- An argument with a name adds it in front, unless the name occurs before it. -/
theorem completes_keyword {func name : Lexeme} {value : Phrase} {rest : List Argument}
    {built : List Expr → List (Text × Expr) → Prop} (others : Completes func built rest) :
    Completes func
      (fun args named => ∃ first named', value.toExpr = .ok first ∧ built [] named' ∧
        args = [] ∧ named = (name.text, first) :: named')
      (.keyword name value :: rest) := by
  intro args named e distinct
  rw [callOf]
  split
  · next used =>
    -- The name occurs before, so the names of the call would not be distinct.
    constructor
    · intro h
      cases h
    · rintro ⟨_, _, ⟨first, named', -, -, rfl, rfl⟩, -, hdistinct, -⟩
      rw [List.map_append, List.map_cons, List.nodup_append] at hdistinct
      obtain ⟨entry, hentry, hname⟩ := List.any_eq_true.1 used
      refine absurd rfl (hdistinct.2.2 name.text ?_ name.text List.mem_cons_self)
      rw [List.mem_map]
      exact ⟨entry, List.mem_reverse.2 hentry, by simpa using hname⟩
  · next unused =>
    have fresh : name.text ∉ named.map (·.1) := by
      intro h
      obtain ⟨entry, hentry, hname⟩ := List.mem_map.1 h
      exact unused (List.any_eq_true.2 ⟨entry, hentry, by simpa using hname⟩)
    -- The names before are kept in reverse, so a new one comes first there and last in the call.
    have shift (first : Expr) (named' : List (Text × Expr)) :
        ((name.text, first) :: named).reverse ++ named' =
          named.reverse ++ (name.text, first) :: named' := by
      rw [List.reverse_cons, List.append_assoc, List.singleton_append]
    cases hvalue : value.toExpr with
    | ok first =>
      refine (others args ((name.text, first) :: named) e
        (List.nodup_cons.2 ⟨fresh, distinct⟩)).trans ⟨?_, ?_⟩
      · rintro ⟨args', named', hbuilt, noMore, hdistinct, rfl⟩
        obtain rfl := noMore (List.cons_ne_nil _ _)
        rw [shift] at hdistinct ⊢
        exact ⟨[], _, ⟨first, named', rfl, hbuilt, rfl, rfl⟩, fun _ => rfl, hdistinct, rfl⟩
      · rintro ⟨_, _, ⟨_, named', hfirst, hbuilt, rfl, rfl⟩, -, hdistinct, rfl⟩
        obtain rfl := Except.ok.inj hfirst
        rw [← shift] at hdistinct ⊢
        exact ⟨[], named', hbuilt, fun _ => rfl, hdistinct, rfl⟩
    | error violation =>
      constructor
      · intro h
        cases h
      · rintro ⟨_, _, ⟨_, _, hfirst, -, -⟩, -⟩
        cases hfirst

/-- What completes a call may be put in other words. -/
theorem Completes.congr {func : Lexeme} {built built' : List Expr → List (Text × Expr) → Prop}
    {arguments : List Argument} (h : Completes func built arguments)
    (same : ∀ args named, built args named ↔ built' args named) :
    Completes func built' arguments := by
  obtain rfl : built = built' := funext fun args => funext fun named => propext (same args named)
  exact h

/-! ## Derivations build what their phrases are turned into -/

mutual

/-- **Expressions**: what a derivation builds is what its phrase is turned into. -/
theorem Postfix.toExpr_phrase_ok_iff (d : Postfix) (e : Expr) :
    d.phrase.toExpr = .ok e ↔ d.Builds e := by
  cases d with
  | string l =>
    rw [Postfix.phrase, toExpr_literal_ok_iff]
    constructor
    · rintro ⟨v, hv, rfl⟩
      obtain ⟨t, ht, rfl⟩ := literalValue_string_ok_iff.1 hv
      exact .string ht
    · rintro ⟨evaluates⟩
      exact ⟨_, literalValue_string_ok_iff.2 ⟨_, evaluates, rfl⟩, rfl⟩
  | integer l =>
    rw [Postfix.phrase, toExpr_literal_ok_iff]
    constructor
    · rintro ⟨v, hv, rfl⟩
      obtain ⟨n, hn, rfl⟩ := literalValue_integer_ok_iff.1 hv
      exact builds_of_integerValue hn
    · intro built
      obtain ⟨n, hn, rfl⟩ := integerValue_of_builds built
      exact ⟨_, literalValue_integer_ok_iff.2 ⟨n, hn, rfl⟩, rfl⟩
  | keyword l =>
    rw [Postfix.phrase, toExpr_literal_ok_iff]
    constructor
    · rintro ⟨v, hv, rfl⟩
      exact .keyword (literalValue_keyword_ok_iff.1 hv)
    · rintro (_ | _ | _ | isValue)
      exact ⟨_, literalValue_keyword_ok_iff.2 isValue, rfl⟩
  | name l =>
    rw [Postfix.phrase, Phrase.toExpr]
    constructor
    · intro h
      obtain rfl := Except.ok.inj h
      exact .name
    · rintro ⟨⟩
      rfl
  -- Parentheses leave no trace in the phrase.
  | group opening inner closing =>
    rw [Postfix.phrase, Postfix.toExpr_phrase_ok_iff inner]
    exact ⟨.group, fun | .group built => built⟩
  | member base dot attr =>
    rw [Postfix.phrase, Phrase.toExpr, Except.map_eq_ok_iff]
    constructor
    · rintro ⟨e, he, rfl⟩
      exact .member ((base.toExpr_phrase_ok_iff e).1 he)
    · intro h
      obtain _ | _ | _ | _ | _ | _ | built := h
      exact ⟨_, (base.toExpr_phrase_ok_iff _).2 built, rfl⟩
  | call func opening closing =>
    rw [Postfix.phrase, Phrase.toExpr, completes_nil func.1 [] [] e List.nodup_nil]
    constructor
    · rintro ⟨_, _, ⟨rfl, rfl⟩, -, -, rfl⟩
      exact .call
    · rintro ⟨⟩
      exact ⟨[], [], ⟨rfl, rfl⟩, absurd rfl, List.nodup_nil, rfl⟩
  | callWith func opening arguments closing =>
    rw [Postfix.phrase, Phrase.toExpr,
      arguments.completes_phrases func.1 [] [] e List.nodup_nil]
    constructor
    · rintro ⟨args, named, built, -, distinct, rfl⟩
      exact .callWith built distinct
    · intro h
      obtain _ | _ | _ | _ | _ | _ | _ | _ | ⟨built, distinct⟩ := h
      exact ⟨_, _, built, absurd rfl, distinct, rfl⟩
termination_by structural d

/-- What arguments build is what completes their call. -/
theorem Arguments.completes_phrases (a : Arguments) (func : Lexeme) :
    Completes func a.Builds a.phrases := by
  cases a with
  | last argument =>
    rw [Arguments.phrases]
    refine (argument.completes_phrase func (completes_nil func)).congr fun args named => ?_
    constructor
    · rintro ⟨_, _, ⟨rfl, rfl⟩, built⟩
      exact .last built
    · rintro ⟨built⟩
      exact ⟨[], [], ⟨rfl, rfl⟩, built⟩
  -- The last comma leaves no trace in the phrases.
  | lastWithComma argument comma =>
    rw [Arguments.phrases]
    refine (argument.completes_phrase func (completes_nil func)).congr fun args named => ?_
    constructor
    · rintro ⟨_, _, ⟨rfl, rfl⟩, built⟩
      exact .lastWithComma built
    · intro h
      cases h with
      | lastWithComma built => exact ⟨[], [], ⟨rfl, rfl⟩, built⟩
  | more argument comma rest =>
    rw [Arguments.phrases]
    refine (argument.completes_phrase func (rest.completes_phrases func)).congr
      fun args named => ?_
    constructor
    · rintro ⟨_, _, others, built⟩
      exact .more others built
    · intro h
      cases h with
      | more others built => exact ⟨_, _, others, built⟩
termination_by structural a

/-- What an argument adds to others. -/
theorem Arg.completes_phrase (a : Arg) (func : Lexeme) {rest : List Argument}
    {built : List Expr → List (Text × Expr) → Prop} (others : Completes func built rest) :
    Completes func
      (fun args named => ∃ args' named', built args' named' ∧ a.Builds args' named' args named)
      (a.phrase :: rest) := by
  cases a with
  | positional value =>
    rw [Arg.phrase]
    refine (completes_positional others).congr fun args named => ?_
    constructor
    · rintro ⟨first, args', hfirst, hbuilt, rfl⟩
      exact ⟨args', named, hbuilt, .positional ((value.toExpr_phrase_ok_iff first).1 hfirst)⟩
    · rintro ⟨args', _, hbuilt, @⟨_, first, _, _, built⟩⟩
      exact ⟨first, args', (value.toExpr_phrase_ok_iff first).2 built, hbuilt, rfl⟩
  | keyword name equals value =>
    rw [Arg.phrase]
    refine (completes_keyword others).congr fun args named => ?_
    constructor
    · rintro ⟨first, named', hfirst, hbuilt, rfl, rfl⟩
      exact ⟨[], named', hbuilt, .keyword ((value.toExpr_phrase_ok_iff first).1 hfirst)⟩
    · rintro ⟨_, named', hbuilt, _ | built⟩
      exact ⟨_, named', (value.toExpr_phrase_ok_iff _).2 built, hbuilt, rfl, rfl⟩
termination_by structural a

end

/-- **Statements**: what a derivation builds is what its line is turned into. -/
theorem Stmt.toStatement_line_ok_iff (stmt : Stmt) (statement : Statement) :
    stmt.line.toStatement = .ok statement ↔ stmt.Builds statement := by
  cases stmt with
  | assign target equals value =>
    rw [Stmt.line, Line.toStatement, Except.map_eq_ok_iff]
    constructor
    · rintro ⟨e, he, rfl⟩
      exact .assign ((value.toExpr_phrase_ok_iff e).1 he)
    · rintro ⟨built⟩
      exact ⟨_, (value.toExpr_phrase_ok_iff _).2 built, rfl⟩
  -- The target is built first, and its failure hides that of the value.
  | write target dot attr equals value =>
    rw [Stmt.line, Line.toStatement, Except.bind_eq_ok_iff]
    constructor
    · rintro ⟨base, hbase, h⟩
      obtain ⟨e, he, h⟩ := Except.bind_eq_ok_iff.1 h
      obtain rfl := Except.ok.inj h
      exact .write ((target.toExpr_phrase_ok_iff base).1 hbase)
        ((value.toExpr_phrase_ok_iff e).1 he)
    · rintro (_ | ⟨target_built, built⟩)
      refine ⟨_, (target.toExpr_phrase_ok_iff _).2 target_built, ?_⟩
      exact Except.bind_eq_ok_iff.2 ⟨_, (value.toExpr_phrase_ok_iff _).2 built, rfl⟩
  | bare value =>
    rw [Stmt.line, Line.toStatement, Except.map_eq_ok_iff]
    constructor
    · rintro ⟨e, he, rfl⟩
      exact .bare ((value.toExpr_phrase_ok_iff e).1 he)
    · rintro (_ | _ | built)
      exact ⟨_, (value.toExpr_phrase_ok_iff _).2 built, rfl⟩

/-- **Scripts**: what a derivation builds is what its lines are turned into. -/
theorem Program.mapM_lines_ok_iff (program : Program) (statements : List Statement) :
    program.lines.mapM Line.toStatement = .ok statements ↔ program.Builds statements := by
  -- By induction on the rows; one without a statement has no line, and builds none.
  induction program generalizing statements with
  | nil =>
    constructor
    · intro h
      obtain rfl := Except.ok.inj h
      exact .nil
    · rintro ⟨⟩
      rfl
  | cons row program ih =>
    obtain ⟨stmt, newline⟩ := row
    cases stmt with
    | none =>
      rw [Program.lines_cons_none, ih]
      exact ⟨.blank, fun | .blank rest => rest⟩
    | some stmt =>
      rw [Program.lines_cons_some, List.mapM_cons, Except.bind_eq_ok_iff]
      constructor
      · rintro ⟨statement, hstatement, h⟩
        obtain ⟨others, hothers, h⟩ := Except.bind_eq_ok_iff.1 h
        obtain rfl := Except.ok.inj h
        exact .line ((stmt.toStatement_line_ok_iff statement).1 hstatement)
          ((ih others).1 hothers)
      · rintro (_ | _ | ⟨built, rest⟩)
        refine ⟨_, (stmt.toStatement_line_ok_iff _).2 built, ?_⟩
        exact Except.bind_eq_ok_iff.2 ⟨_, (ih _).2 rest, rfl⟩

end Derivation

end Packaging.Script
