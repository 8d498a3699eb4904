import Packaging.Proofs.Script.Soundness

/-! # Derivations are unique
The number of lexemes and the first and the last of them show which production derives them. Where
an argument or the target of a statement ends shows in a run of the machine: it refuses every lexeme
that can only stand after a complete expression, so no expression goes on past such a lexeme outside
its brackets. -/

namespace Packaging.Script

open Script.Derivation Machine

/-! ## Where an expression ends -/

/-- Whether a lexeme can only stand behind a complete expression. -/
def Terminal.Ends (t : Terminal) : Prop :=
  t = .comma ∨ t = .equals ∨ t = .newline ∨ t = .closing

/-- A machine that has read all of a single expression. -/
abbrev Machine.complete (d : Postfix) : Machine := ⟨[], .whole, [], d.mode⟩

/-- Behind an expression the machine goes on with what follows it. -/
theorem run_expression (d : Postfix) (ls : List Lexeme) :
    Machine.expression.run (d.yield ++ ls) = (Machine.complete d).run ls :=
  run_postfix d Machine.expression (Or.inr (Or.inl rfl)) ls

/-- A single expression goes on with none of the lexemes that end it. -/
theorem step_complete (d : Postfix) {l : Lexeme} (h : l.terminal.Ends) :
    (Machine.complete d).step l = none := by
  have after : (Machine.complete d).readAfter d.phrase d.start l = none := by
    rcases h with comma | equals | newline | closing
    · rw [readAfter, comma]
    · rw [readAfter, equals]
    · rw [readAfter, newline]
      rfl
    · rw [readAfter, closing]
  by_cases equals : l.terminal = .equals
  · cases d with
    | name w =>
      rw [step, equals]
      exact after
    | member base dot attr =>
      rw [step, equals]
      rw [Postfix.phrase] at after
      exact after
    | _ => exact after
  · have opening : l.terminal ≠ .opening := by
      rcases h with h | h | h | h <;> rw [h] <;> decide
    exact (step_mode d (Machine.complete d) opening equals).trans after

/-- What may follow a complete expression: nothing, or a lexeme that ends it. -/
def Follows (tail : List Lexeme) : Prop := ∀ l ∈ tail.head?, l.terminal.Ends

/-- No expression goes on behind a lexeme that ends expressions. -/
theorem yield_ne_append {d e : Postfix} {l : Lexeme} {tail : List Lexeme} (h : l.terminal.Ends) :
    e.yield ≠ d.yield ++ l :: tail := by
  intro heq
  -- The machine that reads all of the one is refused at the end of the other.
  have all := run_expression e []
  rw [List.append_nil, heq, run_expression, run_cons_of_none (step_complete d h)] at all
  cases all

/-- An expression ends at only one place. -/
theorem yield_append_inj {d e : Postfix} {s t : List Lexeme} (hs : Follows s) (ht : Follows t)
    (h : d.yield ++ s = e.yield ++ t) : d.yield = e.yield ∧ s = t := by
  -- One of them is the other with more behind it, which starts like what follows the other.
  rcases List.append_eq_append_iff.1 h with ⟨more, he, hmore⟩ | ⟨more, hd, hmore⟩
  · cases more with
    | nil => exact ⟨by rw [he, List.append_nil], hmore⟩
    | cons l more =>
      exact absurd he (yield_ne_append (hs l (by rw [hmore]; rfl)))
  · cases more with
    | nil => exact ⟨by rw [hd, List.append_nil], hmore.symm⟩
    | cons l more =>
      exact absurd hd (yield_ne_append (ht l (by rw [hmore]; rfl)))

/-! ## Which production derives an expression -/

namespace Derivation

/-- The productions of an expression, those of single lexemes by what the lexeme is. -/
inductive Form
  | lexeme (terminal : Terminal) (keyword : Bool)
  | group
  | member
  | call
  | callWith

/-- The production that derives an expression. -/
def Postfix.form : Postfix → Form
  | .string l => .lexeme .string (isKeyword l.1.text)
  | .integer l => .lexeme .integer (isKeyword l.1.text)
  | .keyword _ => .lexeme .word true
  | .name _ => .lexeme .word false
  | .group _ _ _ => .group
  | .member _ _ _ => .member
  | .call _ _ _ => .call
  | .callWith _ _ _ _ => .callWith

/-- The production that can derive some lexemes: it shows in their number and in the first and the
last of them. -/
def formOf : List Lexeme → Form
  | [] => .group
  | [l] => .lexeme l.terminal (isKeyword l.text)
  | l :: m :: rest =>
    if (rest.getLast?.getD m).terminal = .word then .member
    else if l.terminal = .opening then .group
    else if rest.length = 1 then .call
    else .callWith

/-- The form of at least three lexemes, told from the last, the first and how many stand between. -/
theorem formOf_cons_append_singleton (first last : Lexeme) {middle : List Lexeme}
    (h : middle ≠ []) :
    formOf (first :: (middle ++ [last])) =
      if last.terminal = .word then .member
      else if first.terminal = .opening then .group
      else if middle.length = 1 then .call
      else .callWith := by
  obtain ⟨m, rest, rfl⟩ := List.exists_cons_of_ne_nil h
  rw [List.cons_append, formOf, List.getLast?_append, List.getLast?_singleton, List.length_append,
    List.length_cons]
  rfl

/-- The form of an expression can be told from its lexemes. -/
theorem formOf_yield (d : Postfix) : formOf d.yield = d.form := by
  cases d with
  | string l => rw [Postfix.yield, formOf, l.2, Postfix.form]
  | integer l => rw [Postfix.yield, formOf, l.2, Postfix.form]
  | keyword l => rw [Postfix.yield, formOf, l.2.1, l.2.2, Postfix.form]
  | name l => rw [Postfix.yield, formOf, l.2.1, l.2.2, Postfix.form]
  | group opening inner closing =>
    rw [Postfix.yield, formOf_cons_append_singleton _ _ inner.yield_ne_nil, closing.2, opening.2]
    rfl
  | member base dot attr =>
    obtain ⟨l, rest, hl⟩ := List.exists_cons_of_ne_nil base.yield_ne_nil
    have hsplit : base.yield ++ [dot.1, attr.1] = l :: ((rest ++ [dot.1]) ++ [attr.1]) := by
      rw [hl, List.append_assoc]
      rfl
    rw [Postfix.yield, hsplit, formOf_cons_append_singleton _ _ (by simp), if_pos attr.2]
    rfl
  | call func opening closing =>
    have hsplit := formOf_cons_append_singleton func.1 closing.1 (List.cons_ne_nil opening.1 [])
    rw [closing.2, func.2.1] at hsplit
    exact hsplit
  | callWith func opening arguments closing =>
    have hsplit := formOf_cons_append_singleton func.1 closing.1
      (List.cons_ne_nil opening.1 arguments.yield)
    -- That there are arguments tells this call from the one without.
    have hlen : (opening.1 :: arguments.yield).length ≠ 1 := by
      intro h
      exact arguments.yield_ne_nil (List.length_eq_zero_iff.1 (Nat.succ.inj h))
    rw [closing.2, func.2.1, if_neg (by decide), if_neg (by decide), if_neg hlen] at hsplit
    rw [Postfix.yield]
    exact hsplit

/-- An argument without a name does not go on with an equals sign. -/
theorem Arg.positional_ne_keyword (d : Postfix) (name : Name) (equals : Token .equals)
    (rest : List Lexeme) : d.yield ≠ name.1 :: equals.1 :: rest :=
  yield_ne_append (d := .name name) (Or.inr (Or.inl equals.2))

/-- An argument ends at only one place. -/
theorem Arg.yield_append_inj {a b : Arg} {s t : List Lexeme}
    (hs : ∀ l ∈ s.head?, l.terminal = .comma) (ht : ∀ l ∈ t.head?, l.terminal = .comma)
    (h : a.yield ++ s = b.yield ++ t) : a.yield = b.yield ∧ s = t := by
  have follows {r : List Lexeme} (hr : ∀ l ∈ r.head?, l.terminal = .comma) : Follows r :=
    fun l hl => Or.inl (hr l hl)
  have ends {r : List Lexeme} (equals : Token .equals) : Follows (equals.1 :: r) := by
    intro l hl
    obtain rfl := Option.some.inj hl
    exact Or.inr (Or.inl equals.2)
  -- With an equals sign behind its name, the one argument would be followed by an equals sign.
  have apart {d : Postfix} {name : Name} {equals : Token .equals} {r v : List Lexeme}
      (hr : ∀ l ∈ r.head?, l.terminal = .comma)
      (h : d.yield ++ r = name.1 :: equals.1 :: v) : False := by
    have hsplit := Script.yield_append_inj (e := .name name) (follows hr) (ends equals) h
    have hcomma := hr equals.1 (by rw [hsplit.2]; rfl)
    rw [equals.2] at hcomma
    cases hcomma
  cases a with
  | positional d =>
    cases b with
    | positional e =>
      rw [Arg.yield, Arg.yield] at h ⊢
      exact Script.yield_append_inj (follows hs) (follows ht) h
    | keyword name equals value =>
      rw [Arg.yield, Arg.yield] at h
      exact (apart hs h).elim
  | keyword name equals value =>
    cases b with
    | positional e =>
      rw [Arg.yield, Arg.yield] at h
      exact (apart ht h.symm).elim
    | keyword name' equals' value' =>
      rw [Arg.yield, Arg.yield] at h ⊢
      obtain ⟨hname, h⟩ := List.cons.inj h
      obtain ⟨hequals, h⟩ := List.cons.inj h
      obtain ⟨hvalue, htail⟩ := Script.yield_append_inj (follows hs) (follows ht) h
      exact ⟨by rw [hname, hequals, hvalue], htail⟩

/-- The first of some arguments. -/
def Arguments.head : Arguments → Arg
  | .last argument => argument
  | .lastWithComma argument _ => argument
  | .more argument _ _ => argument

/-- The lexemes of the arguments behind the first one. -/
def Arguments.tail : Arguments → List Lexeme
  | .last _ => []
  | .lastWithComma _ comma => [comma.1]
  | .more _ comma rest => comma.1 :: rest.yield

/-- Arguments yield the first of them and then the others. -/
theorem Arguments.yield_eq (a : Arguments) : a.yield = a.head.yield ++ a.tail := by
  cases a with
  | last argument => rw [Arguments.yield, Arguments.head, Arguments.tail, List.append_nil]
  | _ => rw [Arguments.yield, Arguments.head, Arguments.tail]

/-- What follows the first argument starts with a comma. -/
theorem Arguments.comma_of_mem_head?_tail (a : Arguments) :
    ∀ l ∈ a.tail.head?, l.terminal = .comma := by
  intro l hl
  cases a with
  | last argument => cases hl
  | lastWithComma argument comma =>
    obtain rfl := Option.some.inj hl
    exact comma.2
  | more argument comma rest =>
    obtain rfl := Option.some.inj hl
    exact comma.2

/-- The lexemes of arguments tell those of the first one from the others. -/
theorem Arguments.head_tail_inj {a b : Arguments} (h : a.yield = b.yield) :
    a.head.yield = b.head.yield ∧ a.tail = b.tail := by
  rw [a.yield_eq, b.yield_eq] at h
  exact Arg.yield_append_inj a.comma_of_mem_head?_tail b.comma_of_mem_head?_tail h

/-! ## No two derivations of the same lexemes -/

mutual

/-- No two derivations derive the same expression. -/
theorem Postfix.yield_inj (d e : Postfix) (h : d.yield = e.yield) : d = e := by
  -- Both are of one production, so each case has one counterpart.
  have hform : d.form = e.form := by rw [← formOf_yield, ← formOf_yield, h]
  cases d with
  | string l =>
    cases e with
    | string l' => exact congrArg Postfix.string (Subtype.ext (List.cons.inj h).1)
    | _ => cases hform
  | integer l =>
    cases e with
    | integer l' => exact congrArg Postfix.integer (Subtype.ext (List.cons.inj h).1)
    | _ => cases hform
  | keyword l =>
    cases e with
    | keyword l' => exact congrArg Postfix.keyword (Subtype.ext (List.cons.inj h).1)
    | _ => cases hform
  | name l =>
    cases e with
    | name l' => exact congrArg Postfix.name (Subtype.ext (List.cons.inj h).1)
    | _ => cases hform
  | group opening inner closing =>
    cases e with
    | group opening' inner' closing' =>
      rw [Postfix.yield, Postfix.yield] at h
      obtain ⟨hopening, h⟩ := List.cons.inj h
      obtain ⟨hinner, hclosing⟩ := List.append_inj' h rfl
      rw [Subtype.ext hopening, Postfix.yield_inj inner inner' hinner,
        Subtype.ext (List.cons.inj hclosing).1]
    | _ => cases hform
  | member base dot attr =>
    cases e with
    | member base' dot' attr' =>
      rw [Postfix.yield, Postfix.yield] at h
      -- The dot and the attribute come off the end, for the base may be of any length.
      obtain ⟨hbase, hlast⟩ := List.append_inj' h rfl
      obtain ⟨hdot, hattr⟩ := List.cons.inj hlast
      rw [Postfix.yield_inj base base' hbase, Subtype.ext hdot,
        Subtype.ext (List.cons.inj hattr).1]
    | _ => cases hform
  | call func opening closing =>
    cases e with
    | call func' opening' closing' =>
      rw [Postfix.yield, Postfix.yield] at h
      obtain ⟨hfunc, h⟩ := List.cons.inj h
      obtain ⟨hopening, h⟩ := List.cons.inj h
      rw [Subtype.ext hfunc, Subtype.ext hopening, Subtype.ext (List.cons.inj h).1]
    | _ => cases hform
  | callWith func opening arguments closing =>
    cases e with
    | callWith func' opening' arguments' closing' =>
      rw [Postfix.yield, Postfix.yield] at h
      obtain ⟨hfunc, h⟩ := List.cons.inj h
      obtain ⟨hopening, h⟩ := List.cons.inj h
      obtain ⟨harguments, hclosing⟩ := List.append_inj' h rfl
      rw [Subtype.ext hfunc, Subtype.ext hopening,
        Arguments.yield_inj arguments arguments' harguments,
        Subtype.ext (List.cons.inj hclosing).1]
    | _ => cases hform
termination_by structural d

/-- Arguments with the same lexemes are the same. -/
theorem Arguments.yield_inj (a b : Arguments) (h : a.yield = b.yield) : a = b := by
  have here := Arguments.head_tail_inj h
  cases a with
  | last x =>
    cases b with
    | last y => rw [Arg.yield_inj x y here.1]
    | lastWithComma y comma => cases here.2
    | more y comma rest => cases here.2
  | lastWithComma x comma =>
    cases b with
    | last y => cases here.2
    | lastWithComma y comma' =>
      rw [Arg.yield_inj x y here.1, Subtype.ext (List.cons.inj here.2).1]
    | more y comma' rest => exact absurd (List.cons.inj here.2).2.symm rest.yield_ne_nil
  | more x comma rest =>
    cases b with
    | last y => cases here.2
    | lastWithComma y comma' => exact absurd (List.cons.inj here.2).2 rest.yield_ne_nil
    | more y comma' rest' =>
      rw [Arg.yield_inj x y here.1, Subtype.ext (List.cons.inj here.2).1,
        Arguments.yield_inj rest rest' (List.cons.inj here.2).2]
termination_by structural a

/-- Two arguments with the same lexemes are the same. -/
theorem Arg.yield_inj (a b : Arg) (h : a.yield = b.yield) : a = b := by
  cases a with
  | positional d =>
    cases b with
    | positional e => rw [Postfix.yield_inj d e h]
    | keyword name equals value =>
      exact absurd h (Arg.positional_ne_keyword d name equals value.yield)
  | keyword name equals value =>
    cases b with
    | positional e =>
      exact absurd h.symm (Arg.positional_ne_keyword e name equals value.yield)
    | keyword name' equals' value' =>
      rw [Arg.yield, Arg.yield] at h
      obtain ⟨hname, h⟩ := List.cons.inj h
      obtain ⟨hequals, h⟩ := List.cons.inj h
      rw [Subtype.ext hname, Subtype.ext hequals, Postfix.yield_inj value value' h]
termination_by structural a

end

/-- The expression that a statement starts with, its attribute included. -/
def Stmt.head : Stmt → Postfix
  | .assign target _ _ => .name target
  | .write target dot attr _ _ => .member target dot attr
  | .bare value => value

/-- The lexemes of a statement behind the expression that it starts with. -/
def Stmt.tail : Stmt → List Lexeme
  | .assign _ equals value => equals.1 :: value.yield
  | .write _ _ _ equals value => equals.1 :: value.yield
  | .bare _ => []

/-- A statement yields its first expression and then the rest. -/
theorem Stmt.yield_eq (stmt : Stmt) : stmt.yield = stmt.head.yield ++ stmt.tail := by
  cases stmt with
  | assign target equals value => rfl
  | write target dot attr equals value =>
    rw [Stmt.yield, Stmt.head, Stmt.tail, Postfix.yield, List.append_assoc]
    rfl
  | bare value => rw [Stmt.yield, Stmt.head, Stmt.tail, List.append_nil]

/-- The rest of a statement, or the end of its line, follows an expression. -/
theorem Stmt.follows_tail (stmt : Stmt) (newline : Token .newline) (rest : List Lexeme) :
    Follows (stmt.tail ++ newline.1 :: rest) := by
  intro l hl
  cases stmt with
  | assign target equals value =>
    obtain rfl := Option.some.inj hl
    exact Or.inr (Or.inl equals.2)
  | write target dot attr equals value =>
    obtain rfl := Option.some.inj hl
    exact Or.inr (Or.inl equals.2)
  | bare value =>
    obtain rfl := Option.some.inj hl
    exact Or.inr (Or.inr (Or.inl newline.2))

/-- A statement is derived from its lexemes in one way, and it ends at only one end of a line. -/
theorem Stmt.yield_append_inj {a b : Stmt} {x y : Token .newline} {s t : List Lexeme}
    (h : a.yield ++ x.1 :: s = b.yield ++ y.1 :: t) : a = b ∧ x = y ∧ s = t := by
  have follows (newline : Token .newline) (r : List Lexeme) : Follows (newline.1 :: r) := by
    intro l hl
    obtain rfl := Option.some.inj hl
    exact Or.inr (Or.inr (Or.inl newline.2))
  have apart {equals : Token .equals} {newline : Token .newline} {r r' : List Lexeme}
      (h : equals.1 :: r = newline.1 :: r') : False := by
    have hterminal := congrArg Lexeme.terminal (List.cons.inj h).1
    rw [equals.2, newline.2] at hterminal
    cases hterminal
  rw [a.yield_eq, b.yield_eq, List.append_assoc, List.append_assoc] at h
  obtain ⟨hhead, htail⟩ :=
    Script.yield_append_inj (a.follows_tail x s) (b.follows_tail y t) h
  have heads := Postfix.yield_inj _ _ hhead
  -- What stands before the line's end, if it starts alike and goes on alike, is of one kind.
  have values {equals equals' : Token .equals} {value value' : Postfix}
      (h : equals.1 :: (value.yield ++ x.1 :: s) = equals'.1 :: (value'.yield ++ y.1 :: t)) :
      equals = equals' ∧ value = value' ∧ x = y ∧ s = t := by
    obtain ⟨hequals, h⟩ := List.cons.inj h
    obtain ⟨hvalue, h⟩ := Script.yield_append_inj (follows x s) (follows y t) h
    obtain ⟨hnewline, hrest⟩ := List.cons.inj h
    exact ⟨Subtype.ext hequals, Postfix.yield_inj _ _ hvalue, Subtype.ext hnewline, hrest⟩
  cases a with
  | assign target equals value =>
    cases b with
    | assign target' equals' value' =>
      obtain ⟨hequals, hvalue, hrest⟩ := values htail
      obtain rfl := Postfix.name.inj heads
      rw [hequals, hvalue]
      exact ⟨rfl, hrest⟩
    | write target' dot attr equals' value' => cases heads
    | bare value' => exact (apart htail).elim
  | write target dot attr equals value =>
    cases b with
    | assign target' equals' value' => cases heads
    | write target' dot' attr' equals' value' =>
      obtain ⟨hequals, hvalue, hrest⟩ := values htail
      obtain ⟨rfl, rfl, rfl⟩ := Postfix.member.inj heads
      rw [hequals, hvalue]
      exact ⟨rfl, hrest⟩
    | bare value' => exact (apart htail).elim
  | bare value =>
    cases b with
    | assign target' equals' value' => exact (apart htail.symm).elim
    | write target' dot attr equals' value' => exact (apart htail.symm).elim
    | bare value' =>
      obtain ⟨hnewline, hrest⟩ := List.cons.inj htail
      obtain rfl : value = value' := heads
      exact ⟨rfl, Subtype.ext hnewline, hrest⟩

/-- A statement does not start with the end of a line. -/
theorem Stmt.yield_append_ne (stmt : Stmt) (newline : Token .newline) (s t : List Lexeme) :
    stmt.yield ++ s ≠ newline.1 :: t := by
  intro h
  obtain ⟨l, rest, hl⟩ := List.exists_cons_of_ne_nil stmt.head.yield_ne_nil
  have refused := stmt.head.not_newline l (by rw [hl]; exact List.mem_cons_self)
  rw [stmt.yield_eq, hl] at h
  obtain rfl := (List.cons.inj h).1
  exact refused newline.2

/-- No two derivations derive the same script. -/
theorem Program.yield_inj {a b : Program} (h : a.yield = b.yield) : a = b := by
  induction a generalizing b with
  | nil =>
    cases b with
    | nil => rfl
    | cons row b => exact absurd h.symm (Program.yield_cons_ne_nil row b)
  | cons row a ih =>
    obtain ⟨stmt, newline⟩ := row
    cases b with
    | nil => exact absurd h (Program.yield_cons_ne_nil _ a)
    | cons row' b =>
      obtain ⟨stmt', newline'⟩ := row'
      -- An empty line begins with a line end and a statement does not.
      cases stmt with
      | none =>
        cases stmt' with
        | none =>
          obtain ⟨hnewline, hrest⟩ := List.cons.inj h
          rw [Subtype.ext hnewline, ih hrest]
        | some stmt' =>
          rw [Program.yield_cons_none, Program.yield_cons_some] at h
          exact absurd h.symm (stmt'.yield_append_ne newline _ _)
      | some stmt =>
        cases stmt' with
        | none =>
          rw [Program.yield_cons_none, Program.yield_cons_some] at h
          exact absurd h (stmt.yield_append_ne newline' _ _)
        | some stmt' =>
          rw [Program.yield_cons_some, Program.yield_cons_some] at h
          obtain ⟨rfl, rfl, hrest⟩ := Stmt.yield_append_inj h
          rw [ih hrest]

end Derivation

end Packaging.Script