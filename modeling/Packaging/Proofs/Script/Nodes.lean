import Packaging.Proofs.Script.Trees

/-! # Nodes and what they are derived from
Each node of a tree is built by one part of the derivation, a part that is no parentheses. The node
stands at the first lexeme of that part, and the parts of a node are among the lexemes of the node.
So where nodes stand is a matter of where lexemes stand. -/

namespace Packaging.Script

/-! ## Nodes -/

mutual

/-- An expression and all expressions in it, each before those in it. -/
def Expr.nodes : Expr → List Expr
  | .literal value spot => [.literal value spot]
  | .name ident spot => [.name ident spot]
  | .member base attr spot => .member base attr spot :: base.nodes
  | .call func args keywords spot =>
    .call func args keywords spot :: (Expr.nodesAll args ++ Expr.nodesNamed keywords)

/-- The nodes of some expressions. -/
def Expr.nodesAll : List Expr → List Expr
  | [] => []
  | e :: es => e.nodes ++ Expr.nodesAll es

/-- The nodes of some named expressions. -/
def Expr.nodesNamed : List (Text × Expr) → List Expr
  | [] => []
  | (_, e) :: es => e.nodes ++ Expr.nodesNamed es

end

/-- All expressions in a statement, those of the target before those of the value. -/
def Statement.nodes : Statement → List Expr
  | .assign _ value _ => value.nodes
  | .write target _ value _ => target.nodes ++ value.nodes
  | .bare value _ => value.nodes

namespace Derivation

mutual

/-- The parts of a derivation that build nodes, each before those in it. -/
def Postfix.nodes : Postfix → List Postfix
  | .string l => [.string l]
  | .integer l => [.integer l]
  | .keyword l => [.keyword l]
  | .name l => [.name l]
  | .group _ inner _ => inner.nodes
  | .member base dot attr => .member base dot attr :: base.nodes
  | .call func opening closing => [.call func opening closing]
  | .callWith func opening arguments closing =>
    .callWith func opening arguments closing :: arguments.nodes

/-- The parts of arguments that build nodes. -/
def Arguments.nodes : Arguments → List Postfix
  | .last argument => argument.nodes
  | .lastWithComma argument _ => argument.nodes
  | .more argument _ rest => argument.nodes ++ rest.nodes

/-- The parts of an argument that build nodes. -/
def Arg.nodes : Arg → List Postfix
  | .positional value => value.nodes
  | .keyword _ _ value => value.nodes

end

/-- The parts of a statement that build nodes. -/
def Stmt.nodes : Stmt → List Postfix
  | .assign _ _ value => value.nodes
  | .write target _ _ _ value => target.nodes ++ value.nodes
  | .bare value => value.nodes

/-- Whether an expression has no parentheses around all of it. -/
def Postfix.IsBare : Postfix → Prop
  | .group _ _ _ => False
  | _ => True

section

variable [CharacterNames]

/-- Whether a node is what a derivation without parentheses around it builds. -/
structure Postfix.BuildsNode (d : Postfix) (e : Expr) : Prop where
  /-- It is what is built. -/
  built : d.Builds e
  /-- There are no parentheses around it. -/
  bare : d.IsBare

/-! ## One part for each node -/

/-- The node that a part builds has the spot where the part starts. -/
theorem Postfix.BuildsNode.spot_eq {d : Postfix} {e : Expr} (h : d.BuildsNode e) :
    e.spot = d.start.spot := by
  obtain ⟨built, bare⟩ := h
  cases built with
  | group built => exact bare.elim
  | _ => rfl

mutual

/-- **Each node is built by a part of its own.** -/
theorem Postfix.forall₂_nodes (d : Postfix) {e : Expr} (h : d.Builds e) :
    List.Forall₂ Postfix.BuildsNode d.nodes e.nodes := by
  cases h with
  | string evaluates =>
    rw [Postfix.nodes, Expr.nodes]
    exact .cons ⟨.string evaluates, trivial⟩ .nil
  | numeral unsigned short =>
    rw [Postfix.nodes, Expr.nodes]
    exact .cons ⟨.numeral unsigned short, trivial⟩ .nil
  | negative signed short =>
    rw [Postfix.nodes, Expr.nodes]
    exact .cons ⟨.negative signed short, trivial⟩ .nil
  | keyword isValue =>
    rw [Postfix.nodes, Expr.nodes]
    exact .cons ⟨.keyword isValue, trivial⟩ .nil
  | name =>
    rw [Postfix.nodes, Expr.nodes]
    exact .cons ⟨.name, trivial⟩ .nil
  -- Parentheses are no node of their own; they only pass on those of what they hold.
  | @group opening inner closing e built =>
    rw [Postfix.nodes]
    exact inner.forall₂_nodes built
  | @member base dot attr e built =>
    rw [Postfix.nodes, Expr.nodes]
    exact .cons ⟨.member built, trivial⟩ (base.forall₂_nodes built)
  | call =>
    rw [Postfix.nodes, Expr.nodes, Expr.nodesAll, Expr.nodesNamed]
    exact .cons ⟨.call, trivial⟩ .nil
  | @callWith func opening arguments closing args named built distinct =>
    rw [Postfix.nodes, Expr.nodes]
    exact .cons ⟨.callWith built distinct, trivial⟩ (arguments.forall₂_nodes built)
termination_by structural d

/-- Each part of some arguments builds one node of their trees, in order. -/
theorem Arguments.forall₂_nodes (a : Arguments) {args : List Expr} {named : List (Text × Expr)}
    (h : a.Builds args named) :
    List.Forall₂ Postfix.BuildsNode a.nodes (Expr.nodesAll args ++ Expr.nodesNamed named) := by
  have none : List.Forall₂ Postfix.BuildsNode [] (Expr.nodesAll [] ++ Expr.nodesNamed []) := by
    rw [Expr.nodesAll, Expr.nodesNamed]
    exact .nil
  cases h with
  | @last argument _ _ built =>
    rw [Arguments.nodes, ← List.append_nil argument.nodes]
    exact argument.forall₂_nodes built none
  | @lastWithComma argument comma _ _ built =>
    rw [Arguments.nodes, ← List.append_nil argument.nodes]
    exact argument.forall₂_nodes built none
  | @more argument comma rest _ _ _ _ others built =>
    rw [Arguments.nodes]
    exact argument.forall₂_nodes built (rest.forall₂_nodes others)
termination_by structural a

/-- Each part of an argument builds one node of its tree, ahead of those after it. -/
theorem Arg.forall₂_nodes (a : Arg) {args args' : List Expr} {named named' : List (Text × Expr)}
    (h : a.Builds args named args' named') {others : List Postfix}
    (rest : List.Forall₂ Postfix.BuildsNode others
      (Expr.nodesAll args ++ Expr.nodesNamed named)) :
    List.Forall₂ Postfix.BuildsNode (a.nodes ++ others)
      (Expr.nodesAll args' ++ Expr.nodesNamed named') := by
  cases h with
  | @positional value e _ _ built =>
    rw [Arg.nodes, Expr.nodesAll, List.append_assoc]
    exact List.rel_append (value.forall₂_nodes built) rest
  | @keyword name equals value e named built =>
    rw [Arg.nodes, Expr.nodesNamed, Expr.nodesAll, List.nil_append]
    rw [Expr.nodesAll, List.nil_append] at rest
    exact List.rel_append (value.forall₂_nodes built) rest
termination_by structural a

end

/-- Each node of a statement is built by a part of its own. -/
theorem Stmt.forall₂_nodes (stmt : Stmt) {statement : Statement} (h : stmt.Builds statement) :
    List.Forall₂ Postfix.BuildsNode stmt.nodes statement.nodes := by
  cases h with
  | @assign target equals value e built => exact value.forall₂_nodes built
  | @write target dot attr equals value base e target_built built =>
    exact List.rel_append (target.forall₂_nodes target_built) (value.forall₂_nodes built)
  | @bare value e built => exact value.forall₂_nodes built

end

/-- Each element on the right has a partner on the left. -/
theorem exists_of_mem_right {α β : Type} {R : α → β → Prop} {as : List α} {bs : List β}
    (h : List.Forall₂ R as bs) {b : β} (mem : b ∈ bs) : ∃ a ∈ as, R a b := by
  induction h with
  | nil => cases mem
  | @cons a c as bs first others ih =>
    rcases List.mem_cons.1 mem with rfl | mem
    · exact ⟨a, List.mem_cons_self, first⟩
    · obtain ⟨a', ha', related⟩ := ih mem
      exact ⟨a', List.mem_cons_of_mem _ ha', related⟩

/-! ## The lexemes of a part -/

/-- A derivation starts where its first lexeme is. -/
theorem Postfix.exists_first (d : Postfix) :
    ∃ l rest, d.yield = l :: rest ∧ d.start = l.place := by
  cases d with
  | member base dot attr =>
    obtain ⟨l, rest, hyield, hstart⟩ := base.exists_first
    exact ⟨l, rest ++ [dot.1, attr.1], by rw [Postfix.yield, hyield, List.cons_append], hstart⟩
  | _ => exact ⟨_, _, by rw [Postfix.yield], rfl⟩
termination_by structural d

mutual

/-- The lexemes of a part are lexemes of the whole, in the same order. -/
theorem Postfix.sublist_of_mem_nodes (d : Postfix) {part : Postfix} (h : part ∈ d.nodes) :
    part.yield.Sublist d.yield := by
  cases d with
  | group opening inner closing =>
    rw [Postfix.nodes] at h
    rw [Postfix.yield]
    exact ((inner.sublist_of_mem_nodes h).trans (List.sublist_append_left _ _)).cons _
  | member base dot attr =>
    rw [Postfix.nodes] at h
    rcases List.mem_cons.1 h with rfl | h
    · exact List.Sublist.refl _
    · rw [Postfix.yield]
      exact (base.sublist_of_mem_nodes h).trans (List.sublist_append_left _ _)
  | callWith func opening arguments closing =>
    rw [Postfix.nodes] at h
    rcases List.mem_cons.1 h with rfl | h
    · exact List.Sublist.refl _
    · rw [Postfix.yield]
      exact (((arguments.sublist_of_mem_nodes h).trans
        (List.sublist_append_left _ _)).cons _).cons _
  | _ =>
    rw [Postfix.nodes] at h
    rw [List.mem_singleton.1 h]
termination_by structural d

/-- The lexemes of a part of arguments stand among theirs, in order. -/
theorem Arguments.sublist_of_mem_nodes (a : Arguments) {part : Postfix} (h : part ∈ a.nodes) :
    part.yield.Sublist a.yield := by
  cases a with
  | last argument =>
    rw [Arguments.nodes] at h
    rw [Arguments.yield]
    exact argument.sublist_of_mem_nodes h
  | lastWithComma argument comma =>
    rw [Arguments.nodes] at h
    rw [Arguments.yield]
    exact (argument.sublist_of_mem_nodes h).trans (List.sublist_append_left _ _)
  | more argument comma rest =>
    rw [Arguments.nodes] at h
    rw [Arguments.yield]
    rcases List.mem_append.1 h with h | h
    · exact (argument.sublist_of_mem_nodes h).trans (List.sublist_append_left _ _)
    · exact ((rest.sublist_of_mem_nodes h).cons _).trans (List.sublist_append_right _ _)
termination_by structural a

/-- The lexemes of a part of an argument stand among its lexemes, in order. -/
theorem Arg.sublist_of_mem_nodes (a : Arg) {part : Postfix} (h : part ∈ a.nodes) :
    part.yield.Sublist a.yield := by
  cases a with
  | positional value =>
    rw [Arg.nodes] at h
    rw [Arg.yield]
    exact value.sublist_of_mem_nodes h
  | keyword name equals value =>
    rw [Arg.nodes] at h
    rw [Arg.yield]
    exact ((value.sublist_of_mem_nodes h).cons _).cons _
termination_by structural a

end

/-- The lexemes of a part of a statement are lexemes of the statement, in the same order. -/
theorem Stmt.sublist_of_mem_nodes (stmt : Stmt) {part : Postfix} (h : part ∈ stmt.nodes) :
    part.yield.Sublist stmt.yield := by
  cases stmt with
  | assign target equals value => exact ((value.sublist_of_mem_nodes h).cons _).cons _
  | write target dot attr equals value =>
    rcases List.mem_append.1 h with h | h
    · exact (target.sublist_of_mem_nodes h).trans (List.sublist_append_left _ _)
    · exact ((((value.sublist_of_mem_nodes h).cons _).cons _).cons _).trans
        (List.sublist_append_right _ _)
  | bare value => exact value.sublist_of_mem_nodes h

/-- A statement starts where its first lexeme is, parentheses included. -/
theorem Stmt.exists_first [CharacterNames] (stmt : Stmt) {statement : Statement}
    (h : stmt.Builds statement) :
    ∃ l rest, stmt.yield = l :: rest ∧ statement.spot = l.place.spot := by
  cases h with
  | @assign target equals value e built => exact ⟨target.1, _, rfl, rfl⟩
  | @write target dot attr equals value base e target_built built =>
    obtain ⟨l, rest, hyield, hstart⟩ := target.exists_first
    refine ⟨l, _, by rw [Stmt.yield, hyield, List.cons_append], ?_⟩
    rw [Statement.spot, hstart]
  | @bare value e built =>
    obtain ⟨l, rest, hyield, hstart⟩ := value.exists_first
    refine ⟨l, rest, hyield, ?_⟩
    rw [Statement.spot, hstart]

end Derivation

end Packaging.Script
