import Packaging.Proofs.Json.Layouts

/-! # Values are read back
A sound value without doubles is read back from its written form, in every layout whose separators
read as such. -/

namespace Packaging.Json

/-! ## Parts that read as values -/

/-- Whether a reader who looks ahead goes on to read a value: at no blank, no bracket that closes a
list and no byte order mark. -/
def startsValue (c : CodePoint) : Bool :=
  !isBlank c && c != CodePoint.ofChar ']' && c.val != 0xfeff

/-- What a value may start with: no blank, no closing bracket and no byte order mark. -/
theorem startsValue_iff {c : CodePoint} :
    startsValue c = true ↔
      isBlank c = false ∧ c ≠ CodePoint.ofChar ']' ∧ c.val ≠ 0xfeff := by
  simp [startsValue, and_assoc]

/-- A text that reads as a value, whatever follows it. -/
structure Reads (t : Text) (v : Json) : Prop where
  /-- The text starts like a value. -/
  starts : ∃ c u, t = c :: u ∧ startsValue c = true
  /-- The value is read, and nothing more. -/
  read {fuel : Nat} {r : Text} (enough : t.length ≤ fuel) (ends : EndsNumeral r) :
    readValue fuel (t ++ r) = .ok (v, r)

/-- There is always a step left to spend, for the text is not empty. -/
theorem Reads.of_cons {c : CodePoint} {t : Text} {v : Json} (starts : startsValue c = true)
    (read : ∀ {fuel : Nat} {r : Text}, t.length ≤ fuel → EndsNumeral r →
      readValue (fuel + 1) (c :: (t ++ r)) = .ok (v, r)) : Reads (c :: t) v where
  starts := ⟨c, t, rfl, starts⟩
  read {fuel r} enough ends := by
    cases fuel with
    | zero => cases enough
    | succ fuel => exact read (Nat.le_of_succ_le_succ enough) ends

/-- What starts neither a string nor an array nor an object is read as a value without parts. -/
theorem readValue_of_scalar {c : CodePoint} (quote : c ≠ CodePoint.ofChar '"')
    (brace : c.val ≠ 0x7b) (bracket : c ≠ CodePoint.ofChar '[') (fuel : Nat) (r : Text) :
    readValue (fuel + 1) (c :: r) = readScalar (c :: r) := by
  rw [readValue, if_neg quote, if_neg brace, if_neg bracket]

/-- The null value reads as written. -/
theorem reads_null : Reads "null" null :=
  .of_cons rfl fun _ _ =>
    readValue_of_scalar (by decide) (by decide) (by decide) _ _

/-- Truth values read as written. -/
theorem reads_bool (b : Bool) : Reads (if b then "true" else "false") (bool b) := by
  cases b with
  | true =>
    exact .of_cons rfl fun _ _ =>
      readValue_of_scalar (by decide) (by decide) (by decide) _ _
  | false =>
    exact .of_cons rfl fun _ _ =>
      readValue_of_scalar (by decide) (by decide) (by decide) _ _

/-- Integers that are not too long read as written. -/
theorem reads_int {n : Int} (short : (Text.ofNat n.natAbs).length ≤ Integer.maxDigits) :
    Reads (Text.ofInt n) (int n) := by
  obtain ⟨c, t, numeral, first⟩ : ∃ c t, Text.ofInt n = c :: t ∧
      (c.isDigit = true ∨ c = CodePoint.ofChar '-') := by
    cases n with
    | ofNat n =>
      obtain ⟨c, t, numeral, digit⟩ := Text.exists_ofNat_eq n
      exact ⟨c, t, numeral, .inl digit⟩
    | negSucc n => exact ⟨_, _, rfl, .inr rfl⟩
  have value : 0x30 ≤ c.val ∧ c.val ≤ 0x39 ∨ c.val = 0x2d := by
    rcases first with digit | rfl
    · exact .inl (by simpa [CodePoint.isDigit, CodePoint.isBetween] using digit)
    · exact .inr rfl
  have other {d : CodePoint} (h : d.val < 0x2d ∨ d.val = 0x2e ∨ d.val = 0x2f ∨ 0x39 < d.val) :
      c ≠ d := by
    rintro rfl
    omega
  have blank : isBlank c = false := by
    rw [← Bool.not_eq_true]
    simp only [isBlank, Bool.or_eq_true, beq_iff_eq]
    omega
  have starts : startsValue c = true :=
    startsValue_iff.2 ⟨blank, other (by decide), by omega⟩
  -- The sign or the first digit tells the numeral from everything else that may start here.
  rw [numeral]
  refine .of_cons starts fun {fuel r} _ ends => ?_
  rw [readValue_of_scalar (other (by decide)) (by omega) (other (by decide)), ← List.cons_append,
    ← numeral]
  exact readScalar_ofInt ends short

/-- A string is read back up to its closing quote. -/
theorem exists_writeText_eq {t : Text} (joined : t.Joined) :
    ∃ u, writeText t = CodePoint.ofChar '"' :: u ∧
      ∀ start r, readString start ⟨[], false⟩ (u ++ r) = .ok (t, r) := by
  refine ⟨t.flatMap escape ++ [CodePoint.ofChar '"'], rfl, fun start r => ?_⟩
  have nothing_pending : (⟨[], false⟩ : Partial).pending = true →
      ∀ c ∈ t.head?, c.isLowSurrogate = false := by
    intro pending
    cases pending
  rw [List.append_assoc]
  exact readString_flatMap_escape start joined ⟨[], false⟩ nothing_pending r

/-- Joined texts read as written. -/
theorem reads_text {t : Text} (joined : t.Joined) : Reads (writeText t) (text t) := by
  obtain ⟨u, written, read⟩ := exists_writeText_eq joined
  rw [written]
  refine .of_cons rfl fun {fuel r} _ _ => ?_
  rw [readValue, if_pos rfl, read]

section Containers

variable {layout : Layout} (legible : layout.Legible)

include legible

/-- **Items are read back after those before them.** By induction on the items: after each comes
either the closing bracket or a comma, and neither goes on with a numeral. -/
theorem readItems_block (depth fuel : Nat) (done : List Json) (r : Text) {part : Text}
    {parts : List Text} {v : Json} {items : List Json} (first : Reads part v)
    (rest : List.Forall₂ Reads parts items)
    (enough : (layout.rows depth (part :: parts)).length < fuel) :
    readItems fuel done (layout.block depth (part :: parts) (CodePoint.ofChar ']') r) =
      .ok (array (done.reverse ++ v :: items), r) := by
  induction rest generalizing part v fuel done with
  | nil =>
    obtain ⟨fuel, rfl⟩ := Nat.exists_eq_add_one.2 (Nat.zero_lt_of_lt enough)
    rw [rows_singleton] at enough
    rw [block_singleton, readItems,
      first.read (Nat.lt_succ_iff.1 enough) (endsNumeral_lineBreak (.inl rfl))]
    simp only [skipBlanks_lineBreak (show isBlank (CodePoint.ofChar ']') = false from rfl),
      ↓reduceIte, List.reverse_cons]
  | @cons next w parts items second _ ih =>
    obtain ⟨fuel, rfl⟩ := Nat.exists_eq_add_one.2 (Nat.zero_lt_of_lt enough)
    have lengths := length_rows_cons_cons depth legible part next parts
    obtain ⟨blanks, block, all⟩ :=
      exists_block_eq depth (CodePoint.ofChar ']') r legible part next parts
    have comma : isBlank (CodePoint.ofChar ',') = false := rfl
    have more : CodePoint.ofChar ',' ≠ CodePoint.ofChar ']' := by decide
    obtain ⟨c, t, rfl, starts⟩ := second.starts
    have blank := (startsValue_iff.1 starts).1
    -- The next part starts like a value, so only the blanks before it are skipped.
    rw [block, readItems, first.read (by omega) (endsNumeral_cons (.inr (.inl rfl)) _)]
    simp only [skipBlanks_cons comma, if_neg more, skipBlanks_block all blank, ↓reduceIte]
    rw [ih fuel (v :: done) second (by omega), List.reverse_cons, List.append_assoc]
    rfl

/-- Parts that read as items read as the array of them, once they are enclosed. -/
theorem reads_array {depth : Nat} {parts : List Text} {items : List Json}
    (all : List.Forall₂ Reads parts items) :
    Reads (layout.enclose depth "[" "]" parts) (array items) := by
  cases all with
  | nil => exact .of_cons rfl fun {fuel r} _ _ => rfl
  | @cons part v parts items first rest =>
    rw [show (Text.ofString "[") = [CodePoint.ofChar '['] from rfl,
      show (Text.ofString "]") = [CodePoint.ofChar ']'] from rfl,
      enclose_of_ne_nil (List.cons_ne_nil part parts)]
    refine .of_cons rfl fun {fuel r} enough _ => ?_
    have lengths := length_rows_lt_block layout depth (CodePoint.ofChar ']') [] (part :: parts)
    rw [List.length_append] at enough
    have read := readItems_block legible depth fuel [] r first rest (by omega)
    obtain ⟨c, t, rfl, start⟩ := first.starts
    obtain ⟨blank, bracket, -⟩ := startsValue_iff.1 start
    obtain ⟨u, starts⟩ := exists_block_cons_eq layout depth (CodePoint.ofChar ']') r c t parts
    rw [List.append_assoc, block_append, List.nil_append, readValue, if_neg (by decide),
      if_neg (by decide), if_pos rfl, skipBlanks_block isBlank_of_mem_lineBreak blank, starts]
    rw [starts] at read
    exact (if_neg bracket).trans read

/-- How a member is written, its value being so already. -/
def Layout.writeMember (layout : Layout) (part : Text × Text) : Text :=
  Text.concat [writeText part.1, layout.keySeparator, part.2]

omit legible in
/-- A written member starts with the quote of its key. -/
theorem exists_writeMember_eq (layout : Layout) (part : Text × Text) :
    ∃ u, layout.writeMember part = CodePoint.ofChar '"' :: u := ⟨_, rfl⟩

/-- A key and a text that read as a member. -/
structure ReadsMember (part : Text × Text) (m : Text × Json) : Prop where
  /-- The keys are the same. -/
  key : part.1 = m.1
  /-- Nothing in the key is left to join. -/
  joined : part.1.Joined
  /-- The text reads as the value. -/
  value : Reads part.2 m.2

/-- A written member is read, and what follows it says whether there are more. -/
theorem readMembers_member {part : Text × Text} {m : Text × Json} (h : ReadsMember part m)
    {fuel : Nat} {done : Members} {r r' : Text} {c : CodePoint}
    (enough : (layout.writeMember part).length ≤ fuel) (ends : EndsNumeral r)
    (next : skipBlanks r = c :: r') :
    readMembers (fuel + 1) done (layout.writeMember part ++ r) =
      if c.val = 0x7d then .ok (object (done.set m.1 m.2), r')
      else if c = CodePoint.ofChar ',' then readMembers fuel (done.set m.1 m.2) (skipBlanks r')
      else .error (.malformed .expectingComma (c :: r')) := by
  obtain ⟨key, value⟩ := part
  obtain ⟨k, v⟩ := m
  obtain ⟨(rfl : key = k), joined, read⟩ := h
  obtain ⟨u, written, readKey⟩ := exists_writeText_eq joined
  obtain ⟨blanks, separator, all⟩ := legible.key
  have skip : skipBlanks (blanks ++ (value ++ r)) = value ++ r := by
    obtain ⟨d, t, rfl, starts⟩ := read.starts
    refine skipBlanks_append all ?_
    intro e he
    rw [← Option.some.inj he]
    exact (startsValue_iff.1 starts).1
  -- A member is written as its key, a colon, blanks and its value, and it is read in that order.
  have whole : layout.writeMember (key, value) =
      CodePoint.ofChar '"' :: (u ++ CodePoint.ofChar ':' :: (blanks ++ value)) := by
    simp [Layout.writeMember, Text.concat, written, separator]
  have colon : isBlank (CodePoint.ofChar ':') = false := rfl
  have short : value.length ≤ fuel := by
    rw [whole, List.length_cons, List.length_append, List.length_cons, List.length_append] at enough
    omega
  rw [whole, List.cons_append, List.append_assoc, List.cons_append, List.append_assoc, readMembers,
    if_pos rfl, readKey]
  simp only [skipBlanks_cons colon, skip, read.read short ends, next, ↓reduceIte]

/-- **Members are read back after those before them,** as long as no key comes twice. -/
theorem readMembers_block (depth fuel : Nat) (done : Members) (r : Text) {part : Text × Text}
    {parts : List (Text × Text)} {m : Text × Json} {members : Members} (first : ReadsMember part m)
    (rest : List.Forall₂ ReadsMember parts members)
    (distinct : ((done ++ m :: members).map (·.1)).Nodup)
    (enough : (layout.rows depth ((part :: parts).map layout.writeMember)).length < fuel)
    {closing : CodePoint} (brace : closing.val = 0x7d) :
    readMembers fuel done (layout.block depth ((part :: parts).map layout.writeMember) closing r) =
      .ok (object (done ++ m :: members), r) := by
  have closing_blank : isBlank closing = false := by simp [isBlank, brace]
  induction rest generalizing part m fuel done with
  | nil =>
    obtain ⟨fuel, rfl⟩ := Nat.exists_eq_add_one.2 (Nat.zero_lt_of_lt enough)
    rw [List.map_singleton, rows_singleton] at enough
    rw [List.map_singleton, block_singleton, readMembers_member legible first
      (Nat.lt_succ_iff.1 enough) (endsNumeral_lineBreak (.inr brace))
      (skipBlanks_lineBreak closing_blank), if_pos brace, Bindings.set_of_nodup distinct]
  | @cons next n parts members second _ ih =>
    obtain ⟨fuel, rfl⟩ := Nat.exists_eq_add_one.2 (Nat.zero_lt_of_lt enough)
    have lengths := length_rows_cons_cons depth legible (layout.writeMember part)
      (layout.writeMember next) (parts.map layout.writeMember)
    obtain ⟨blanks, block, all⟩ := exists_block_eq depth closing r legible
      (layout.writeMember part) (layout.writeMember next) (parts.map layout.writeMember)
    obtain ⟨u, quote⟩ := exists_writeMember_eq layout next
    rw [List.map_cons, List.map_cons] at enough
    rw [List.map_cons, List.map_cons, block, readMembers_member legible first (by omega)
      (endsNumeral_cons (.inr (.inl rfl)) _) (skipBlanks_cons rfl _), if_neg (by decide),
      if_pos rfl, quote, skipBlanks_block all rfl, ← quote, Bindings.set_of_nodup distinct,
      ← List.map_cons]
    -- The member that was read comes behind those before it, so the keys are still distinct.
    have distinct' : ((done ++ [m] ++ n :: members).map (·.1)).Nodup := by simpa using distinct
    rw [ih fuel (done ++ [m]) second distinct' (by rw [List.map_cons]; omega)]
    simp

/-- Parts that read as members of different names read as the object of them, once they are
enclosed. -/
theorem reads_object {depth : Nat} {parts : List (Text × Text)} {members : Members}
    (all : List.Forall₂ ReadsMember parts members) (distinct : (members.map (·.1)).Nodup) :
    Reads (layout.enclose depth "\x7b" "\x7d" (parts.map layout.writeMember)) (object members) := by
  cases all with
  | nil => exact .of_cons rfl fun {fuel r} _ _ => rfl
  | @cons part m parts members first rest =>
    rw [show (Text.ofString "\x7b") = [CodePoint.ofNat 0x7b] from rfl,
      show (Text.ofString "\x7d") = [CodePoint.ofNat 0x7d] from rfl,
      enclose_of_ne_nil (List.map_eq_nil_iff.not.2 (List.cons_ne_nil part parts))]
    refine .of_cons rfl fun {fuel r} enough _ => ?_
    have lengths := length_rows_lt_block layout depth (CodePoint.ofNat 0x7d) []
      ((part :: parts).map layout.writeMember)
    rw [List.length_append] at enough
    have read := readMembers_block legible depth fuel [] r first rest distinct (by omega)
      (show (CodePoint.ofNat 0x7d).val = 0x7d from rfl)
    obtain ⟨u, quote⟩ := exists_writeMember_eq layout part
    rw [List.map_cons, quote] at read ⊢
    obtain ⟨w, starts⟩ := exists_block_cons_eq layout depth (CodePoint.ofNat 0x7d) r
      (CodePoint.ofChar '"') u (parts.map layout.writeMember)
    rw [List.append_assoc, block_append, List.nil_append, readValue, if_neg (by decide),
      if_pos (show (CodePoint.ofNat 0x7b).val = 0x7b from rfl),
      skipBlanks_block isBlank_of_mem_lineBreak rfl, starts]
    rw [starts] at read
    exact (if_neg (by decide)).trans read

end Containers

/-! ## Written values -/

/-- The values without doubles. -/
inductive DoubleFree : Json → Prop
  /-- The absent value. -/
  | null : DoubleFree null
  /-- A truth value. -/
  | bool (b : Bool) : DoubleFree (bool b)
  /-- An integer. -/
  | int (n : Int) : DoubleFree (int n)
  /-- A text. -/
  | text (t : Text) : DoubleFree (text t)
  /-- A list of such values. -/
  | array {items : List Json} (all : ∀ v ∈ items, DoubleFree v) : DoubleFree (array items)
  /-- An object of such values. -/
  | object {members : Members} (all : ∀ m ∈ members, DoubleFree m.2) : DoubleFree (object members)

/-- Bindings in the order in which a layout writes them. -/
def Layout.order {α : Type} (layout : Layout) (members : List (Text × α)) : List (Text × α) :=
  if layout.sorted then members.mergeSort fun a b => a.1.le b.1 else members

mutual

/-- A value with the members of every object in the order in which a layout writes them. -/
def arrange (layout : Layout) : Json → Json
  | array items => array (arrangeItems layout items)
  | object members => object (layout.order (arrangeMembers layout members))
  | null => null
  | bool b => bool b
  | int n => int n
  | float x => float x
  | text t => text t

/-- The items of a list, each arranged. -/
def arrangeItems (layout : Layout) : List Json → List Json
  | [] => []
  | v :: rest => arrange layout v :: arrangeItems layout rest

/-- The members of an object with their values arranged. -/
def arrangeMembers (layout : Layout) : List (Text × Json) → List (Text × Json)
  | [] => []
  | (k, v) :: rest => (k, arrange layout v) :: arrangeMembers layout rest

end

section Order

variable {α β : Type} (layout : Layout)

/-- A layout writes all members, in an order of its own. -/
theorem order_perm (members : List (Text × α)) : (layout.order members).Perm members := by
  rw [Layout.order]
  split
  · exact List.mergeSort_perm _ _
  · exact .refl _

/-- The order of members is a matter of their names. -/
theorem order_map (f : α → β) (members : List (Text × α)) :
    layout.order (members.map fun m => (m.1, f m.2)) =
      (layout.order members).map fun m => (m.1, f m.2) := by
  rw [Layout.order, Layout.order]
  split
  · exact (List.map_mergeSort (f := fun m : Text × α => (m.1, f m.2)) fun _ _ _ _ => rfl).symm
  · rfl

end Order

section Written

variable {layout : Layout}

/-- Items are written one by one. -/
theorem writeItems_eq_map (depth : Nat) (items : List Json) :
    writeItems layout depth items = items.map (writeAt layout depth) := by
  induction items with
  | nil => rfl
  | cons v items ih => rw [writeItems, ih, List.map_cons]

/-- Items are arranged one by one. -/
theorem arrangeItems_eq_map (items : List Json) :
    arrangeItems layout items = items.map (arrange layout) := by
  induction items with
  | nil => rfl
  | cons v items ih => rw [arrangeItems, ih, List.map_cons]

/-- The values of members are written one by one. -/
theorem writeMembers_eq_map (depth : Nat) (members : Members) :
    writeMembers layout depth members = members.map fun m => (m.1, writeAt layout depth m.2) := by
  induction members with
  | nil => rfl
  | cons m members ih => rw [writeMembers, ih, List.map_cons]

/-- The values of members are arranged one by one. -/
theorem arrangeMembers_eq_map (members : Members) :
    arrangeMembers layout members = members.map fun m => (m.1, arrange layout m.2) := by
  induction members with
  | nil => rfl
  | cons m members ih => rw [arrangeMembers, ih, List.map_cons]

/-- A written object is its members in the layout's order, each written, between braces. -/
theorem writeAt_object (depth : Nat) (members : Members) :
    writeAt layout depth (object members) = layout.enclose depth "\x7b" "\x7d"
      (((layout.order members).map fun m => (m.1, writeAt layout (depth + 1) m.2)).map
        layout.writeMember) := by
  rw [writeAt, ← order_map, ← writeMembers_eq_map]
  rfl

/-- An arranged object has its members in the layout's order, each arranged. -/
theorem arrange_object (members : Members) :
    arrange layout (object members) =
      object ((layout.order members).map fun m => (m.1, arrange layout m.2)) := by
  rw [arrange, ← order_map, ← arrangeMembers_eq_map]

/-- **A sound value without doubles reads as itself, arranged as it was written.** By induction on
the value: its items and members are read one after the other. -/
theorem reads_writeAt (legible : layout.Legible) {v : Json} (sound : Sound v)
    (plain : DoubleFree v) (depth : Nat) : Reads (writeAt layout depth v) (v.arrange layout) := by
  -- The depth is general, for items and members stand one deeper.
  induction sound generalizing depth with
  | null => exact reads_null
  | bool b => exact reads_bool b
  | int short => exact reads_int short
  | float x => cases plain
  | text joined => exact reads_text joined
  | @array items _ ih =>
    cases plain with
    | array plain =>
      rw [writeAt, arrange, writeItems_eq_map, arrangeItems_eq_map]
      refine reads_array legible ?_
      rw [List.forall₂_map_left_iff, List.forall₂_map_right_iff, List.forall₂_same]
      exact fun v hv => ih v hv (plain v hv) (depth + 1)
  | @object members distinct keys _ ih =>
    cases plain with
    | object plain =>
      have perm := order_perm layout members
      rw [writeAt_object, arrange_object]
      refine reads_object legible ?_ ?_
      · rw [List.forall₂_map_left_iff, List.forall₂_map_right_iff, List.forall₂_same]
        intro m hm
        have hm := perm.mem_iff.1 hm
        exact ⟨rfl, keys m hm, ih m hm (plain m hm) (depth + 1)⟩
      · rw [List.map_map]
        exact (perm.map (·.1)).nodup_iff.2 distinct

end Written

/-- **A document is read back.** Blanks after it do not matter. -/
theorem read_write {layout : Layout} (legible : layout.Legible) {v : Json} (sound : Sound v)
    (plain : DoubleFree v) {blanks : Text} (all : ∀ c ∈ blanks, isBlank c = true) :
    read (v.write layout ++ blanks) = .ok (v.arrange layout) := by
  have reads := reads_writeAt legible sound plain 0
  have ends : EndsNumeral blanks := by
    cases blanks with
    | nil => exact endsNumeral_nil
    | cons c _ => exact endsNumeral_cons (.inl (all c List.mem_cons_self)) _
  have enough : (v.write layout).length ≤ (v.write layout ++ blanks).length + 1 := by
    rw [List.length_append]
    omega
  have value := reads.read enough ends
  have nothing : skipBlanks blanks = [] := List.dropWhile_eq_nil_iff.2 all
  obtain ⟨c, t, written, starts⟩ := reads.starts
  obtain ⟨blank, -, mark⟩ := startsValue_iff.1 starts
  have whole : readAll (v.write layout ++ blanks) = .ok (v.arrange layout) := by
    rw [write, written, List.cons_append] at value ⊢
    rw [readAll, if_neg mark, skipBlanks_cons blank, value]
    simp only [nothing]
  rw [read, whole]

end Packaging.Json
