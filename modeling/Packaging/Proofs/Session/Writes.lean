import Packaging.Proofs.Session.Aliases

/-! # Writes one after the other
A wrapper may be written to many times, and some of the writes may be refused. Whether a write is
accepted is a matter of its attribute and its value alone, and it puts the same into every context.
So an attribute is read as the value of the last write to it that was accepted, and writes to
different attributes may be made in any order. -/

namespace Packaging

/-! ## What an attribute takes -/

namespace Location

/-- Whether a value is the text of an explicit place. -/
def isPlace : Value → Bool
  | .plain (.text t) => t == inMemoryText || filesystemText.isPrefixOf t
  | _ => false

/-- Whether a value stands for the default location. -/
def isDefault : Value → Bool
  | .plain .null => true
  | .plain (.text t) => t == defaultText
  | _ => false

/-- What is the text of an explicit place is what is decoded to one. -/
theorem isPlace_eq (value : Value) :
    isPlace value = (decode value matches .ok (.concrete _)) := by
  rw [Bool.eq_iff_iff]
  constructor
  · intro h
    rw [isPlace.eq_def] at h
    split at h
    · next t =>
      rw [Bool.or_eq_true, beq_iff_eq, List.isPrefixOf_iff_prefix] at h
      rcases h with rfl | ⟨directory, rfl⟩
      · rfl
      · have decoded := decode_toJson (.concrete (.filesystemRelative directory))
        rw [show decode (.plain (.text (filesystemText ++ directory))) = _ from decoded]
    · cases h
  · intro h
    split at h
    · next place decoded =>
      rw [decode_eq_concrete_iff.1 decoded, isPlace, Bool.or_eq_true, beq_iff_eq,
        List.isPrefixOf_iff_prefix]
      cases place with
      | inMemory => exact Or.inl rfl
      | filesystemRelative directory => exact Or.inr ⟨directory, rfl⟩
    · cases h

/-- What stands for the default location is what is decoded to it. -/
theorem isDefault_eq (value : Value) :
    isDefault value = (decode value matches .ok .default) := by
  rw [Bool.eq_iff_iff]
  constructor
  · intro h
    rw [isDefault.eq_def] at h
    split at h
    · rfl
    · next t =>
      obtain rfl := beq_iff_eq.1 h
      rfl
    · cases h
  · intro h
    split at h
    · next decoded =>
      rcases decode_eq_default_iff.1 decoded with rfl | rfl
      · rfl
      · exact beq_self_eq_true _
    · cases h

end Location

namespace Attribute

/-- Whether an attribute takes a value: a location takes the texts of explicit places, a fallback
takes the default location too, and flags take everything. -/
def takes : Attribute → Value → Bool
  | location, value => Location.isPlace value
  | fallback, value => Location.isPlace value || Location.isDefault value
  | _, _ => true

/-- What the field of an attribute holds. -/
def Held : Attribute → Type
  | location => Location
  | fallback => Option Location
  | included | source | optimizeLevelZero | optimizeLevelOne | optimizeLevelTwo => Json

/-- A context with something put in the field of an attribute. -/
def put : (a : Attribute) → a.Held → Context → Context
  | location, l, c => { c with location := l }
  | fallback, l, c => { c with fallback := l }
  | included, flag, c => { c with included := flag }
  | source, flag, c => { c with storeSource := flag }
  | optimizeLevelZero, flag, c => { c with optimizeLevelZero := flag }
  | optimizeLevelOne, flag, c => { c with optimizeLevelOne := flag }
  | optimizeLevelTwo, flag, c => { c with optimizeLevelTwo := flag }

/-- Each attribute has a field of its own. -/
theorem put_comm {a b : Attribute} (other : a ≠ b) (x : a.Held) (y : b.Held) (c : Context) :
    a.put x (b.put y c) = b.put y (a.put x c) := by
  cases a with
  | _ =>
    cases b with
    | _ => first | rfl | exact absurd rfl other

/-- **What an attribute takes it puts into every context alike**, and what it does not take it
refuses for every context alike. -/
theorem write_cases (a : Attribute) (typeName : Text) (value : Value) :
    (a.takes value = true ∧ ∃ x : a.Held, ∀ c, a.write typeName c value = .ok (a.put x c)) ∨
      (a.takes value = false ∧ ∃ d, ∀ c, a.write typeName c value = .error d) := by
  -- The two attributes that are about locations decode the value first; flags take its truth.
  cases a with
  | location =>
    cases decoded : Location.decode value with
    | error refusal =>
      refine Or.inr ⟨?_, _, fun c => by rw [write, decoded]⟩
      rw [takes, Location.isPlace_eq, decoded]
    | ok l =>
      cases l with
      | default =>
        refine Or.inr ⟨?_, _, fun c => by rw [write, decoded]⟩
        rw [takes, Location.isPlace_eq, decoded]
      | concrete place =>
        refine Or.inl ⟨?_, .concrete place, fun c => by rw [write, decoded]; rfl⟩
        rw [takes, Location.isPlace_eq, decoded]
  | fallback =>
    cases decoded : Location.decode value with
    | error refusal =>
      refine Or.inr ⟨?_, _, fun c => by rw [write, decoded]⟩
      rw [takes, Location.isPlace_eq, Location.isDefault_eq, decoded]
      rfl
    | ok l =>
      cases l with
      | default =>
        refine Or.inl ⟨?_, none, fun c => by rw [write, decoded]; rfl⟩
        rw [takes, Location.isPlace_eq, Location.isDefault_eq, decoded]
        rfl
      | concrete place =>
        refine Or.inl ⟨?_, some (.concrete place), fun c => by rw [write, decoded]; rfl⟩
        rw [takes, Location.isPlace_eq, Location.isDefault_eq, decoded]
        rfl
  | included | source | optimizeLevelZero | optimizeLevelOne | optimizeLevelTwo =>
    exact Or.inl ⟨rfl, Json.bool value.isTrue, fun c => rfl⟩

end Attribute

/-! ## One write -/

/-- A write to a wrapper: the name of an attribute, be there one or not, and a value. -/
structure Write where
  /-- The name of the attribute. -/
  attr : Text
  /-- The value. -/
  value : Value

/-- Whether a write is accepted: there is such an attribute, and it takes the value. -/
def Write.accepted (write : Write) : Bool :=
  (Attribute.ofName? write.attr).any fun a => a.takes write.value

/-- The value of the last accepted write to an attribute. -/
def Write.lastAccepted? (a : Attribute) (writes : List Write) : Option Value :=
  ((writes.filter fun write => write.attr = a.name && write.accepted).getLast?).map value

/-- An accepted write is the last one to its attribute; a refused one is passed over. -/
theorem Write.lastAccepted?_concat (a : Attribute) (writes : List Write) (write : Write) :
    lastAccepted? a (writes ++ [write]) =
      if write.attr = a.name && write.accepted then some write.value
      else lastAccepted? a writes := by
  rw [lastAccepted?, lastAccepted?, List.filter_append]
  split
  · next counts =>
    rw [List.filter_cons_of_pos (by simpa using counts), List.filter_nil, List.getLast?_concat]
    rfl
  · next passed =>
    rw [List.filter_cons_of_neg (by simpa using passed), List.filter_nil, List.append_nil]

namespace Wrapper

/-- What becomes of a write: nothing but a change, or the failure that refuses it. -/
def outcome (w : Wrapper) (write : Write) : Except Failure Unit :=
  (w.set write.attr write.value).map fun _ => ()

/-- A wrapper after a write; one that is refused leaves it as it was. -/
def after (w : Wrapper) (write : Write) : Wrapper :=
  match w.set write.attr write.value with
  | .ok w' => w'
  | .error _ => w

/-- A wrapper after some writes, one after the other. -/
def afterAll (w : Wrapper) (writes : List Write) : Wrapper := writes.foldl after w

/-- What becomes of some writes, one after the other. -/
def outcomes (w : Wrapper) : List Write → List (Except Failure Unit)
  | [] => []
  | write :: rest => w.outcome write :: (w.after write).outcomes rest

/-- A wrapper that can have a context is written to through the one it has. -/
theorem set_of_context {w : Wrapper} {c : Context} (has : w.kind.hasContext = true)
    (context : w.context = some c) (attr : Text) (value : Value) :
    w.set attr value =
      match Attribute.ofName? attr with
      | some a =>
        match a.write w.typeName c value with
        | .ok c' => .ok { w with context := some c' }
        | .error d => .error d
      | none =>
        .error (Diagnostic.unsupportedAttribute w.typeName attr Diagnostic.Access.set.operation
          Attribute.names) := by
  rw [set, has, Bool.true_and]
  cases found : Attribute.ofName? attr with
  | none => rw [collectionNames, has]; rfl
  | some a =>
    rw [if_pos (Option.isSome_some), setCollection, found]
    obtain ⟨record, slot, emptied⟩ := w
    obtain rfl : slot = some c := context
    rfl

/-- **A write is accepted or refused by all wrappers of a kind alike**, whatever their contexts are.
An accepted one puts the same into the field of its attribute. -/
theorem set_cases (k : Kind) (has : k.hasContext = true) (write : Write) :
    (write.accepted = true ∧ ∃ (a : Attribute) (x : a.Held), write.attr = a.name ∧
        (∀ c, a.write k.typeName c write.value = .ok (a.put x c)) ∧
        ∀ (w : Wrapper) (c : Context), w.kind = k → w.context = some c →
          w.set write.attr write.value = .ok { w with context := some (a.put x c) }) ∨
      (write.accepted = false ∧ ∃ failure, ∀ (w : Wrapper) (c : Context), w.kind = k →
        w.context = some c → w.set write.attr write.value = .error failure) := by
  cases found : Attribute.ofName? write.attr with
  | none =>
    refine Or.inr ⟨by rw [Write.accepted, found]; rfl, Diagnostic.unsupportedAttribute k.typeName
      write.attr Diagnostic.Access.set.operation Attribute.names, ?_⟩
    rintro w c rfl context
    rw [set_of_context has context, found, typeName]
  | some a =>
    have accepted : write.accepted = a.takes write.value := by
      rw [Write.accepted, found]
      rfl
    -- Whether a write is taken depends on the attribute and the value, not on the context.
    rcases a.write_cases k.typeName write.value with ⟨takes, x, puts⟩ | ⟨refuses, d, fails⟩
    · refine Or.inl ⟨accepted.trans takes, a, x, (Attribute.name_of_ofName? found).symm, puts, ?_⟩
      rintro w c rfl context
      rw [set_of_context has context, found]
      dsimp only
      rw [typeName, puts]
    · refine Or.inr ⟨accepted.trans refuses, d, ?_⟩
      rintro w c rfl context
      rw [set_of_context has context, found]
      dsimp only
      rw [typeName, fails]

section OneWrite

variable {w : Wrapper} {c : Context}

/-- **What one write does.** It leaves everything but the context, and in this changes at most what
its own attribute is read as. -/
theorem exists_after (has : w.kind.hasContext = true) (context : w.context = some c)
    (write : Write) :
    ∃ c', w.after write = { w with context := some c' } ∧
      ∀ a : Attribute, a.read c' =
        if write.attr = a.name && write.accepted then a.normal write.value else a.read c := by
  rcases set_cases w.kind has write with
    ⟨accepted, a, x, attr, puts, succeeds⟩ | ⟨refused, failure, fails⟩
  · refine ⟨a.put x c, by rw [after, succeeds w c rfl context], fun b => ?_⟩
    rw [accepted, Bool.and_true, attr]
    by_cases same : a = b
    · subst same
      simp only [decide_true, if_true]
      exact Attribute.read_write_self (puts c)
    · have names : a.name ≠ b.name := fun h => same (Attribute.name_injective h)
      simp only [decide_eq_true_eq, names, if_false]
      exact Attribute.read_write_of_ne (puts c) (Ne.symm same)
  · refine ⟨c, by rw [after, fails w c rfl context, ← context], fun b => ?_⟩
    rw [refused, Bool.and_false]
    rfl

/-- The outcome of a write is the same for all wrappers of a kind that have a context. -/
theorem outcome_congr {w' : Wrapper} {c' : Context} (has : w.kind.hasContext = true)
    (context : w.context = some c) (kind : w'.kind = w.kind) (context' : w'.context = some c')
    (write : Write) : w'.outcome write = w.outcome write := by
  rcases set_cases w.kind has write with
    ⟨-, a, x, -, -, succeeds⟩ | ⟨-, failure, fails⟩
  · rw [outcome, outcome, succeeds w c rfl context, succeeds w' c' kind context']
    rfl
  · rw [outcome, outcome, fails w c rfl context, fails w' c' kind context']

/-- A write succeeds exactly if it is accepted. -/
theorem isOk_outcome (has : w.kind.hasContext = true) (context : w.context = some c)
    (write : Write) : (w.outcome write).isOk = write.accepted := by
  rcases set_cases w.kind has write with
    ⟨accepted, a, x, -, -, succeeds⟩ | ⟨refused, failure, fails⟩
  · rw [outcome, succeeds w c rfl context, accepted]
    rfl
  · rw [outcome, fails w c rfl context, refused]
    rfl

/-- A wrapper without a context is not changed by any write. -/
theorem after_of_lacking (lacks : ¬ (w.kind.hasContext = true ∧ ∃ c, w.context = some c))
    (write : Write) : w.after write = w := by
  rw [after]
  split
  · next w' accepted =>
    obtain ⟨has, _, c, _, _, context, -, -⟩ := set_eq_ok_iff.1 accepted
    exact absurd ⟨has, c, context⟩ lacks
  · rfl

/-- Whatever context a wrapper has, a write puts the same into the field of its attribute, or it
changes nothing. -/
theorem exists_change (has : w.kind.hasContext = true) (write : Write) :
    ∃ change : Context → Context,
      (∀ c, after { w with context := some c } write = { w with context := some (change c) }) ∧
        (change = id ∨
          ∃ (a : Attribute) (x : a.Held), write.attr = a.name ∧ change = a.put x) := by
  rcases set_cases w.kind has write with ⟨-, a, x, attr, -, succeeds⟩ | ⟨-, failure, fails⟩
  · refine ⟨a.put x, fun c => ?_, Or.inr ⟨a, x, attr, rfl⟩⟩
    rw [after, succeeds { w with context := some c } c rfl rfl]
  · refine ⟨id, fun c => ?_, Or.inl rfl⟩
    rw [after, fails { w with context := some c } c rfl rfl]
    rfl

/-- **Writes to different attributes commute.** -/
theorem after_comm (w : Wrapper) {x y : Write} (other : x.attr ≠ y.attr) :
    (w.after x).after y = (w.after y).after x := by
  by_cases lacks : ¬ (w.kind.hasContext = true ∧ ∃ c, w.context = some c)
  · rw [after_of_lacking lacks, after_of_lacking lacks, after_of_lacking lacks]
  · obtain ⟨has, c, context⟩ := not_not.1 lacks
    obtain ⟨f, first, fields⟩ := exists_change has x
    obtain ⟨g, second, fields'⟩ := exists_change has y
    have commute : g (f c) = f (g c) := by
      rcases fields with rfl | ⟨a, u, hx, rfl⟩
      · rfl
      · rcases fields' with rfl | ⟨b, v, hy, rfl⟩
        · rfl
        · refine Attribute.put_comm (fun same => other ?_) v u c
          rw [hx, hy, same]
    have whole : w = { w with context := some c } := by rw [← context]
    rw [whole, first, second, second, first, commute]

end OneWrite

/-! ## Many writes -/

section Writes

variable {w : Wrapper} {c : Context}

/-- One write more is done last. -/
theorem afterAll_concat (w : Wrapper) (writes : List Write) (write : Write) :
    w.afterAll (writes ++ [write]) = (w.afterAll writes).after write := by
  rw [afterAll, List.foldl_append]
  rfl

/-- Writes behind others are done behind them. -/
theorem afterAll_append (w : Wrapper) (writes others : List Write) :
    w.afterAll (writes ++ others) = (w.afterAll writes).afterAll others := List.foldl_append

/-- **What many writes do.** They leave everything but the context, and in this each attribute is
read as the value of the last accepted write to it. -/
theorem exists_afterAll (has : w.kind.hasContext = true) (context : w.context = some c)
    (writes : List Write) :
    ∃ c', w.afterAll writes = { w with context := some c' } ∧
      ∀ a : Attribute,
        a.read c' = ((Write.lastAccepted? a writes).map a.normal).getD (a.read c) := by
  -- By induction from the end, for the last write counts first.
  induction writes using List.reverseRecOn with
  | nil => exact ⟨c, by rw [← context]; rfl, fun a => rfl⟩
  | append_singleton writes write ih =>
    obtain ⟨c', before, reads⟩ := ih
    obtain ⟨c'', last, reads'⟩ :=
      exists_after (w := { w with context := some c' }) has rfl write
    refine ⟨c'', by rw [afterAll_concat, before, last], fun a => ?_⟩
    rw [reads', reads, Write.lastAccepted?_concat]
    split <;> rfl

/-- Each write comes to what it would come to by itself. -/
theorem outcomes_eq_map (has : w.kind.hasContext = true) (context : w.context = some c)
    (writes : List Write) : w.outcomes writes = writes.map w.outcome := by
  induction writes generalizing w c with
  | nil => rfl
  | cons write rest ih =>
    obtain ⟨c', first, -⟩ := exists_after has context write
    rw [outcomes, first, ih (w := { w with context := some c' }) has rfl, List.map_cons]
    congr 1
    refine List.map_congr_left fun other _ => ?_
    have kind : ({ w with context := some c' } : Wrapper).kind = w.kind := rfl
    exact outcome_congr has context kind rfl other

/-- Writes to pairwise different attributes may be made in any order. -/
theorem afterAll_of_perm (w : Wrapper) {writes writes' : List Write} (same : writes'.Perm writes)
    (different : (writes.map (·.attr)).Nodup) : w.afterAll writes' = w.afterAll writes := by
  refine (same.symm.foldl_eq' (fun x hx y hy v => ?_) w).symm
  by_cases equal : x = y
  · rw [equal]
  · exact after_comm v fun attr => equal (List.inj_on_of_nodup_map different hx hy attr)

/-- What is no collection attribute is read as before. -/
theorem get_of_context {files : Files} {attr : Text} (h : Attribute.ofName? attr = none)
    (c : Context) : get files { w with context := some c } attr = w.get files attr := by
  rw [get, get, h]
  simp only [Option.isSome_none, Bool.and_false]
  rfl

end Writes

end Wrapper

/-- **The last accepted write to an attribute is what is read.** After any writes to a wrapper that
has a context, a collection attribute is read as the value of the last accepted write to it, in its
normal form, or as before if none was accepted; everything else is read as before. Whether a write
is accepted is a matter of its attribute and its value, not of the context or of other writes. So
writes to pairwise different attributes may be made in any order, with other writes before and
behind them. -/
theorem last_accepted_write_is_read {w : Wrapper} {c : Context} (files : Files)
    (has : w.kind.hasContext = true) (context : w.context = some c) :
    (∀ writes : List Write,
      (∀ a : Attribute, (w.afterAll writes).get files a.name =
        match Write.lastAccepted? a writes with
        | some value => .ok (a.normal value)
        | none => w.get files a.name) ∧
      (∀ attr, Attribute.ofName? attr = none →
        (w.afterAll writes).get files attr = w.get files attr) ∧
      (w.afterAll writes).record = w.record ∧
      (w.outcomes writes).map Except.isOk = writes.map Write.accepted ∧
      ∀ (w' : Wrapper) (c' : Context), w'.kind = w.kind → w'.context = some c' →
        w'.outcomes writes = writes.map w.outcome) ∧
    ∀ before block block' behind : List Write, block'.Perm block →
      (block.map (·.attr)).Nodup →
      w.afterAll (before ++ block' ++ behind) = w.afterAll (before ++ block ++ behind) ∧
        ((before ++ block' ++ behind).zip (w.outcomes (before ++ block' ++ behind))).Perm
          ((before ++ block ++ behind).zip (w.outcomes (before ++ block ++ behind))) := by
  constructor
  · intro writes
    obtain ⟨c', after, reads⟩ := Wrapper.exists_afterAll has context writes
    refine ⟨fun a => ?_, fun attr unknown => ?_, ?_, ?_, ?_⟩
    · rw [after, Wrapper.get_name_of_context has, reads, Wrapper.get_name has, Wrapper.read,
        context]
      cases Write.lastAccepted? a writes with
      | none => rfl
      | some value => rfl
    · rw [after, Wrapper.get_of_context unknown]
    · rw [after]
    · rw [Wrapper.outcomes_eq_map has context, List.map_map]
      exact List.map_congr_left fun write _ => Wrapper.isOk_outcome has context write
    · intro w' c' kind context'
      rw [Wrapper.outcomes_eq_map (kind ▸ has) context']
      exact List.map_congr_left fun write _ =>
        Wrapper.outcome_congr has context kind context' write
  · intro before block block' behind same different
    constructor
    · rw [Wrapper.afterAll_append, Wrapper.afterAll_append, Wrapper.afterAll_append,
        Wrapper.afterAll_append, Wrapper.afterAll_of_perm _ same different]
    -- An outcome is one of the write alone, so each write may be paired with its own.
    · have paired (l : List Write) :
          l.zip (w.outcomes l) = l.map fun write => (write, w.outcome write) := by
        rw [Wrapper.outcomes_eq_map has context, List.zip, List.zipWith_map_right,
          List.zipWith_self]
      rw [paired, paired]
      exact ((same.append_left before).append_right behind).map _

/-- A location is written, a refused write to it is passed over, and so is a write to an attribute
that cannot be written. -/
theorem location_survives_refused_writes :
    let w : Wrapper := ⟨.moduleSource { name := "m", source := .bytes [] }, some {}, false⟩
    let writes : List Write := [⟨"add_include", .plain (.text [])⟩,
      ⟨"add_location", .plain (.text "filesystem-relative:lib")⟩, ⟨"name", .plain (.text "n")⟩,
      ⟨"add_location", .plain .null⟩]
    w.kind.hasContext = true ∧ w.context = some {} ∧
      writes.map Write.accepted = [true, true, false, false] ∧
      ∀ files, (w.afterAll writes).get files "add_location" =
          .ok (.text "filesystem-relative:lib") ∧
        (w.afterAll writes).get files "add_include" = .ok (.bool false) ∧
        (w.afterAll writes).get files "name" = .ok (.text "m") := by
  intro w writes
  refine ⟨rfl, rfl, by decide +kernel, fun files => ?_⟩
  obtain ⟨reads, others, -⟩ := (last_accepted_write_is_read (w := w) files rfl rfl).1 writes
  refine ⟨?_, ?_, ?_⟩
  · exact reads .location
  · exact reads .included
  · exact others "name" (by decide +kernel)

end Packaging
