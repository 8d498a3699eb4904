import Packaging.Proofs.Session.Attributes

/-! # Snapshots of contexts
The report of a wrapper shows all of its context. Whatever is read in a context with explicit places
and truth values can be written again, and puts back what was there. So the collection attributes
in the report of one wrapper, written to another in whatever order, give it the context of the
first. -/

namespace Packaging

/-! ## Writing what is read -/

namespace Attribute

/-- What a context holds in the field of an attribute. -/
def held (c : Context) : (a : Attribute) → a.Held
  | location => c.location
  | fallback => c.fallback
  | included => c.included
  | source => c.storeSource
  | optimizeLevelZero => c.optimizeLevelZero
  | optimizeLevelOne => c.optimizeLevelOne
  | optimizeLevelTwo => c.optimizeLevelTwo

/-- What is read in a context with explicit places and truth values can be written, and it puts what
that context holds into any other. -/
theorem write_read {c : Context} (placed : c.Placed) (switched : c.Switched) (typeName : Text)
    (c' : Context) (a : Attribute) :
    a.write typeName c' (.plain (a.read c)) = .ok (a.put (a.held c) c') := by
  obtain ⟨⟨place, hlocation⟩, hfallback⟩ := placed
  obtain ⟨included, source, zero, one, two⟩ := switched
  -- A truth value is its own truth.
  have flag {data : Json} (isBool : data.IsBool) : Json.bool data.isTrue = data := by
    obtain ⟨b, rfl⟩ := isBool
    rfl
  cases a with
  | location =>
    rw [write, read, hlocation, Location.decode_toJson]
    simp only [put, held, hlocation]
  | fallback =>
    cases found : c.fallback with
    | none =>
      rw [write, read, found]
      simp only [put, held, found]
      rfl
    | some l =>
      obtain ⟨second, rfl⟩ := hfallback l found
      have decoded := Location.decode_toJson (.concrete second)
      rw [Location.toJson] at decoded
      rw [write, read, found, Option.bind_some, decoded]
      simp only [put, held, found]
  | included => exact congrArg (fun x => Except.ok (put .included x c')) (flag included)
  | source => exact congrArg (fun x => Except.ok (put .source x c')) (flag source)
  | optimizeLevelZero => exact congrArg (fun x => Except.ok (put .optimizeLevelZero x c')) (flag zero)
  | optimizeLevelOne => exact congrArg (fun x => Except.ok (put .optimizeLevelOne x c')) (flag one)
  | optimizeLevelTwo => exact congrArg (fun x => Except.ok (put .optimizeLevelTwo x c')) (flag two)

/-- All fields together are the whole context. -/
theorem foldl_put_held (c c' : Context) :
    all.foldl (fun other a => a.put (a.held c) other) c' = c := by
  simp only [all, List.foldl_cons, List.foldl_nil, put, held]

end Attribute

/-! ## Snapshots -/

namespace Wrapper

/-- The collection attributes in the report of a wrapper, as writes of what is reported. -/
def snapshot (w : Wrapper) : List Write :=
  (w.report.filter fun entry => (Attribute.ofName? entry.1).isSome).map fun entry =>
    ⟨entry.1, .plain entry.2⟩

/-- Nothing that a record holds is a collection attribute. -/
theorem filter_heldAttributes (record : Record) :
    (heldAttributes record).filter (fun entry => (Attribute.ofName? entry.1).isSome) = [] := by
  cases record with
  | _ => rfl

/-- The snapshot of a wrapper whose kind has contexts is what is read in each attribute. -/
theorem snapshot_eq {w : Wrapper} (has : w.kind.hasContext = true) :
    w.snapshot = Attribute.all.map fun a => ⟨a.name, .plain (w.read a)⟩ := by
  have type : (Attribute.ofName? typeKey).isSome = false := rfl
  have kept : (Attribute.all.map fun a => (a.name, w.read a)).filter
      (fun entry => (Attribute.ofName? entry.1).isSome) =
        Attribute.all.map fun a => (a.name, w.read a) := by
    refine List.filter_eq_self.2 fun entry mem => ?_
    obtain ⟨a, -, rfl⟩ := List.mem_map.1 mem
    rw [Attribute.ofName?_name]
    rfl
  rw [snapshot, report, has, List.cons_append, List.filter_cons_of_neg (by simp [type]),
    List.filter_append, filter_heldAttributes, List.nil_append, if_pos rfl, kept, List.map_map]
  rfl

/-- The attributes of a snapshot are pairwise different. -/
theorem nodup_snapshot {w : Wrapper} (has : w.kind.hasContext = true) :
    (w.snapshot.map (·.attr)).Nodup := by
  rw [snapshot_eq has, List.map_map]
  exact Attribute.nodup_names

section Restoring

variable {w w' : Wrapper} {c c' : Context}

/-- Writing what is read in some attributes puts what the context holds in them. -/
theorem afterAll_read (placed : c.Placed) (switched : c.Switched)
    (has : w'.kind.hasContext = true) (attrs : List Attribute) :
    afterAll { w' with context := some c' }
        (attrs.map fun a => ⟨a.name, .plain (a.read c)⟩) =
      { w' with context := some (attrs.foldl (fun other a => a.put (a.held c) other) c') } := by
  induction attrs generalizing c' with
  | nil => rfl
  | cons a rest ih =>
    have first : after { w' with context := some c' } ⟨a.name, .plain (a.read c)⟩ =
        { w' with context := some (a.put (a.held c) c') } := by
      have kind : ({ w' with context := some c' } : Wrapper).kind.hasContext = true := has
      rw [after, set_name kind rfl, Attribute.write_read placed switched]
    rw [List.map_cons, afterAll, List.foldl_cons, first]
    exact ih

/-- A snapshot that is written in whatever order gives its context. -/
theorem afterAll_snapshot (hasContext : w.kind.hasContext = true) (context : w.context = some c)
    (placed : c.Placed) (switched : c.Switched) (kind : w'.kind = w.kind)
    (present : w'.context = some c') {writes : List Write} (perm : writes.Perm w.snapshot) :
    w'.afterAll writes = { w' with context := w.context } := by
  have reads : w.snapshot = Attribute.all.map fun a => ⟨a.name, .plain (a.read c)⟩ := by
    rw [snapshot_eq hasContext]
    simp only [read, context]
  have whole : w' = { w' with context := some c' } := by rw [← present]
  rw [afterAll_of_perm w' perm (nodup_snapshot hasContext), reads, whole,
    afterAll_read placed switched (kind ▸ hasContext), Attribute.foldl_put_held, context]

/-- Every write of a snapshot is accepted. -/
theorem outcomes_snapshot (hasContext : w.kind.hasContext = true) (context : w.context = some c)
    (placed : c.Placed) (switched : c.Switched) (kind : w'.kind = w.kind)
    (present : w'.context = some c') {writes : List Write} (perm : writes.Perm w.snapshot) :
    w'.outcomes writes = writes.map fun _ => .ok () := by
  have has : w'.kind.hasContext = true := kind ▸ hasContext
  rw [outcomes_eq_map has present]
  refine List.map_congr_left fun write mem => ?_
  have entry := perm.mem_iff.1 mem
  rw [snapshot_eq hasContext] at entry
  obtain ⟨a, -, rfl⟩ := List.mem_map.1 entry
  rw [outcome, set_name has present, read, context]
  dsimp only
  rw [Attribute.write_read placed switched]
  rfl

end Restoring

/-! ## Reports -/

/-- The report of a wrapper whose kind has contexts tells what is read in each attribute. -/
theorem get?_report_name {w : Wrapper} (has : w.kind.hasContext = true) (a : Attribute) :
    Bindings.get? w.report a.name = some (w.read a) :=
  (Bindings.get?_eq_some_iff_mem w.nodup_report).2
    (mem_report_iff.2 (Or.inr (Or.inr ⟨has, a, rfl, rfl⟩)))

/-- Wrappers that tell the same of every attribute have the same snapshot. -/
theorem snapshot_congr {v w : Wrapper} (hv : v.kind.hasContext = true)
    (hw : w.kind.hasContext = true)
    (same : ∀ key, Bindings.get? v.report key = Bindings.get? w.report key) :
    v.snapshot = w.snapshot := by
  rw [snapshot_eq hv, snapshot_eq hw]
  refine List.map_congr_left fun a _ => ?_
  have told := same a.name
  rw [get?_report_name hv, get?_report_name hw] at told
  rw [Option.some.inj told]

/-- A report tells of the record and of the context, and of nothing else. -/
theorem report_congr {v w : Wrapper} (record : v.record = w.record)
    (context : v.context = w.context) : v.report = w.report := by
  obtain ⟨record', context', emptied⟩ := v
  obtain rfl : record' = w.record := record
  obtain rfl : context' = w.context := context
  rfl

/-! ## Wrappers that are configured -/

/-- A wrapper that a policy whose flags are truth values has been applied to, and that may have been
written to since. -/
inductive Configured : Wrapper → Prop
  /-- A policy has been applied, whatever the wrapper was before. -/
  | applied {w w' : Wrapper} {p : Policy} (switched : p.Switched)
      (applied : w.applyPolicy p = .ok w') : Configured w'
  /-- It has been written to, be the write accepted or refused. -/
  | written {w : Wrapper} (before : Configured w) (write : Write) : Configured (w.after write)

/-- A wrapper that is configured has a context with explicit places and truth values. -/
theorem Configured.exists_context {w : Wrapper} (h : w.Configured) :
    ∃ c, w.context = some c ∧ c.Placed ∧ c.Switched := by
  induction h with
  | @applied w w' p switched applied =>
    rw [applyPolicy] at applied
    split at applied
    · next c derived =>
      obtain rfl := Except.ok.inj applied
      exact ⟨c, rfl, Policy.placed_of_derive derived, Policy.switched_of_derive switched derived⟩
    · cases applied
  | @written w before write ih =>
    rw [after]
    split
    · next w' accepted =>
      obtain ⟨-, a, c, c', -, context, puts, rfl⟩ := set_eq_ok_iff.1 accepted
      obtain ⟨d, context', placed, switched⟩ := ih
      obtain rfl := Option.some.inj (context.symm.trans context')
      exact ⟨c', rfl, Attribute.placed_of_write puts placed,
        Attribute.switched_of_write puts switched⟩
    · exact ih

end Wrapper

/-- **A snapshot restores the context.** The collection attributes in the report of a wrapper that a
policy with truth values as flags has been applied to, whatever has been written to it since, can
be written to any wrapper of its kind that has a context, in any order: every write is accepted, and
all of them give that wrapper the context of the first and change nothing else. So of two such
wrappers with the same record the reports tell the same exactly if the contexts are the same. -/
theorem snapshot_restores_context {w w' : Wrapper} {c' : Context}
    (hasContext : w.kind.hasContext = true) (configured : w.Configured) (kind : w'.kind = w.kind)
    (present : w'.context = some c') :
    w.snapshot.map (·.attr) = Attribute.names ∧
    (∀ writes : List Write, writes.Perm w.snapshot →
      w'.outcomes writes = writes.map (fun _ => .ok ()) ∧
        w'.afterAll writes = { w' with context := w.context }) ∧
    ∀ v : Wrapper, v.Configured → v.record = w.record →
      ((∀ key, Bindings.get? v.report key = Bindings.get? w.report key) ↔
        v.context = w.context) := by
  obtain ⟨c, context, placed, switched⟩ := configured.exists_context
  refine ⟨?_, fun writes perm => ⟨?_, ?_⟩, fun v vConfigured record => ⟨fun same => ?_, ?_⟩⟩
  · rw [Wrapper.snapshot_eq hasContext, List.map_map]
    rfl
  · exact Wrapper.outcomes_snapshot hasContext context placed switched kind present perm
  · exact Wrapper.afterAll_snapshot hasContext context placed switched kind present perm
  · -- What is told alike is written alike, and so it gives one context.
    obtain ⟨d, vContext, vPlaced, vSwitched⟩ := vConfigured.exists_context
    have vKind : v.kind = w.kind := congrArg Record.kind record
    have vHas : v.kind.hasContext = true := vKind ▸ hasContext
    have restored := Wrapper.afterAll_snapshot hasContext context placed switched kind present
      (List.Perm.refl _)
    rw [← Wrapper.snapshot_congr vHas hasContext same, Wrapper.afterAll_snapshot vHas vContext vPlaced
      vSwitched (kind.trans vKind.symm) present (List.Perm.refl _)] at restored
    exact congrArg (fun u => u.context) restored
  · intro same key
    rw [Wrapper.report_congr record same]

/-- A module whose fallback has been taken away gives its context to another module, which had one of
its own with a number for a flag; the snapshot is written from the last entry to the first. -/
theorem module_context_is_restored :
    let policy : Policy := { fallback := .location (.concrete (.filesystemRelative "lib")) }
    let bare : Wrapper := { record := .moduleSource { name := "m", source := .bytes [] } }
    let own : Context := { location := .concrete (.filesystemRelative "own"), included := .int 3 }
    let other : Wrapper := ⟨.moduleSource { name := "n", source := .bytes [] }, some own, false⟩
    ∃ w : Wrapper, bare.applyPolicy policy = .ok w ∧
      let module := w.after ⟨Attribute.fallback.name, .plain .null⟩
      module.kind.hasContext = true ∧ module.Configured ∧ other.kind = module.kind ∧
        other.context = some own ∧
        other.afterAll module.snapshot.reverse = { other with context := module.context } := by
  intro policy bare own other
  have switched : policy.Switched := fun f => by cases f <;> exact ⟨_, rfl⟩
  refine ⟨_, rfl, rfl, ?_⟩
  have configured := (Wrapper.Configured.applied (w := bare) switched rfl).written
    ⟨Attribute.fallback.name, .plain .null⟩
  exact ⟨configured, rfl, rfl,
    ((snapshot_restores_context rfl configured (show other.kind = _ from rfl) rfl).2.1 _
      (List.reverse_perm _)).2⟩

end Packaging
