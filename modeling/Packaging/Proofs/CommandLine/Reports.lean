import Packaging.Proofs.CommandLine.Runs
import Packaging.Proofs.Policy.Printing
import Packaging.Proofs.Session.Resources

/-! # JSON reports
The JSON report of a session is one line of printable ASCII. Reading it gives the resources of the
session back: each name that is bound to a wrapper, with all that the report of the wrapper tells. -/

namespace Packaging.CommandLine

/-! ## What reading a report gives -/

/-- Whether members tell the resources of a session. -/
structure TellsResources (files : Files) (s : Session) (members : Members) : Prop where
  /-- No key comes twice. -/
  distinct : (members.map (·.1)).Nodup
  /-- The keys are the names that are bound to wrappers. -/
  keys : ∀ name, name ∈ members.map (·.1) ↔
    ∃ handle, Bindings.get? s.globals name = some (.wrapper handle)
  /-- Under each such name stands what the report of the wrapper tells. -/
  values : ∀ name handle, Bindings.get? s.globals name = some (.wrapper handle) →
    ∃ w told, s.store.get? handle = some w ∧ members.get? name = some (.object told) ∧
      told.Perm w.report ∧ w.ToldBy files told

/-- Whether no text in the reports of a session's resources has surrogates to join. Sources are not
reported and do not matter. -/
def JoinedTexts (s : Session) : Prop := ∀ r ∈ s.resources, ∀ t ∈ r.2.toldTexts, t.Joined

instance (s : Session) : Decidable (JoinedTexts s) := inferInstanceAs (Decidable (∀ r ∈ _, _))

/-- The resources of a session as members of an object. -/
def resourceMembers (s : Session) : Members :=
  s.resources.map fun (name, w) => (name, .object w.report)

/-- The members that reading the report gives: resources and reports are both in the order of their
keys. -/
def readMembers (s : Session) : Members :=
  (Json.Layout.compact.order (resourceMembers s)).map fun m =>
    (m.1, m.2.arrange Json.Layout.compact)

section Reading

variable {s : Session}

/-- A report tells the names of the resources in their order. -/
theorem names_resourceMembers (s : Session) :
    (resourceMembers s).map (·.1) = s.resources.map (·.1) := by
  rw [resourceMembers, List.map_map]
  rfl

/-- A report tells each name once. -/
theorem nodup_resourceMembers (named : s.WellNamed) :
    ((resourceMembers s).map (·.1)).Nodup := by
  rw [names_resourceMembers]
  exact named.distinct.sublist s.names_resources_sublist

/-- A report tells exactly the resources, each by what it reports. -/
theorem mem_resourceMembers_iff {name : Text} {v : Json} :
    (name, v) ∈ resourceMembers s ↔ ∃ w, (name, w) ∈ s.resources ∧ v = .object w.report := by
  rw [resourceMembers, List.mem_map]
  constructor
  · rintro ⟨⟨_, w⟩, mem, same⟩
    obtain ⟨rfl, rfl⟩ := Prod.mk.inj same
    exact ⟨w, mem, rfl⟩
  · rintro ⟨w, mem, rfl⟩
    exact ⟨(name, w), mem, rfl⟩

/-- The report of each resource is read back as it is. -/
theorem atomicMembers_of_mem_resources (sound : s.Sound True) (joined : JoinedTexts s)
    {name : Text} {w : Wrapper} (mem : (name, w) ∈ s.resources) : Json.AtomicMembers w.report := by
  obtain ⟨handle, -, found⟩ := Session.mem_resources_iff.1 mem
  exact Wrapper.atomicMembers_report (sound.get?_store found) (joined (name, w) mem)

variable (sound : s.Sound True) (joined : JoinedTexts s)

include sound joined

/-- The report of a sound session is sound. -/
theorem sound_reportValue (named : s.WellNamed) : (reportValue s).Sound := by
  refine .object (nodup_resourceMembers named) (fun m hm => ?_) (fun m hm => ?_)
  · have mem : m.1 ∈ (resourceMembers s).map (·.1) := List.mem_map_of_mem hm
    rw [names_resourceMembers] at mem
    exact named.joined (s.names_resources_sublist.subset mem)
  · obtain ⟨w, mem, same⟩ := mem_resourceMembers_iff.1 hm
    rw [same]
    exact (atomicMembers_of_mem_resources sound joined mem).sound

/-- The report of such a session holds no doubles. -/
theorem doubleFree_reportValue : (reportValue s).DoubleFree := by
  refine .object fun m hm => ?_
  obtain ⟨w, mem, same⟩ := mem_resourceMembers_iff.1 hm
  rw [same]
  exact (atomicMembers_of_mem_resources sound joined mem).plain

/-- The report is read back. -/
theorem read_jsonReport (named : s.WellNamed) :
    Json.read (jsonReport s) = .ok (.object (readMembers s)) := by
  have read := Json.read_write Json.Layout.legible_compact (sound_reportValue sound joined named)
    (doubleFree_reportValue sound joined) (by decide : ∀ c ∈ ("\n" : Text), Json.isBlank c = true)
  rw [reportValue, Json.arrange_object] at read
  exact read

/-- A resource is read back as its report, in another order. -/
theorem mem_readMembers_iff {name : Text} {v : Json} :
    (name, v) ∈ readMembers s ↔ ∃ w, (name, w) ∈ s.resources ∧
      v = .object (Json.Layout.compact.order w.report) := by
  have perm := Json.order_perm Json.Layout.compact (resourceMembers s)
  rw [readMembers, List.mem_map]
  constructor
  · rintro ⟨⟨_, u⟩, ordered, same⟩
    obtain ⟨rfl, rfl⟩ := Prod.mk.inj same
    obtain ⟨w, mem, report⟩ := mem_resourceMembers_iff.1 (perm.mem_iff.1 ordered)
    refine ⟨w, mem, ?_⟩
    dsimp only
    rw [report, (atomicMembers_of_mem_resources sound joined mem).arrange_eq]
  · rintro ⟨w, mem, rfl⟩
    refine ⟨(name, .object w.report),
      perm.mem_iff.2 (mem_resourceMembers_iff.2 ⟨w, mem, rfl⟩), ?_⟩
    rw [(atomicMembers_of_mem_resources sound joined mem).arrange_eq]

/-- **What is read back tells the resources of the session.** -/
theorem tellsResources_readMembers (named : s.WellNamed) (files : Files) :
    TellsResources files s (readMembers s) := by
  have distinct : ((readMembers s).map (·.1)).Nodup := by
    rw [readMembers, List.map_map]
    exact ((Json.order_perm _ _).map (·.1)).nodup_iff.2 (nodup_resourceMembers named)
  have bound {name : Text} {handle : Handle} :
      Bindings.get? s.globals name = some (.wrapper handle) ↔
        (name, Value.wrapper handle) ∈ s.globals :=
    Bindings.get?_eq_some_iff_mem named.distinct
  refine ⟨distinct, fun name => ?_, fun name handle found => ?_⟩
  · constructor
    · intro mem
      obtain ⟨⟨_, v⟩, told, rfl⟩ := List.mem_map.1 mem
      obtain ⟨w, listed, -⟩ := (mem_readMembers_iff sound joined).1 told
      obtain ⟨handle, here, -⟩ := Session.mem_resources_iff.1 listed
      exact ⟨handle, bound.2 here⟩
    · rintro ⟨handle, found⟩
      obtain ⟨w, behind, -⟩ := sound.globals name _ (bound.1 found)
      have mem := Session.mem_resources_iff.2 ⟨handle, bound.1 found, behind⟩
      exact List.mem_map_of_mem ((mem_readMembers_iff sound joined).2 ⟨w, mem, rfl⟩)
  · obtain ⟨w, behind, -⟩ := sound.globals name _ (bound.1 found)
    have mem := Session.mem_resources_iff.2 ⟨handle, bound.1 found, behind⟩
    have told := (mem_readMembers_iff sound joined).2 ⟨w, mem, rfl⟩
    have perm := Json.order_perm Json.Layout.compact w.report
    exact ⟨w, _, behind, (Bindings.get?_eq_some_iff_mem distinct).2 told, perm,
      (w.toldBy_report files).of_perm perm⟩

/-- The report is one line of printable ASCII. -/
theorem exists_line_jsonReport :
    ∃ line, jsonReport s = line ++ "\n" ∧ ∀ c ∈ line, c.isBetween 0x20 0x7e = true :=
  ⟨_, rfl, Json.forall_mem_writeAt Json.Layout.uses_compact (fun _ => id)
    (doubleFree_reportValue sound joined) 0⟩

end Reading

/-! ## Requests -/

/-- The policy of a request has truth values for flags. -/
theorem PolicySource.Gives.switched {files : Files} {policy : PolicySource} {p : Policy}
    (h : policy.Gives files p) : p.Switched := by
  cases h with
  | standard => exact Policy.loadable_default.switched
  | file loads => exact (Policy.loadable_of_load loads).switched

/-- The session that a script leaves is sound, flags included. -/
theorem PolicySource.Gives.sound_run [CharacterNames] {files : Files} {policy : PolicySource}
    {p : Policy} (h : policy.Gives files p) (source : Text) :
    (({ policy := p } : Session).run files source).session.Sound True := by
  have sound := (Session.sound_start p).after (.run files source)
  rwa [eq_true h.switched] at sound

/-- **The JSON report is faithful.** A request for it that succeeds has run its script, under its
policy, to the end. If no text in the reports of the resources has surrogates to join, the output
is one line of printable ASCII with a line feed, and reading it gives an object that tells the resources
of the session: under each name that is bound to a wrapper, the names of one wrapper included, the type
of the wrapper and every attribute but the source, as it is read. -/
theorem json_report_is_faithful [CharacterNames] {files : Files} {arguments : List Text}
    {verbose : Bool} {script : Path} {policy : PolicySource} {refusal? : Text → Option Failure}
    (reads : Invocation.ofArguments arguments = .ok ⟨verbose, .run script policy true⟩)
    (ends : (outcome files arguments).endingOn refusal? = .served successCode) :
    let output := (outcome files arguments).output
    ∃ p source, policy.Gives files p ∧ HoldsScript files script source ∧
      let run := ({ policy := p } : Session).run files source
      run.value = .ok () ∧
      (JoinedTexts run.session →
        (∃ line, output = line ++ "\n" ∧ ∀ c ∈ line, c.isBetween 0x20 0x7e = true) ∧
        ∃ members, Json.read output = .ok (.object members) ∧
          TellsResources files run.session members) := by
  intro output
  have serves : Serves files script policy true verbose (outcome files arguments) :=
    serves_outcome reads
  rcases serves.endingOn_eq_served_iff.1 ends with ⟨-, s, final, -⟩ | final
  · obtain ⟨p, gives⟩ := exists_gives_of_finalSession final
    obtain ⟨source, holds, ran, rfl⟩ := (finalSession_eq_ok_iff gives).1 final
    refine ⟨p, source, gives, holds, ran, fun joined => ?_⟩
    have same : output = jsonReport (({ policy := p } : Session).run files source).session :=
      (serves.success _ final).1
    rw [same]
    have sound := gives.sound_run source
    have named := Session.wellNamed_run ran
    exact ⟨exists_line_jsonReport sound joined, _, read_jsonReport sound joined named,
      tellsResources_readMembers sound joined named files⟩
  · exact absurd final finalSession_ne_success

section

open scoped CharacterNames.Unlisted

/-- A module under two names, and a number: the report of such a script is read back. -/
theorem report_of_second_name_read_back :
    let source : Text := "m = make_source_module('a', 'b')\nn = m\nx = 1"
    let files : Files := fun _ => .ok (source.flatMap Utf8.encodePoint)
    ∃ members, Json.read (outcome files ["run", "s", "--json"]).output = .ok (.object members) ∧
      TellsResources files (Session.run files { policy := {} } source).session members := by
  intro source files
  have reads : Invocation.ofArguments ["run", "s", "--json"] =
      .ok ⟨false, .run (Path.ofText "s") .standard true⟩ := rfl
  have decoded : Utf8.decode (source.flatMap Utf8.encodePoint) = .ok source := by decide +kernel
  have unified : source = source.unifyLineEndings := by decide +kernel
  have holds : HoldsScript files (Path.ofText "s") source := ⟨_, source, rfl, decoded, unified⟩
  have ran : (Session.run files { policy := {} } source).value = .ok () :=
    Effect.value_eq_ok_of_failure (by decide +kernel)
  have joined : JoinedTexts (Session.run files { policy := {} } source).session := by
    decide +kernel
  have final : finalSession files (Path.ofText "s") .standard =
      .ok (Session.run files { policy := {} } source).session :=
    (finalSession_eq_ok_iff .standard).2 ⟨source, holds, ran, rfl⟩
  have ends : (outcome files ["run", "s", "--json"]).endingOn (fun _ => none) =
      .served successCode :=
    (serves_outcome reads).endingOn_eq_served_iff.2 (Or.inl ⟨rfl, _, final, Or.inr rfl⟩)
  obtain ⟨p, source', gives, holds', -, told⟩ := json_report_is_faithful reads ends
  cases gives
  rw [← holds.unique holds'] at told
  exact (told joined).2

end

end Packaging.CommandLine
