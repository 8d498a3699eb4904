import Packaging.Proofs.Session.Aliases
import Packaging.Proofs.Session.Constructors
import Packaging.Proofs.Session.Evaluations
import Packaging.Proofs.Text.Sequences

/-! # Sources of modules
A module holds its source as bytes, and its source is read as a text. Reading is the inverse of
encoding: the text that is read is the one that is encoded as those bytes, and reading fails for
exactly the bytes that no text is encoded as. So a script reads back any source that it gave to a
module; a source with surrogates in it never becomes one. -/

namespace Packaging

open Packaging.Action
open Script (Expr Statement)

/-! ## Reading a source -/

namespace FileData

variable {t : Text} {content : Utf8.Bytes}

/-- The contents that a text makes are its encoding. -/
theorem ofText_eq_ok_iff : ofText t = .ok (bytes content) ↔ Utf8.encode t = .ok content := by
  rw [ofText, Except.map_eq_ok_iff]
  constructor
  · rintro ⟨content', encoded, same⟩
    rw [encoded, FileData.bytes.inj same]
  · intro encoded
    exact ⟨content, encoded, rfl⟩

/-- The contents that texts make are the encodings of texts. -/
theorem exists_ofText_eq_ok_iff :
    (∃ t, ofText t = .ok (bytes content)) ↔ ∃ t, Utf8.encode t = .ok content := by
  simp only [ofText_eq_ok_iff]

end FileData

namespace Wrapper

section Reading

variable {files : Files} {w : Wrapper} {m : ModuleSource} {content : Utf8.Bytes}

/-- The source of a module is read from its record. -/
theorem get_sourceName (record : w.record = .moduleSource m) :
    w.get files sourceName = readSource m files := by
  have own : (intrinsics w.record).lookup sourceName = some (readSource m) := by
    rw [record]
    rfl
  rw [get, own]

variable (record : w.record = .moduleSource m) (resolved : m.source.resolve files = .ok content)

include record resolved

/-- The source that is read is the text that is encoded as the content. -/
theorem get_sourceName_eq_ok_iff {v : Json} :
    w.get files sourceName = .ok v ↔
      ∃ t, v = .text t ∧ FileData.ofText t = .ok (.bytes content) := by
  rw [get_sourceName record, readSource, resolved]
  simp only [FileData.ofText_eq_ok_iff, ← Utf8.decode_eq_ok_iff]
  cases Utf8.decode content with
  | ok t =>
    constructor
    · intro h
      exact ⟨t, (Except.ok.inj h).symm, rfl⟩
    · rintro ⟨_, rfl, same⟩
      rw [Except.ok.inj same]
  | error fault => simp

/-- No source can be read exactly if no text is encoded as the content. -/
theorem get_sourceName_eq_error_iff :
    w.get files sourceName = .error sourceUndecodable ↔
      ¬ ∃ t, FileData.ofText t = .ok (.bytes content) := by
  rw [get_sourceName record, readSource, resolved]
  simp only [FileData.ofText_eq_ok_iff, ← Utf8.decode_eq_ok_iff]
  cases Utf8.decode content with
  | ok t => simp
  | error fault => simp

end Reading

end Wrapper

/-! ## Giving a source -/

section Calls

variable {files : Files} {s : Session} {args : List Expr} {positional : List Value}

/-- A call without named arguments makes what its constructor makes of the values of its
arguments. -/
theorem evaluate_call_of_positional (k : Kind) (spot : Spot) (h : (evaluateAll files args s).value = .ok positional) :
    let given := (evaluateAll files args s).session
    let call := evaluate files (.call k.constructorName args [] spot) s
    call.value = (k.call positional [] given).value ∧
      call.session = (k.call positional [] given).session := by
  dsimp only
  rw [evaluate, Kind.ofConstructorName?_constructorName]
  constructor
  · rw [value_bind_of_ok h, evaluateNamed]
    rfl
  · rw [session_bind_of_ok h, evaluateNamed]
    rfl

/-- The values of the parameters of a module's constructor that is given a name and a source. -/
theorem bindCall_sourceModule (name source : Text) :
    Kind.sourceModule.bindCall [.plain (.text name), .plain (.text source)] [] =
      .ok [("name", .plain (.text name)), ("source", .plain (.text source)),
        ("is_package", .plain (.bool false))] := rfl

/-- A call with a source that has an encoding makes a module of that source. -/
theorem call_sourceModule_of_encoded {name source : Text} {content : Utf8.Bytes}
    (encoded : Utf8.encode source = .ok content) :
    Kind.sourceModule.call [.plain (.text name), .plain (.text source)] [] =
      makeWrapper (.moduleSource { name := name, source := .bytes content }) := by
  have held : FileData.ofText source = .ok (.bytes content) :=
    FileData.ofText_eq_ok_iff.2 encoded
  have made : Kind.sourceModule.construct [("name", .plain (.text name)),
      ("source", .plain (.text source)), ("is_package", .plain (.bool false))] =
        .ok (.moduleSource { name := name, source := .bytes content }) := by
    show (FileData.ofText source).mapError Fault.encoding >>= _ = _
    rw [held]
    rfl
  rw [Kind.call, bindCall_sourceModule, Except.bind, made]

/-- A call with a source that has no encoding fails for it. -/
theorem call_sourceModule_of_refused {name source : Text} {fault : Utf8.EncodeFault}
    (refused : Utf8.encode source = .error fault) :
    Kind.sourceModule.call [.plain (.text name), .plain (.text source)] [] =
      Action.fail (Fault.encoding fault) := by
  have unmade : Kind.sourceModule.construct [("name", .plain (.text name)),
      ("source", .plain (.text source)), ("is_package", .plain (.bool false))] =
        .error (.encoding fault) := by
    refine Kind.construct_of_unencodable ⟨fun held mem => ?_, "source", rfl, source, rfl, refused⟩
    rw [List.mem_singleton.1 mem]
    exact ⟨name, rfl⟩
  rw [Kind.call, bindCall_sourceModule, Except.bind, unmade]

end Calls

/-! ## Scripts that give a source and read it back -/

/-- The statement that binds a name to a new module with two expressions as its name and source. -/
def assignModule (target : Text) (name source : Expr) (callSpot spot : Spot) : Statement :=
  .assign target (.call Kind.sourceModule.constructorName [name, source] [] callSpot) spot

section Scripts

variable {files : Files} {s : Session} {target name source : Text} {nameExpr sourceExpr : Expr}
  {callSpot spot : Spot} {content : Utf8.Bytes}
  (given : (evaluateAll files [nameExpr, sourceExpr] s).value =
    .ok [.plain (.text name), .plain (.text source)])

include given

/-- A source with surrogates in it is refused, and nothing is bound. -/
theorem execute_assignModule_of_refused {fault : Utf8.EncodeFault}
    (refused : Utf8.encode source = .error fault) :
    let after := Session.execute files (assignModule target nameExpr sourceExpr callSpot spot) s
    after.value = .error (Fault.encoding fault) ∧
      after.session = (evaluateAll files [nameExpr, sourceExpr] s).session := by
  obtain ⟨value, session⟩ := evaluate_call_of_positional .sourceModule callSpot given
  rw [call_sourceModule_of_refused refused] at value session
  obtain ⟨failed, left⟩ := execute_assign_of_error target spot value
  exact ⟨failed, left.trans session⟩

/-- A source without surrogates is bound, unless the policy has no place for the module. -/
theorem execute_assignModule_of_encoded (encoded : Utf8.encode source = .ok content)
    (h : (Session.execute files (assignModule target nameExpr sourceExpr callSpot spot) s).value = .ok () ∨
      s.policy.Places) :
    let after := Session.execute files (assignModule target nameExpr sourceExpr callSpot spot) s
    after.value = .ok () ∧ ∃ handle w,
      Bindings.get? after.session.globals target = some (.wrapper handle) ∧
      after.session.store.get? handle = some w ∧
      w.record = .moduleSource { name := name, source := .bytes content } := by
  obtain ⟨value, session⟩ := evaluate_call_of_positional .sourceModule callSpot given
  have grows := within_evaluateAll (within_call within_grows_makeWrapper) files
    [nameExpr, sourceExpr] s
  generalize (evaluateAll files [nameExpr, sourceExpr] s).session = u at value session grows
  rw [call_sourceModule_of_encoded encoded] at value session
  cases adapted : Resource.adapt u.policy
      (.record (.moduleSource { name := name, source := .bytes content })) with
  | error failure =>
    -- Neither is the statement executed, nor has the policy explicit places.
    exfalso
    rcases h with executed | places
    · rw [makeWrapper_of_error adapted] at value
      cases executed.symm.trans (execute_assign_of_error target spot value).1
    · rw [← grows.policy] at places
      obtain ⟨w, adapted', -⟩ := places.exists_adapt
        (.moduleSource { name := name, source := .bytes content })
      cases adapted.symm.trans adapted'
  | ok w =>
    obtain ⟨madeSession, madeValue⟩ := makeWrapper_of_ok adapted
    rw [madeValue] at value
    rw [madeSession] at session
    obtain ⟨executed, after⟩ := execute_assign_of_ok target spot value
    rw [session] at after
    refine ⟨executed, (u.store.add w).1, w, ?_, ?_, ?_⟩
    · show Bindings.get? (Session.execute files (.assign target _ spot) s).session.globals target = _
      rw [after, Bindings.get?_set, if_pos rfl]
    · show (Session.execute files (.assign target _ spot) s).session.store.get? _ = _
      rw [after]
      exact Store.get?_add_self u.store w
    · obtain ⟨record, same, ⟨-, c, -, rfl⟩ | ⟨-, rfl⟩⟩ := Resource.adapt_eq_ok_iff.1 adapted
      · exact (Resource.record.inj same).symm
      · exact (Resource.record.inj same).symm

end Scripts

/-- A name that is bound to a module gives its source, read as a text. -/
theorem value_eval_source [CharacterNames] {files : Files} {s : Session}
    {target name source question : Text} {content : Utf8.Bytes} {handle : Handle} {w : Wrapper}
    {nameSpot spot : Spot} (bound : Bindings.get? s.globals target = some (.wrapper handle))
    (found : s.store.get? handle = some w)
    (record : w.record = .moduleSource { name := name, source := .bytes content })
    (encoded : Utf8.encode source = .ok content)
    (parsed : Script.parseExpr question =
      .ok (.member (.name target nameSpot) Wrapper.sourceName spot)) :
    (s.eval files question).value = .ok (.plain (.text source)) := by
  have read : w.get files Wrapper.sourceName = .ok (.text source) :=
    (Wrapper.get_sourceName_eq_ok_iff record rfl).2
      ⟨source, rfl, FileData.ofText_eq_ok_iff.2 encoded⟩
  have value : (evaluate files (.member (.name target nameSpot) Wrapper.sourceName spot) s).value =
      .ok (.plain (.text source)) := by
    rw [value_member_of_bound bound, value_readAttribute_of_found found, read]
    rfl
  rw [Session.eval, parsed]
  exact Except.mapError_eq_ok_iff.2 value

/-- **Reading a source is the inverse of encoding it.** For the bytes that a module holds, the text
that is read is the one that is encoded as them, and reading fails for exactly the malformed bytes,
which no text is encoded as. A script that gives a module a source without surrogates reads the same
source back; a source with surrogates is refused for its encoding, and nothing is bound. -/
theorem source_inverts_encoding [CharacterNames] (files : Files) :
    (∀ (w : Wrapper) (m : ModuleSource) (content : Utf8.Bytes), w.record = .moduleSource m →
      m.source.resolve files = .ok content →
      (∀ v, w.get files Wrapper.sourceName = .ok v ↔
        ∃ t, v = .text t ∧ FileData.ofText t = .ok (.bytes content)) ∧
      (w.get files Wrapper.sourceName = .error Wrapper.sourceUndecodable ↔
        ¬ ∃ t, FileData.ofText t = .ok (.bytes content)) ∧
      ((¬ ∃ t, FileData.ofText t = .ok (.bytes content)) ↔ Utf8.Malformed content)) ∧
    ∀ (s : Session) (script target name source : Text) (nameExpr sourceExpr : Expr)
      (callSpot spot : Spot),
      Script.parse script = .ok [assignModule target nameExpr sourceExpr callSpot spot] →
      (evaluateAll files [nameExpr, sourceExpr] s).value =
        .ok [.plain (.text name), .plain (.text source)] →
      let after := s.run files script
      ((∀ c ∈ source, c.isSurrogate = false) →
        (s.policy.Places → after.value = .ok ()) ∧
        (after.value = .ok () → ∀ (question : Text) (nameSpot spot' : Spot),
          Script.parseExpr question =
            .ok (.member (.name target nameSpot) Wrapper.sourceName spot') →
          (after.session.eval files question).value = .ok (.plain (.text source)))) ∧
      ((∃ c ∈ source, c.isSurrogate = true) →
        (∃ fault, Utf8.encode source = .error fault ∧
          after.value = .error (Fault.encoding fault)) ∧
        after.session = (evaluateAll files [nameExpr, sourceExpr] s).session ∧
        after.session.globals = s.globals) := by
  refine ⟨fun w m content record resolved => ⟨fun v => ?_, ?_, ?_⟩, ?_⟩
  · exact Wrapper.get_sourceName_eq_ok_iff record resolved
  · exact Wrapper.get_sourceName_eq_error_iff record resolved
  · rw [FileData.exists_ofText_eq_ok_iff, Utf8.malformed_iff]
  intro s script target name source nameExpr sourceExpr callSpot spot parsed given
  -- The script is one assignment, so its run is the execution of that statement.
  have executed : s.run files script =
      Session.execute files (assignModule target nameExpr sourceExpr callSpot spot) s := by
    rw [run_of_parse parsed]
    exact congrFun (executeAll_singleton files _) s
  rw [executed]
  refine ⟨fun clean => ?_, ?_⟩
  · have encoded := Utf8.encode_eq_ok_iff.2 ⟨clean, rfl⟩
    refine ⟨fun places => ?_, fun succeeds question nameSpot spot' asked => ?_⟩
    · exact (execute_assignModule_of_encoded given encoded (Or.inr places)).1
    · obtain ⟨-, handle, w, bound, found, record⟩ :=
        execute_assignModule_of_encoded given encoded (Or.inl succeeds)
      exact value_eval_source bound found record encoded asked
  · rintro ⟨c, mem, surrogate⟩
    have grows := within_evaluateAll (within_call within_grows_makeWrapper) files
      [nameExpr, sourceExpr] s
    cases encoded : Utf8.encode source with
    | ok content =>
      cases ((Utf8.encode_eq_ok_iff.1 encoded).1 c mem).symm.trans surrogate
    | error fault =>
      obtain ⟨failed, left⟩ := execute_assignModule_of_refused given encoded
      exact ⟨⟨fault, rfl, failed⟩, left, (congrArg Session.globals left).trans grows.globals⟩

section

open scoped CharacterNames.Unlisted

/-- A script reads back the letter with an accent that it gave to a module as its source. With a
surrogate in its place it binds nothing, and an overlong null is the source of no module. -/
theorem accented_source_is_read_back :
    let files : Files := fun _ => .error .nullInPath
    let script : Text := "m = make_source_module('n', t)"
    let accented : Session := Session.bind {} "t" (.text "é")
    let alone : Session := Session.bind {} "t" (.text [.ofNat 0xd800])
    let overlong : Wrapper :=
      { record := .moduleSource { name := "n", source := .bytes [0xc0, 0x80] } }
    Script.parse script = .ok [assignModule "m" (.literal (.text "n") ⟨1, 24⟩) (.name "t" ⟨1, 29⟩)
      ⟨1, 5⟩ ⟨1, 1⟩] ∧
    ((accented.run files script).session.eval files "m.source").value = .ok (.plain (.text "é")) ∧
    (alone.run files script).session.globals = alone.globals ∧
    overlong.get files Wrapper.sourceName = .error Wrapper.sourceUndecodable := by
  intro files script accented alone overlong
  obtain ⟨reading, giving⟩ := source_inverts_encoding files
  have name : Script.Literal.decode "'n'" = .ok "n" := by decide +kernel
  have parsed : Script.parse script = .ok [assignModule "m" (.literal (.text "n") ⟨1, 24⟩)
      (.name "t" ⟨1, 29⟩) ⟨1, 5⟩ ⟨1, 1⟩] :=
    Script.parse_ok_iff.2
      ⟨[(some (.assign ⟨⟨.word, "m", ⟨0, 1, 1⟩⟩, by decide +kernel⟩ ⟨⟨.equals, "=", ⟨2, 1, 3⟩⟩, rfl⟩
          (.callWith ⟨⟨.word, "make_source_module", ⟨4, 1, 5⟩⟩, by decide +kernel⟩
            ⟨⟨.opening, "(", ⟨22, 1, 23⟩⟩, rfl⟩
            (.more (.positional (.string ⟨⟨.string, "'n'", ⟨23, 1, 24⟩⟩, rfl⟩))
              ⟨⟨.comma, ",", ⟨26, 1, 27⟩⟩, rfl⟩
              (.last (.positional (.name ⟨⟨.word, "t", ⟨28, 1, 29⟩⟩, by decide +kernel⟩))))
            ⟨⟨.closing, ")", ⟨29, 1, 30⟩⟩, rfl⟩)),
        ⟨⟨.newline, "\n", ⟨30, 1, 31⟩⟩, rfl⟩)],
      Script.lexes_iff.2 (by decide +kernel),
      .line (.assign (.callWith (.more (.last (.positional .name)) (.positional (.string name)))
        List.nodup_nil)) .nil⟩
  have asked : Script.parseExpr "m.source" =
      .ok (.member (.name "m" ⟨1, 1⟩) Wrapper.sourceName ⟨1, 1⟩) := by
    have lexes : Script.Lexes "m.source" [⟨.word, "m", ⟨0, 1, 1⟩⟩, ⟨.dot, ".", ⟨1, 1, 2⟩⟩,
        ⟨.word, "source", ⟨2, 1, 3⟩⟩] := Script.lexes_iff.2 (by decide +kernel)
    have trimmed : ("m.source" : Text).trim = "m.source" := by decide +kernel
    refine Script.parseExpr_ok_iff.2
      ⟨.member (.name ⟨⟨.word, "m", ⟨0, 1, 1⟩⟩, by decide +kernel⟩) ⟨⟨.dot, ".", ⟨1, 1, 2⟩⟩, rfl⟩
        ⟨⟨.word, "source", ⟨2, 1, 3⟩⟩, rfl⟩, ?_, .member .name⟩
    rwa [trimmed]
  have clean : ∀ c ∈ ("é" : Text), c.isSurrogate = false := by decide
  obtain ⟨binds, readsBack⟩ := (giving accented script "m" "n" "é" _ _ _ _ parsed rfl).1 clean
  obtain ⟨-, -, unbound⟩ := (giving alone script "m" "n" [.ofNat 0xd800] _ _ _ _ parsed rfl).2
    ⟨_, List.mem_cons_self, rfl⟩
  obtain ⟨-, undecodable, malformed⟩ := reading overlong _ [0xc0, 0x80] rfl rfl
  -- Two bytes for a number that one byte can hold.
  have overlongNull : Utf8.Malformed (0xc0 :: ([0x80] ++ [])) :=
    .overlong [] ⟨rfl, List.forall_mem_singleton.2 rfl⟩ (by decide +kernel)
  exact ⟨parsed, readsBack (binds Policy.places_default) "m.source" _ _ asked, unbound,
    undecodable.2 (malformed.2 overlongNull)⟩

end

end Packaging
