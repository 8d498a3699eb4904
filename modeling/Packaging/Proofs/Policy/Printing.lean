import Packaging.CommandLine
import Packaging.Proofs.Json.Printable
import Packaging.Proofs.Policy.Documents
import Packaging.Proofs.Text.Contents

/-! # Printed policies
What the program prints about a policy that it could load is itself a policy file, and loading it
gives the same policy. -/

namespace Packaging

namespace Policy

/-! ## Loading -/

/-- **A policy that was loaded can be loaded again,** for no text of a file holds surrogates before
its escapes are read. -/
theorem loadable_of_load {files : Files} {path : Path} {p : Policy} (h : load files path = .ok p) :
    p.Loadable := by
  obtain ⟨data, document, described⟩ := Except.bind_eq_ok_iff.1 h
  refine loadable_of_ofJson ?_ described
  rw [loadDocument] at document
  split at document
  · cases document
  next bytes _ =>
  rw [readDocument] at document
  split at document
  · cases document
  next t decoded =>
  have clean := Text.isSurrogate_eq_false_of_unifyLineEndings
    (Utf8.isSurrogate_eq_false_of_decode decoded)
  split at document
  next data' read =>
    obtain rfl := Except.ok.inj document
    exact Json.sound_of_read read clean
  · cases document
  · cases document

/-! ## Printing -/

/-- A document as the program prints it. -/
def printed (members : Members) : Text := (Json.object members).write .indented ++ "\n"

section Printed

variable {members : Members} (h : Json.AtomicMembers members)

include h

/-- A printed document is ASCII, and its lines end in line feeds. -/
theorem mem_printed : ∀ c ∈ printed members,
    c.isBetween 0x20 0x7e = true ∨ c = CodePoint.ofChar '\n' :=
  List.forall_mem_append.2 ⟨Json.forall_mem_writeAt Json.Layout.uses_indented
    (fun _ printable => .inl printable) h.plain 0, by decide⟩

/-- What is printed of a document of atomic members lies in the ASCII range. -/
theorem isAscii_of_mem_printed : ∀ c ∈ printed members, c.isAscii = true := by
  intro c hc
  rcases mem_printed h c hc with printable | rfl
  · simp only [CodePoint.isBetween, Bool.and_eq_true, decide_eq_true_eq] at printable
    rw [CodePoint.isAscii, decide_eq_true_iff]
    omega
  · rfl

/-- What is printed of such a document can be written as UTF-8. -/
theorem exists_encode_printed : ∃ bytes, Utf8.encode (printed members) = .ok bytes := by
  refine ⟨_, Utf8.encode_eq_ok_iff.2 ⟨fun c hc => ?_, rfl⟩⟩
  have ascii := isAscii_of_mem_printed h c hc
  rw [CodePoint.isAscii, decide_eq_true_iff] at ascii
  rw [← Bool.not_eq_true]
  simp only [CodePoint.isSurrogate, CodePoint.isBetween, Bool.and_eq_true, decide_eq_true_eq]
  omega

/-- Opening the file as text changes nothing. -/
theorem unifyLineEndings_printed : (printed members).unifyLineEndings = printed members := by
  refine Text.unifyLineEndings_eq_self fun returned => ?_
  rcases mem_printed h _ returned with printable | same
  · exact absurd printable (by decide)
  · exact absurd same (by decide)

/-- The document is read back with its members in another order. -/
theorem read_printed :
    Json.read (printed members) = .ok (.object (Json.Layout.indented.order members)) := by
  have read := Json.read_write Json.Layout.legible_indented h.sound h.plain
    (by decide : ∀ c ∈ ("\n" : Text), Json.isBlank c = true)
  rw [h.arrange_eq] at read
  exact read

/-- The document is found in any file that holds it as it is printed, its members in another
order. -/
theorem loadDocument_printed {bytes : Utf8.Bytes}
    (encoded : Utf8.encode (printed members) = .ok bytes) {files : Files} {path : Path}
    (stored : files path = .ok bytes) :
    loadDocument files path = .ok (.object (Json.Layout.indented.order members)) := by
  rw [loadDocument, stored]
  simp only [readDocument, Utf8.decode_encode encoded, unifyLineEndings_printed h, read_printed h]

omit h

/-- **A printed document is loaded as the policy that it describes,** from any file. -/
theorem load_printed {p : Policy} (h : DocumentOf members p) {bytes : Utf8.Bytes}
    (encoded : Utf8.encode (printed members) = .ok bytes) {files : Files} {path : Path}
    (stored : files path = .ok bytes) : load files path = .ok p := by
  have perm := Json.order_perm Json.Layout.indented members
  rw [load, loadDocument_printed h.atomicMembers encoded stored]
  exact (h.describes.of_perm perm h.distinct).ofJson_eq path.text

end Printed

end Policy

namespace CommandLine

/-- To show the policy of a file is to load it, as long as no preset goes on top. -/
theorem result_shownPolicy (files : Files) (path : Path) :
    (shownPolicy files (.file path) none).result = Policy.load files path := by
  rw [shownPolicy, Traced.result_bind, choosePolicy, Policy.result_loadTraced]
  cases Policy.load files path with
  | _ => rfl

/-- A policy that can be written is shown. -/
theorem servePolicy_of_ok {files : Files} {source : PolicySource} {mode? : Option Text} {p : Policy}
    {document : Json} (shown : (shownPolicy files source mode?).result = .ok p)
    (written : p.toJson = .ok document) (verbose : Bool) :
    (servePolicy files verbose source mode?).output = document.write .indented ++ "\n" ∧
      (servePolicy files verbose source mode?).ending = .served successCode := by
  have both : (shownPolicy files source mode?).result.bind Policy.toJson = .ok document := by
    rw [shown]
    exact written
  rw [servePolicy, both]
  exact ⟨rfl, rfl⟩

/-- What the program prints about the policy of a file. -/
theorem servePolicy_of_load {files : Files} {path : Path} {p : Policy} {members : Members}
    (h : Policy.load files path = .ok p) (document : p.toMembers = .ok members) (verbose : Bool) :
    (servePolicy files verbose (.file path) none).output = Policy.printed members ∧
      (servePolicy files verbose (.file path) none).ending = .served successCode := by
  have written : p.toJson = .ok (.object members) := by
    rw [Policy.toJson, document]
    rfl
  exact servePolicy_of_ok ((result_shownPolicy files path).trans h) written verbose

/-- **Printing and loading a policy is a fixed point.** From whatever bytes a policy was loaded,
what is printed about it is ASCII; as a file it is loaded as the same policy, and printing that
policy prints the same text again. -/
theorem printed_policy_loads_back {files : Files} {path : Path} {p : Policy}
    (h : Policy.load files path = .ok p) (verbose : Bool) :
    ∃ text bytes,
      (servePolicy files verbose (.file path) none).output = text ∧
      (servePolicy files verbose (.file path) none).ending = .served successCode ∧
      (∀ c ∈ text, c.isAscii = true) ∧ Utf8.encode text = .ok bytes ∧
      ∀ (files' : Files) (path' : Path) (verbose' : Bool), files' path' = .ok bytes →
        Policy.load files' path' = .ok p ∧
        (servePolicy files' verbose' (.file path') none).output = text ∧
        (servePolicy files' verbose' (.file path') none).ending = .served successCode := by
  obtain ⟨members, written, document⟩ := (Policy.loadable_of_load h).exists_toMembers_eq
  obtain ⟨bytes, encoded⟩ := Policy.exists_encode_printed document.atomicMembers
  obtain ⟨output, ending⟩ := servePolicy_of_load h written verbose
  refine ⟨Policy.printed members, bytes, output, ending,
    Policy.isAscii_of_mem_printed document.atomicMembers, encoded, ?_⟩
  intro files' path' verbose' stored
  have again := Policy.load_printed document encoded stored
  exact ⟨again, servePolicy_of_load again written verbose'⟩

/-- A policy file whose directory is named by a quote, a lone surrogate and a code point beyond the
basic plane, all of them written as escapes. -/
def escapedFile : Files :=
  let document : Text := "\x7b\"format\": \"starpack-policy\", \"version\": 0,\r
    \"resources_location\": \"filesystem-relative:\\\"\\ud800\\ud83d\\ude00\"\x7d"
  fun _ => .ok (document.flatMap Utf8.encodePoint)

/-- The directory that the escapes name. -/
def escapedDirectory : Text :=
  [CodePoint.ofNat 0x22, CodePoint.ofNat 0xd800, CodePoint.ofNat 0x1f600]

/-- The policy with that directory is printed, and what is printed is loaded as the same policy. -/
theorem escaped_directory_loads_back :
    ∃ p text bytes, Policy.load escapedFile ⟨[], ["policy.json"]⟩ = .ok p ∧
      p.location.concrete? = some (.filesystemRelative escapedDirectory) ∧
      (servePolicy escapedFile false (.file ⟨[], ["policy.json"]⟩) none).output = text ∧
      Utf8.encode text = .ok bytes ∧
      Policy.load (fun _ => .ok bytes) ⟨[], ["printed.json"]⟩ = .ok p := by
  have place : (Policy.load escapedFile ⟨[], ["policy.json"]⟩).toOption.bind
      (fun p => p.location.concrete?) = some (.filesystemRelative escapedDirectory) := by
    decide +kernel
  obtain ⟨p, loaded, located⟩ := Option.bind_eq_some_iff.1 place
  have loaded : Policy.load escapedFile ⟨[], ["policy.json"]⟩ = .ok p :=
    Except.toOption_eq_some_iff.1 loaded
  obtain ⟨text, bytes, output, -, -, encoded, again⟩ := printed_policy_loads_back loaded false
  exact ⟨p, text, bytes, loaded, located, output, encoded,
    (again (fun _ => .ok bytes) ⟨[], ["printed.json"]⟩ false rfl).1⟩

end CommandLine

end Packaging
