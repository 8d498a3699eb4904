import Packaging.Proofs.Policy.Documents

/-! # Reading and writing locations
Plain data stands for a location if it is null or one of a few texts. What is read is written again
as it was, but for the text of the default location, which becomes null; and every location that is
written is read again. So different texts never stand for the same place, and a directory is kept
as it stands, whatever is in it. -/

namespace Packaging

namespace Location

/-- Null, the text of the default location and the texts of explicit places are read, and nothing
else is. -/
theorem exists_decode_eq_ok_iff {data : Json} :
    (∃ l, decode data = .ok l) ↔
      data = .null ∨ data = .text defaultText ∨ data = .text inMemoryText ∨
        ∃ t, data = .text t ∧ filesystemText <+: t := by
  constructor
  · rintro ⟨l, decoded⟩
    cases l with
    | default =>
      rcases decode_eq_default_iff.1 decoded with same | same
      · exact Or.inl (Value.plain.inj same)
      · exact Or.inr (Or.inl (Value.plain.inj same))
    | concrete place =>
      have same := Value.plain.inj (decode_eq_concrete_iff.1 decoded)
      cases place with
      | inMemory => exact Or.inr (Or.inr (Or.inl same))
      | filesystemRelative directory => exact Or.inr (Or.inr (Or.inr ⟨_, same, directory, rfl⟩))
  · rintro (rfl | rfl | rfl | ⟨t, rfl, directory, rfl⟩)
    · exact ⟨.default, rfl⟩
    · exact ⟨.default, decode_eq_default_iff.2 (Or.inr rfl)⟩
    · exact ⟨.concrete .inMemory, decode_eq_concrete_iff.2 rfl⟩
    · exact ⟨.concrete (.filesystemRelative directory), decode_eq_concrete_iff.2 rfl⟩

/-- Data of any other kind is refused for its kind, and a text of no known shape for what it says. -/
theorem decode_eq_error {value : Value} {refusal : Refusal} (h : decode value = .error refusal) :
    refusal = .notText value ∨ ∃ t, value = .plain (.text t) ∧ refusal = .unknownText t := by
  rw [decode.eq_def] at h
  split at h
  · cases h
  · next t =>
    split at h
    · cases h
    · exact Or.inr ⟨t, rfl, (Except.error.inj h).symm⟩
  · exact Or.inl (Except.error.inj h).symm

/-- Whatever is refused, the refusal carries it. -/
theorem value_of_decode_eq_error {value : Value} {refusal : Refusal}
    (h : decode value = .error refusal) : refusal.value = value := by
  rcases decode_eq_error h with rfl | ⟨t, rfl, rfl⟩
  · rfl
  · rfl

/-- What is read is written again as it was, but for the text of the default location. -/
theorem toJson_of_decode {data : Json} {l : Location} (h : decode data = .ok l) :
    l.toJson = data ∨ data = .text defaultText ∧ l.toJson = .null := by
  cases l with
  | default =>
    rcases decode_eq_default_iff.1 h with same | same
    · exact Or.inl (Value.plain.inj same).symm
    · exact Or.inr ⟨Value.plain.inj same, rfl⟩
  | concrete place => exact Or.inl (Value.plain.inj (decode_eq_concrete_iff.1 h)).symm

/-- Different texts stand for different locations. -/
theorem text_unique {s t : Text} {l : Location} (hs : decode (Json.text s) = .ok l)
    (ht : decode (Json.text t) = .ok l) : s = t := by
  rcases toJson_of_decode hs with written | ⟨same, written⟩
  · rcases toJson_of_decode ht with written' | ⟨-, written'⟩
    · exact Json.text.inj (written.symm.trans written')
    · cases written.symm.trans written'
  · rcases toJson_of_decode ht with written' | ⟨same', -⟩
    · cases written.symm.trans written'
    · exact Json.text.inj (same.trans same'.symm)

/-- What is written tells locations apart, for it is read again. -/
theorem encode_injective : Function.Injective encode := by
  intro l l' same
  have written : l.toJson = l'.toJson := congrArg Json.ofText? same
  have decoded : (Except.ok l : Except Refusal Location) = .ok l' := by
    rw [← decode_toJson l, written, decode_toJson l']
  exact Except.ok.inj decoded

/-- An explicit place is asked for exactly where one is read. -/
theorem decodeConcrete_eq_ok_iff_decode {what : Text} {data : Json} {place : ConcreteLocation} :
    decodeConcrete what data = .ok place ↔ decode data = .ok (.concrete place) := by
  rw [decodeConcrete_eq_ok_iff, decode_eq_concrete_iff, Value.plain.injEq]

/-- What is no explicit place where one is asked for is carried by the refusal too. -/
theorem value_of_decodeConcrete_eq_error {what : Text} {data : Json} {refusal : Refusal}
    (h : decodeConcrete what data = .error refusal) : refusal.value = .plain data := by
  rw [decodeConcrete] at h
  split at h
  next inner refused =>
    obtain rfl := Except.error.inj h
    exact value_of_decode_eq_error refused
  · cases h
  · obtain rfl := Except.error.inj h
    rfl

/-- **Locations are read and written exactly and without loss.** Null, the texts of the default
location and of the memory, and the texts that begin as those in the file system do are read, and
nothing else; what is read is written again as it was, but for the text of the default location,
which becomes null; and what is refused is carried by the diagnostic. Every location is read from
what it is written as, so no two of them are written alike and no two texts are read alike; a
directory is kept as it stands. Where an explicit place is asked for, it is given exactly if it is
what is read. -/
theorem read_and_written_without_loss :
    (∀ data : Json,
      ((∃ l, decode data = .ok l) ↔
        data = .null ∨ data = .text defaultText ∨ data = .text inMemoryText ∨
          ∃ t, data = .text t ∧ filesystemText <+: t) ∧
      (∀ l, decode data = .ok l →
        (data = .text defaultText → l.toJson = .null) ∧
          (data ≠ .text defaultText → l.toJson = data)) ∧
      ∀ refusal, decode data = .error refusal →
        refusal.diagnostic.kind = .locationDecode data ∧
          refusal.diagnostic.reasonCode = "location-decode") ∧
    (∀ l : Location, decode l.toJson = .ok l) ∧ Function.Injective encode ∧
    (∀ s t l, decode (Json.text s) = .ok l → decode (Json.text t) = .ok l → s = t) ∧
    (∀ directory, decode (Json.text (filesystemText ++ directory)) =
        .ok (.concrete (.filesystemRelative directory)) ∧
      encode (.concrete (.filesystemRelative directory)) = some (filesystemText ++ directory)) ∧
    ∀ (what : Text) (data : Json),
      (∀ place, decodeConcrete what data = .ok place ↔ decode data = .ok (.concrete place)) ∧
      ∀ refusal, decodeConcrete what data = .error refusal →
        refusal.diagnostic.kind = .locationDecode data := by
  refine ⟨fun data => ⟨exists_decode_eq_ok_iff, fun l decoded => ⟨?_, fun other => ?_⟩,
    fun refusal refused => ⟨?_, rfl⟩⟩, decode_toJson, encode_injective, fun s t l => text_unique,
    fun directory => ⟨decode_eq_concrete_iff.2 rfl, rfl⟩,
    fun what data => ⟨fun place => decodeConcrete_eq_ok_iff_decode, fun refusal refused => ?_⟩⟩
  -- Both ways to write the default are read; only one of them is ever written.
  · rintro rfl
    rw [decode_eq_default_iff.2 (Or.inr rfl)] at decoded
    obtain rfl := Except.ok.inj decoded
    rfl
  · rcases toJson_of_decode decoded with written | ⟨same, -⟩
    · exact written
    · exact absurd same other
  · exact congrArg Diagnostic.Kind.locationDecode (value_of_decode_eq_error refused)
  · exact congrArg Diagnostic.Kind.locationDecode (value_of_decodeConcrete_eq_error refused)

/-- A directory that looks like a location itself is kept; the text of the default location is read
but becomes null; and the text of the memory in other letters is refused. -/
theorem directory_like_location_is_kept :
    decode (Json.text "filesystem-relative:filesystem-relative:a:b") =
        .ok (.concrete (.filesystemRelative "filesystem-relative:a:b")) ∧
      decode (Json.text "default") = .ok .default ∧ default.toJson = .null ∧
      ∃ refusal, decode (Json.text "In-Memory") = .error refusal ∧
        refusal.diagnostic.kind = .locationDecode (Json.text "In-Memory") := by
  obtain ⟨codec, -, -, -, kept, -⟩ := read_and_written_without_loss
  have refused : ∃ refusal, decode (Json.text "In-Memory") = .error refusal := ⟨_, rfl⟩
  obtain ⟨refusal, refused⟩ := refused
  exact ⟨(kept "filesystem-relative:a:b").1, rfl, (codec (.text "default")).2.1 _ rfl |>.1 rfl,
    refusal, refused, ((codec _).2.2 refusal refused).1⟩

end Location

end Packaging
