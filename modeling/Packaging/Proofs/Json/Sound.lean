import Packaging.Proofs.Bindings
import Packaging.Proofs.Json.Strings

/-! # What reading yields
A value that was read from a text without surrogates is sound: nothing in its texts and keys is left
to join, its integers are of bounded length, and the keys of each object are distinct. What is left
of the text is an end of it, so it holds no surrogates either. -/

namespace Packaging.Json

/-- The values that reading yields. -/
inductive Sound : Json → Prop
  /-- The absent value. -/
  | null : Sound null
  /-- A truth value. -/
  | bool (b : Bool) : Sound (bool b)
  /-- An integer whose numeral is not too long. -/
  | int {n : Int} (short : (Text.ofNat n.natAbs).length ≤ Integer.maxDigits) : Sound (int n)
  /-- A double. -/
  | float (x : Double) : Sound (float x)
  /-- A text in which nothing is left to join. -/
  | text {t : Text} (joined : t.Joined) : Sound (text t)
  /-- A list of sound values. -/
  | array {items : List Json} (all : ∀ v ∈ items, Sound v) : Sound (array items)
  /-- An object with distinct keys and sound values. -/
  | object {members : Members} (distinct : (members.map (·.1)).Nodup)
    (keys : ∀ m ∈ members, m.1.Joined) (all : ∀ m ∈ members, Sound m.2) : Sound (object members)

/-- The empty object is sound. -/
theorem sound_object_nil : Sound (object []) :=
  .object .nil (List.forall_mem_nil _) (List.forall_mem_nil _)

/-- What one step of reading yields: a sound value, and an end of the text. -/
structure Yields (t : Text) (v : Json) (r : Text) : Prop where
  /-- The value is sound. -/
  sound : Sound v
  /-- What is left is an end of the text. -/
  suffix : r <:+ t

/-! ## Numbers -/

/-- Whole digits are digits. -/
theorem isDigit_of_mem_wholeDigits {t : Text} : ∀ c ∈ wholeDigits t, c.isDigit = true := by
  fun_cases wholeDigits t with
  | case1 => exact List.forall_mem_nil _
  | case2 => exact List.forall_mem_singleton.2 rfl
  | case3 c r _ digit =>
    intro d hd
    rcases List.mem_cons.1 hd with rfl | hd
    · exact digit
    · exact List.all_eq_true.1 List.all_takeWhile d hd
  | case4 => exact List.forall_mem_nil _

/-- An integer that was read from digits is sound: it has no more digits than can be read. -/
theorem sound_of_integerRead {negative : Bool} {digits : Text} {n : Int}
    (h : Integer.read negative digits = .ok n) (all : ∀ c ∈ digits, c.isDigit = true) :
    Sound (int n) := by
  rw [Integer.read] at h
  split at h
  · cases h
  next short =>
    have value : n.natAbs = digits.decimalValue := by
      rw [← Except.ok.inj h]
      split
      · exact Int.natAbs_neg _
      · rfl
    have numeral := Text.length_ofNat_decimalValue_le all (Nat.not_lt.1 short) (by decide)
    rw [← value] at numeral
    exact .int numeral

/-- What is left of a number without its sign is an end of it. -/
theorem suffix_of_sign {t unsigned : Text} {negative : Bool}
    (sign : (match t with
      | c :: r => if c = CodePoint.ofChar '-' then (true, r) else (false, t)
      | [] => (false, [])) = (negative, unsigned)) : unsigned <:+ t := by
  split at sign
  · split at sign
    · obtain ⟨-, rfl⟩ := Prod.mk.inj sign
      exact List.suffix_cons _ _
    · obtain ⟨-, rfl⟩ := Prod.mk.inj sign
      exact List.suffix_rfl
  · obtain ⟨-, rfl⟩ := Prod.mk.inj sign
    exact List.suffix_rfl

/-- A number that is read is sound, and what is left is an end of the text. -/
theorem yields_of_readNumber {t r : Text} {v : Json} (h : readNumber t = .ok (v, r)) :
    Yields t v r := by
  unfold readNumber at h
  split at h
  next negative unsigned sign =>
  -- Each part is taken off what the part before it left, so an end of the text is left each time.
  have suffix : unsigned <:+ t := suffix_of_sign sign
  have ends (n : Nat) {s : Text} (hs : s <:+ t) : s.drop n <:+ t :=
    (List.drop_suffix n s).trans hs
  dsimp only at h
  split at h
  · cases h
  have rest_ends := ends (wholeDigits unsigned).length suffix
  generalize unsigned.drop (wholeDigits unsigned).length = rest at h rest_ends
  generalize hl : (if (fractionDigits rest).isEmpty = true then rest
    else rest.drop (1 + (fractionDigits rest).length)) = left at h
  have left_ends : left <:+ t := by
    rw [← hl]
    split
    · exact rest_ends
    · exact ends _ rest_ends
  split at h
  · obtain ⟨rfl, rfl⟩ := Prod.mk.inj (Except.ok.inj h)
    exact ⟨.float _, ends _ left_ends⟩
  split at h
  · split at h
    next n read =>
      obtain ⟨rfl, rfl⟩ := Prod.mk.inj (Except.ok.inj h)
      exact ⟨sound_of_integerRead read isDigit_of_mem_wholeDigits, left_ends⟩
    · cases h
  · obtain ⟨rfl, rfl⟩ := Prod.mk.inj (Except.ok.inj h)
    exact ⟨.float _, left_ends⟩

/-- The constants are sound. -/
theorem sound_of_mem_constants : ∀ m ∈ constants, Sound m.2 := by
  simp only [constants, List.forall_mem_cons]
  exact ⟨.null, .bool true, .bool false, .float _, .float _, .float _, List.forall_mem_nil _⟩

/-- A value without parts that is read is sound, and what is left is an end of the text. -/
theorem yields_of_readScalar {t r : Text} {v : Json} (h : readScalar t = .ok (v, r)) :
    Yields t v r := by
  rw [readScalar] at h
  split at h
  next found =>
    obtain ⟨⟨name, value⟩, constant, taken⟩ := List.exists_of_findSome?_eq_some found
    obtain ⟨rest, dropped, read⟩ := Option.map_eq_some_iff.1 taken
    obtain ⟨rfl, rfl⟩ := Prod.mk.inj (read.trans (Except.ok.inj h))
    rw [Text.dropBeginning?_eq_some_iff.1 dropped]
    exact ⟨sound_of_mem_constants _ constant, List.suffix_append _ _⟩
  · exact yields_of_readNumber h

/-! ## Values -/

section Values

variable {fuel : Nat} {t r : Text} {v : Json}

/-- What each of the three readers yields, the one for items and the one for members given what they
were read after. -/
structure Readers (fuel : Nat) : Prop where
  /-- Values are sound. -/
  value {t r : Text} {v : Json} (h : readValue fuel t = .ok (v, r))
    (clean : ∀ c ∈ t, c.isSurrogate = false) : Yields t v r
  /-- Lists are sound, if the items before are. -/
  items {done : List Json} {t r : Text} {v : Json} (h : readItems fuel done t = .ok (v, r))
    (clean : ∀ c ∈ t, c.isSurrogate = false) (sound : ∀ v ∈ done, Sound v) : Yields t v r
  /-- Objects are sound, if the members before make a sound one. -/
  members {done : Members} {t r : Text} {v : Json} (h : readMembers fuel done t = .ok (v, r))
    (clean : ∀ c ∈ t, c.isSurrogate = false) (sound : Sound (object done)) : Yields t v r

/-- What is yielded from the end of a text is yielded from the text. -/
theorem Yields.of_suffix {s : Text} (h : Yields s v r) (ends : s <:+ t) : Yields t v r :=
  ⟨h.sound, h.suffix.trans ends⟩

/-- What stands behind blanks is an end of the text. -/
theorem suffix_of_skipBlanks {c : CodePoint} {s : Text} (h : skipBlanks t = c :: s) :
    c :: s <:+ t := by
  rw [← h]
  exact List.dropWhile_suffix _

/-- A sound object stays sound when a joined name is set to a sound value. -/
theorem Sound.set {members : Members} (h : Sound (Json.object members)) {key : Text}
    (joined : key.Joined) {v : Json} (sound : Sound v) :
    Sound (Json.object (members.set key v)) := by
  cases h with
  | object distinct keys all =>
    refine .object (Bindings.nodup_set distinct key v) (fun m hm => ?_) (fun m hm => ?_)
    · rcases Bindings.mem_set hm with hm | rfl
      · exact keys m hm
      · exact joined
    · rcases Bindings.mem_set hm with hm | rfl
      · exact all m hm
      · exact sound

variable (ih : Readers fuel) (clean : ∀ c ∈ t, c.isSurrogate = false)

include ih clean

/-- A value that is read with one step more is sound, if its parts are. -/
theorem Readers.value_succ (h : readValue (fuel + 1) t = .ok (v, r)) : Yields t v r := by
  have clean_of {s : Text} (ends : s <:+ t) : ∀ c ∈ s, c.isSurrogate = false :=
    fun c hc => clean c (ends.subset hc)
  cases t with
  | nil => cases h
  | cons c t =>
  have tail : t <:+ c :: t := List.suffix_cons c t
  rw [readValue] at h
  -- The first code point decides: a string, an object, a list or a scalar.
  split at h
  · split at h
    next s rest read =>
      obtain ⟨rfl, rfl⟩ := Prod.mk.inj (Except.ok.inj h)
      exact ⟨.text (joined_of_readString read (clean_of tail) .start),
        (suffix_of_readString read).trans tail⟩
    · cases h
  split at h
  · split at h
    · cases h
    next d rest blanks =>
      have ends : d :: rest <:+ c :: t := (suffix_of_skipBlanks blanks).trans tail
      split at h
      · obtain ⟨rfl, rfl⟩ := Prod.mk.inj (Except.ok.inj h)
        exact ⟨sound_object_nil, (List.suffix_cons d rest).trans ends⟩
      · exact (ih.members h (clean_of ends) sound_object_nil).of_suffix ends
  split at h
  · split at h
    · cases h
    next d rest blanks =>
      have ends : d :: rest <:+ c :: t := (suffix_of_skipBlanks blanks).trans tail
      split at h
      · obtain ⟨rfl, rfl⟩ := Prod.mk.inj (Except.ok.inj h)
        exact ⟨.array (List.forall_mem_nil _), (List.suffix_cons d rest).trans ends⟩
      · exact (ih.items h (clean_of ends) (List.forall_mem_nil _)).of_suffix ends
  · exact yields_of_readScalar h

/-- Items that are read with one step more make a sound array, behind sound ones. -/
theorem Readers.items_succ {done : List Json} (h : readItems (fuel + 1) done t = .ok (v, r))
    (sound : ∀ v ∈ done, Sound v) : Yields t v r := by
  have clean_of {s : Text} (ends : s <:+ t) : ∀ c ∈ s, c.isSurrogate = false :=
    fun c hc => clean c (ends.subset hc)
  rw [readItems] at h
  split at h
  · cases h
  next w rest read =>
  -- The item joins those before it, and what comes behind it decides whether more items follow.
  have item := ih.value read clean
  have all : ∀ u ∈ w :: done, Sound u := List.forall_mem_cons.2 ⟨item.sound, sound⟩
  split at h
  · cases h
  next d rest' blanks =>
  have ends : d :: rest' <:+ t := (suffix_of_skipBlanks blanks).trans item.suffix
  have tail : rest' <:+ t := (List.suffix_cons d rest').trans ends
  split at h
  · obtain ⟨rfl, rfl⟩ := Prod.mk.inj (Except.ok.inj h)
    have reversed : ∀ u ∈ (w :: done).reverse, Sound u := by
      intro u hu
      exact all u (List.mem_reverse.1 hu)
    exact ⟨.array reversed, tail⟩
  split at h
  · have next : skipBlanks rest' <:+ t := (List.dropWhile_suffix _).trans tail
    exact (ih.items h (clean_of next) all).of_suffix next
  · cases h

/-- Members that are read with one step more make a sound object, behind sound ones. -/
theorem Readers.members_succ {done : Members} (h : readMembers (fuel + 1) done t = .ok (v, r))
    (sound : Sound (object done)) : Yields t v r := by
  have clean_of {s : Text} (ends : s <:+ t) : ∀ c ∈ s, c.isSurrogate = false :=
    fun c hc => clean c (ends.subset hc)
  cases t with
  | nil => cases h
  | cons c t =>
  have tail : t <:+ c :: t := List.suffix_cons c t
  rw [readMembers] at h
  split at h
  case isFalse => cases h
  split at h
  · cases h
  next key afterKey readKey =>
  -- A key, a colon, a value and what comes behind it, each read from an end of the text.
  have key_joined : key.Joined := joined_of_readString readKey (clean_of tail) .start
  have afterKey_ends : afterKey <:+ c :: t := (suffix_of_readString readKey).trans tail
  split at h
  · cases h
  next colon afterColon blanks =>
  have afterColon_ends : afterColon <:+ c :: t :=
    ((List.suffix_cons colon afterColon).trans (suffix_of_skipBlanks blanks)).trans afterKey_ends
  have value_ends : skipBlanks afterColon <:+ c :: t :=
    (List.dropWhile_suffix _).trans afterColon_ends
  split at h
  case isFalse => cases h
  split at h
  · cases h
  next w rest read =>
  have value := ih.value read (clean_of value_ends)
  have all : Sound (object (done.set key w)) := sound.set key_joined value.sound
  split at h
  · cases h
  next d rest' blanks' =>
  have ends : rest' <:+ c :: t :=
    ((List.suffix_cons d rest').trans (suffix_of_skipBlanks blanks')).trans
      (value.suffix.trans value_ends)
  split at h
  · obtain ⟨rfl, rfl⟩ := Prod.mk.inj (Except.ok.inj h)
    exact ⟨all, ends⟩
  split at h
  · have next : skipBlanks rest' <:+ c :: t := (List.dropWhile_suffix _).trans ends
    exact (ih.members h (clean_of next) all).of_suffix next
  · cases h

omit ih clean

/-- **The three readers yield sound values**, whatever steps they are given to spend. -/
theorem readers (fuel : Nat) : Readers fuel := by
  -- All three at once, for each of them calls the others with one step less.
  induction fuel with
  | zero =>
    constructor
    · intro t r v h
      cases h
    · intro done t r v h
      cases h
    · intro done t r v h
      cases h
  | succ fuel ih =>
    constructor
    · intro t r v h clean
      exact ih.value_succ clean h
    · intro done t r v h clean
      exact ih.items_succ clean h
    · intro done t r v h clean
      exact ih.members_succ clean h

end Values

/-- **What a text is read as is sound.** -/
theorem sound_of_readAll {t : Text} {v : Json} (h : readAll t = .ok v)
    (clean : ∀ c ∈ t, c.isSurrogate = false) : Sound v := by
  cases t with
  | nil => cases h
  | cons c t =>
  rw [readAll] at h
  split at h
  · cases h
  split at h
  · cases h
  next w rest value =>
  have blanks : skipBlanks (c :: t) <:+ c :: t := List.dropWhile_suffix _
  have blanks_clean : ∀ d ∈ skipBlanks (c :: t), d.isSurrogate = false :=
    fun d hd => clean d (blanks.subset hd)
  have yields := (readers _).value value blanks_clean
  split at h
  · obtain rfl := Except.ok.inj h
    exact yields.sound
  · cases h

/-- **What is read from a text without surrogates is sound.** -/
theorem sound_of_read {t : Text} {v : Json} (h : read t = .ok v)
    (clean : ∀ c ∈ t, c.isSurrogate = false) : Sound v := by
  rw [read] at h
  split at h
  next w all =>
    obtain rfl := Except.ok.inj h
    exact sound_of_readAll all clean
  · cases h
  · cases h

end Packaging.Json
