import Packaging.Proofs.Json.Sound

/-! # Numerals that are too long
All faults of a document are about its form but one: an integer with more digits than numerals may
have. It needs that many digits in a row, wherever in the document they stand. -/

namespace Packaging.Json

/-- Whether so many decimal digits stand in a row in a text, more than numerals may have. -/
def HasLongRun (t : Text) (digits : Nat) : Prop :=
  ∃ run : Text, run <:+: t ∧ (∀ c ∈ run, c.isDigit = true) ∧ run.length = digits ∧
    Integer.maxDigits < digits

/-- A run of digits in an end of a text is one in the text. -/
theorem HasLongRun.of_suffix {s t : Text} {digits : Nat} (h : HasLongRun s digits)
    (ends : s <:+ t) : HasLongRun t digits := by
  obtain ⟨run, inside, all, length, long⟩ := h
  exact ⟨run, inside.trans ends.isInfix, all, length, long⟩

/-! ## Numbers and strings -/

/-- Whole digits stand at the beginning. -/
theorem wholeDigits_begins (t : Text) : wholeDigits t <+: t := by
  fun_cases wholeDigits t with
  | case1 => exact List.prefix_rfl
  | case2 r => exact List.prefix_append [_] r
  | case3 c r => exact List.prefix_cons_inj c |>.2 (List.takeWhile_prefix _)
  | case4 => exact List.nil_prefix

variable {t : Text} {fault : Integer.TooLong}

/-- A number with too many digits is refused for a run of digits in the text. -/
theorem hasLongRun_of_readNumber (h : readNumber t = .error (.tooLong fault)) :
    HasLongRun t fault.digits := by
  unfold readNumber at h
  split at h
  next negative unsigned sign =>
  dsimp only at h
  split at h
  · cases h
  split at h
  · cases h
  split at h
  · split at h
    · cases h
    next fault' refused =>
      obtain rfl := Stop.tooLong.inj (Except.error.inj h)
      obtain ⟨long, rfl⟩ := Integer.read_eq_error_iff.1 refused
      have inside : wholeDigits unsigned <:+: t :=
        (wholeDigits_begins unsigned).isInfix.trans (suffix_of_sign sign).isInfix
      exact ⟨_, inside, isDigit_of_mem_wholeDigits, rfl, long⟩
  · cases h

/-- A value without parts is refused so for a run of digits in the text too. -/
theorem hasLongRun_of_readScalar (h : readScalar t = .error (.tooLong fault)) :
    HasLongRun t fault.digits := by
  rw [readScalar] at h
  split at h
  · cases h
  · exact hasLongRun_of_readNumber h

/-- Digits in strings do not count. -/
theorem readString_ne_tooLong {start : Text} {p : Partial} :
    readString start p t ≠ .error (.tooLong fault) := by
  intro h
  -- A string goes on in three cases; it ends well or with a defect of its form in all others.
  fun_induction readString start p t with
  | case4 _ _ _ _ _ _ _ _ _ _ ih => exact ih h
  | case7 _ _ _ _ _ _ _ ih => exact ih h
  | case10 _ _ _ _ _ _ ih => exact ih h
  | _ => cases h

/-! ## Values -/

/-- Where a reader of given steps meets an integer that is too long, its digits stand in a row. -/
structure MeetsLongRun (fuel : Nat) : Prop where
  /-- In a value. -/
  value {t : Text} {fault : Integer.TooLong} (h : readValue fuel t = .error (.tooLong fault))
    (clean : ∀ c ∈ t, c.isSurrogate = false) : HasLongRun t fault.digits
  /-- In a list. -/
  items {done : List Json} {t : Text} {fault : Integer.TooLong}
    (h : readItems fuel done t = .error (.tooLong fault))
    (clean : ∀ c ∈ t, c.isSurrogate = false) : HasLongRun t fault.digits
  /-- In an object. -/
  members {done : Members} {t : Text} {fault : Integer.TooLong}
    (h : readMembers fuel done t = .error (.tooLong fault))
    (clean : ∀ c ∈ t, c.isSurrogate = false) : HasLongRun t fault.digits

section Values

variable {fuel : Nat} (ih : MeetsLongRun fuel) (clean : ∀ c ∈ t, c.isSurrogate = false)

include ih clean

/-- A value is refused so for a run of digits in the text, if its parts are. -/
theorem MeetsLongRun.value_succ (h : readValue (fuel + 1) t = .error (.tooLong fault)) :
    HasLongRun t fault.digits := by
  have clean_of {s : Text} (ends : s <:+ t) : ∀ c ∈ s, c.isSurrogate = false :=
    fun c hc => clean c (ends.subset hc)
  cases t with
  | nil => cases h
  | cons c t =>
  have tail : t <:+ c :: t := List.suffix_cons c t
  rw [readValue] at h
  split at h
  · split at h
    · cases h
    next stop read =>
      obtain rfl := Except.error.inj h
      exact absurd read readString_ne_tooLong
  split at h
  · split at h
    · cases h
    next d rest blanks =>
      have ends : d :: rest <:+ c :: t := (suffix_of_skipBlanks blanks).trans tail
      split at h
      · cases h
      · exact (ih.members h (clean_of ends)).of_suffix ends
  split at h
  · split at h
    · cases h
    next d rest blanks =>
      have ends : d :: rest <:+ c :: t := (suffix_of_skipBlanks blanks).trans tail
      split at h
      · cases h
      · exact (ih.items h (clean_of ends)).of_suffix ends
  · exact hasLongRun_of_readScalar h

/-- So are the items of an array. -/
theorem MeetsLongRun.items_succ {done : List Json}
    (h : readItems (fuel + 1) done t = .error (.tooLong fault)) : HasLongRun t fault.digits := by
  have clean_of {s : Text} (ends : s <:+ t) : ∀ c ∈ s, c.isSurrogate = false :=
    fun c hc => clean c (ends.subset hc)
  rw [readItems] at h
  split at h
  next stop read =>
    obtain rfl := Except.error.inj h
    exact ih.value read clean
  next w rest read =>
  have rest_ends : rest <:+ t := ((readers fuel).value read clean).suffix
  split at h
  · cases h
  next d rest' blanks =>
  have ends : rest' <:+ t :=
    ((List.suffix_cons d rest').trans (suffix_of_skipBlanks blanks)).trans rest_ends
  split at h
  · cases h
  split at h
  · have next : skipBlanks rest' <:+ t := (List.dropWhile_suffix _).trans ends
    exact (ih.items h (clean_of next)).of_suffix next
  · cases h

/-- So are the members of an object. -/
theorem MeetsLongRun.members_succ {done : Members}
    (h : readMembers (fuel + 1) done t = .error (.tooLong fault)) : HasLongRun t fault.digits := by
  have clean_of {s : Text} (ends : s <:+ t) : ∀ c ∈ s, c.isSurrogate = false :=
    fun c hc => clean c (ends.subset hc)
  cases t with
  | nil => cases h
  | cons c t =>
  rw [readMembers] at h
  split at h
  case isFalse => cases h
  split at h
  next stop read =>
    obtain rfl := Except.error.inj h
    exact absurd read readString_ne_tooLong
  next key afterKey readKey =>
  have afterKey_ends : afterKey <:+ c :: t :=
    (suffix_of_readString readKey).trans (List.suffix_cons c t)
  split at h
  · cases h
  next colon afterColon blanks =>
  -- What each part leaves is an end of the text, so a run of digits in it is one of the text.
  have value_ends : skipBlanks afterColon <:+ c :: t :=
    (List.dropWhile_suffix _).trans
      (((List.suffix_cons colon afterColon).trans (suffix_of_skipBlanks blanks)).trans
        afterKey_ends)
  split at h
  case isFalse => cases h
  split at h
  next stop read =>
    obtain rfl := Except.error.inj h
    exact (ih.value read (clean_of value_ends)).of_suffix value_ends
  next w rest read =>
  have rest_ends : rest <:+ c :: t :=
    ((readers fuel).value read (clean_of value_ends)).suffix.trans value_ends
  split at h
  · cases h
  next d rest' blanks' =>
  have ends : rest' <:+ c :: t :=
    ((List.suffix_cons d rest').trans (suffix_of_skipBlanks blanks')).trans rest_ends
  split at h
  · cases h
  split at h
  · have next : skipBlanks rest' <:+ c :: t := (List.dropWhile_suffix _).trans ends
    exact (ih.members h (clean_of next)).of_suffix next
  · cases h

omit ih clean

/-- Whatever the steps to spend, too many digits are a run of digits in the text. -/
theorem meetsLongRun (fuel : Nat) : MeetsLongRun fuel := by
  -- As for what reading yields: each of the three readers calls the others with one step less.
  induction fuel with
  | zero =>
    constructor
    · intro t fault h
      cases h
    · intro done t fault h
      cases h
    · intro done t fault h
      cases h
  | succ fuel ih =>
    constructor
    · intro t fault h clean
      exact ih.value_succ clean h
    · intro done t fault h clean
      exact ih.items_succ clean h
    · intro done t fault h clean
      exact ih.members_succ clean h

end Values

/-- **A document is refused for an integer only if it holds so many digits in a row.** -/
theorem hasLongRun_of_read (h : read t = .error (.tooLong fault))
    (clean : ∀ c ∈ t, c.isSurrogate = false) : HasLongRun t fault.digits := by
  have all : readAll t = .error (.tooLong fault) := by
    rw [read] at h
    split at h
    · cases h
    · cases h
    next stopped =>
      obtain rfl := ReadFault.tooLong.inj (Except.error.inj h)
      exact stopped
  cases t with
  | nil => cases all
  | cons c t =>
  rw [readAll] at all
  split at all
  · cases all
  have blanks : skipBlanks (c :: t) <:+ c :: t := List.dropWhile_suffix _
  split at all
  next stop stopped =>
    obtain rfl := Except.error.inj all
    have clean' : ∀ d ∈ skipBlanks (c :: t), d.isSurrogate = false :=
      fun d hd => clean d (blanks.subset hd)
    exact ((meetsLongRun _).value stopped clean').of_suffix blanks
  · split at all
    · cases all
    · cases all

end Packaging.Json
