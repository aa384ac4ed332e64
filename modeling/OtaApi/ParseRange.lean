import OtaApi.ByteRange.Grammar

/-!
# The range of a request

`parse_range()` of `ota_server.py`. A header is Latin-1 text, so the digits of the
pattern are the ASCII ones and there are a handful of space characters.
-/

namespace OtaApi

open ByteRange

/-- A well-formed range that starts past the end of the file (416). -/
structure RangeNotSatisfiable where
  header : String
  deriving DecidableEq, Repr

/-- What `str.strip()` takes off. -/
def isSpace (c : Char) : Bool :=
  (0x09 ≤ c.toNat && c.toNat ≤ 0x0d) || (0x1c ≤ c.toNat && c.toNat ≤ 0x20) || c.toNat == 0x85 ||
    c.toNat == 0xa0

/-- `RANGE_PATTERN.fullmatch()`, with the groups of the match. -/
def rangePatternFullmatch (text : List Char) : Option (List Char × List Char) := splitRange text

/-- `None` is a header to ignore. -/
def parseRange (header : String) (size : Nat) :
    Except RangeNotSatisfiable (Option (Nat × Nat)) :=
  match rangePatternFullmatch (strip isSpace header.toList) with
  | none => .ok none
  | some (first, last) =>
    if first = last ∧ last = [] then .ok none
    else if first = [] then
      if number last = 0 ∨ size = 0 then .error ⟨header⟩
      else
        -- `max(size - int(last), 0)`: a difference of naturals stops at zero
        .ok (some (size - number last, size - 1))
    else if last ≠ [] ∧ number first > number last then .ok none
    else if number first ≥ size then .error ⟨header⟩
    else .ok (some (number first, if last = [] then size - 1 else min (number last) (size - 1)))

/-- `f'bytes={first}-{last}'` -/
def renderRange (first last : Nat) : String :=
  "bytes=" ++ toString first ++ "-" ++ toString last

theorem isSpace_spacing : Spacing isSpace where
  letter := by decide
  dash := by decide
  digit c hc := by
    simp only [Char.isDigit, Bool.and_eq_true, decide_eq_true_eq, ge_iff_le, UInt32.le_iff_toNat_le] at hc
    have hval : c.toNat = c.val.toNat := rfl
    have hzero : '0'.val.toNat = 48 := rfl
    have hnine : '9'.val.toNat = 57 := rfl
    rw [isSpace, Bool.eq_false_iff]
    simp only [ne_eq, Bool.or_eq_true, Bool.and_eq_true, decide_eq_true_eq, beq_iff_eq]
    omega

section

variable {header : String} {size : Nat} {r : Range}

/-- What the header asks for. -/
def Asks (header : String) (r : Range) : Prop := Says isSpace header.toList r

theorem toList_renderRange (first last : Nat) :
    (renderRange first last).toList = rangeText (digits first) (digits last) := by
  simp [renderRange, rangeText, digits, unitText, Nat.toList_repr]

theorem renderRange_asks (first last : Nat) : Asks (renderRange first last) (.bounded first last) := by
  have hwritten : Written (rangeText (digits first) (digits last)) (.bounded first last) := by
    have hw := Written.bounded (digits_digits first) (digits_digits last) (digits_ne_nil first)
      (digits_ne_nil last)
    rwa [number_digits, number_digits] at hw
  refine ⟨[], _, [], ?_, by simp, by simp, hwritten⟩
  rw [toList_renderRange, List.nil_append, List.append_nil]

/-- What the source makes of a range that is asked for. -/
theorem parseRange_asks (h : Asks header r) : parseRange header size =
    if r.Inverted then .ok none
    else if r.Misses size then .error ⟨header⟩ else .ok (some (r.clamp size)) := by
  obtain ⟨first, last, hsplit, hr⟩ := (says_iff isSpace_spacing).mp h
  rw [parseRange, rangePatternFullmatch, hsplit]
  cases first with
  | nil =>
    cases last with
    | nil => cases hr
    | cons d ds =>
      cases hr
      simp only [reduceCtorEq, not_false_eq_true, true_and, if_true, if_false, and_self, ne_eq]
      rfl
  | cons c cs =>
    cases last with
    | nil =>
      cases hr
      simp only [reduceCtorEq, false_and, if_true, if_false, not_true_eq_false, ne_eq]
      rfl
    | cons d ds =>
      cases hr
      simp only [reduceCtorEq, and_false, not_false_eq_true, true_and, if_false, ne_eq]
      rfl

/-- A header that asks for nothing is ignored. -/
theorem parseRange_silent (h : ∀ r, ¬ Asks header r) : parseRange header size = .ok none := by
  rw [parseRange, rangePatternFullmatch]
  cases hsplit : splitRange (strip isSpace header.toList) with
  | none => rfl
  | some parts =>
    obtain ⟨first, last⟩ := parts
    have hnone : rangeOf first last = none := by
      rw [Option.eq_none_iff_forall_ne_some]
      intro r hr
      exact h r ((says_iff isSpace_spacing).mpr ⟨first, last, hsplit, hr⟩)
    cases first with
    | nil =>
      cases last with
      | nil => rfl
      | cons d ds => cases hnone
    | cons c cs => cases last <;> cases hnone

/-- A header asks for one range at most. -/
theorem asks_unique {r' : Range} (h : Asks header r) (h' : Asks header r') : r = r' := by
  obtain ⟨first, last, hsplit, hr⟩ := (says_iff isSpace_spacing).mp h
  obtain ⟨first', last', hsplit', hr'⟩ := (says_iff isSpace_spacing).mp h'
  rw [hsplit] at hsplit'
  cases hsplit'
  rw [hr] at hr'
  exact Option.some.inj hr'

/-- The answers to a header, and what each of them says about it. -/
structure Answers (header : String) (size : Nat) : Prop where
  ignored : parseRange header size = .ok none ↔
    (¬ ∃ r, Asks header r) ∨ ∃ r, Asks header r ∧ r.Inverted
  unsatisfiable : (∃ e, parseRange header size = .error e) ↔
    ∃ r, Asks header r ∧ ¬ r.Inverted ∧ r.selected size = ∅
  missed : (∃ e, parseRange header size = .error e) ↔
    ∃ r, Asks header r ∧ ¬ r.Inverted ∧ r.Misses size
  satisfied : ∀ first last, parseRange header size = .ok (some (first, last)) ↔
    first ≤ last ∧ last < size ∧
      ∃ r, Asks header r ∧ ¬ r.Inverted ∧ Set.Icc first last = r.selected size

theorem answers_silent (h : ¬ ∃ r, Asks header r) : Answers header size := by
  have hnone : parseRange header size = .ok none := parseRange_silent fun r hr => h ⟨r, hr⟩
  constructor
  · exact ⟨fun _ => .inl h, fun _ => hnone⟩
  · rw [hnone]
    constructor
    · rintro ⟨e, he⟩
      cases he
    · rintro ⟨r, hr, _⟩
      exact absurd ⟨r, hr⟩ h
  · rw [hnone]
    constructor
    · rintro ⟨e, he⟩
      cases he
    · rintro ⟨r, hr, _⟩
      exact absurd ⟨r, hr⟩ h
  · intro first last
    rw [hnone]
    constructor
    · intro he
      cases he
    · rintro ⟨_, _, r, hr, _⟩
      exact absurd ⟨r, hr⟩ h

theorem answers_asks (h : Asks header r) : Answers header size := by
  have hone : ∀ P : Range → Prop, (∃ r', Asks header r' ∧ P r') ↔ P r := by
    intro P
    constructor
    · rintro ⟨r', hr', hP⟩
      rwa [asks_unique h hr']
    · intro hP
      exact ⟨r, h, hP⟩
  have hsome : ∃ r, Asks header r := ⟨r, h⟩
  have hempty : (¬ r.Inverted ∧ r.selected size = ∅) ↔ (¬ r.Inverted ∧ r.Misses size) :=
    and_congr_right selected_eq_empty_iff
  have herror : (∃ e, parseRange header size = .error e) ↔ ¬ r.Inverted ∧ r.Misses size := by
    rw [parseRange_asks h]
    by_cases hinv : r.Inverted
    · simp [hinv]
    · by_cases hmiss : r.Misses size <;> simp [hinv, hmiss]
  constructor
  · rw [hone, parseRange_asks h]
    by_cases hinv : r.Inverted
    · simp [hinv]
    · by_cases hmiss : r.Misses size <;> simp [hinv, hmiss, hsome]
  · rw [hone, hempty, herror]
  · rw [hone, herror]
  · intro first last
    rw [hone, parseRange_asks h]
    by_cases hinv : r.Inverted
    · simp [hinv]
    · by_cases hmiss : r.Misses size
      · rw [if_neg hinv, if_pos hmiss]
        constructor
        · intro he
          cases he
        · rintro ⟨hle, _, _, hicc⟩
          exact absurd hicc (icc_ne_selected hinv hmiss hle)
      · rw [if_neg hinv, if_neg hmiss, Except.ok.injEq, Option.some.injEq, clamp_eq_iff hinv hmiss]
        simp [hinv]

/-- Parsing a header implements the ranges it is about. -/
theorem parseRange_exact (header : String) (size : Nat) : Answers header size ∧
    ∀ first last, first ≤ last → last < size →
      parseRange (renderRange first last) size = .ok (some (first, last)) := by
  constructor
  · by_cases h : ∃ r, Asks header r
    · obtain ⟨r, hr⟩ := h
      exact answers_asks hr
    · exact answers_silent h
  · intro first last hle hlast
    have hinv : ¬ (Range.bounded first last).Inverted := Nat.not_lt.mpr hle
    have hmiss : ¬ (Range.bounded first last).Misses size := by
      rw [Range.Misses]
      omega
    have hmin : min last (size - 1) = last := by omega
    rw [parseRange_asks (renderRange_asks first last), if_neg hinv, if_neg hmiss, Range.clamp, hmin]

example : parseRange " bytes=007-999 " 10 = .ok (some (7, 9)) := by decide
example : parseRange "bytes=-3" 10 = .ok (some (7, 9)) := by decide
example : parseRange "bytes=0-1,5-6" 10 = .ok none := by decide
example : parseRange "bytes=-3" 0 = .error ⟨"bytes=-3"⟩ := by decide

end

end OtaApi
