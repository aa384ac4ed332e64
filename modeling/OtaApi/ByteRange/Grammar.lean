import Mathlib.Data.List.DropRight
import OtaApi.ByteRange.Denotation

/-!
# How a range is written

One range of bytes as text: `bytes=A-B`, where one of the two numbers may be left
out, possibly with space around it. The grammar says what a text means without
saying how it is read; a reader that splits a text into its two numbers reads it.
-/

namespace ByteRange

/-- Nothing but digits, or nothing at all. -/
def Digits (ds : List Char) : Prop := ∀ c ∈ ds, c.isDigit = true

/-- The number a string of digits stands for, leading zeros included. -/
def number (ds : List Char) : Nat := Nat.ofDigitChars 10 ds 0

/-- A number as it is written. -/
def digits (n : Nat) : List Char := Nat.toDigits 10 n

theorem digits_digits (n : Nat) : Digits (digits n) :=
  fun _ hc => Nat.isDigit_of_mem_toDigits (by decide) (by decide) hc

theorem digits_ne_nil (n : Nat) : digits n ≠ [] := Nat.toDigits_ne_nil

@[simp] theorem number_digits (n : Nat) : number (digits n) = n := Nat.ofDigitChars_ten_toDigits

def unitText : List Char := ['b', 'y', 't', 'e', 's', '=']

/-- The text of a range with these two parts. -/
def rangeText (first last : List Char) : List Char := unitText ++ (first ++ '-' :: last)

/-- The range that two strings of digits ask for, if they ask for one. -/
def rangeOf : List Char → List Char → Option Range
  | [], [] => none
  | [], last => some (.suffix (number last))
  | first, [] => some (.openEnded (number first))
  | first, last => some (.bounded (number first) (number last))

/-- A text asks for a range. -/
inductive Written : List Char → Range → Prop where
  | bounded {first last : List Char} (hf : Digits first) (hl : Digits last) (hfne : first ≠ [])
      (hlne : last ≠ []) : Written (rangeText first last) (.bounded (number first) (number last))
  | openEnded {first : List Char} (hf : Digits first) (hfne : first ≠ []) :
      Written (rangeText first []) (.openEnded (number first))
  | suffix {last : List Char} (hl : Digits last) (hlne : last ≠ []) :
      Written (rangeText [] last) (.suffix (number last))

/-- A text asks for a range, with space around it or without. -/
def Says (space : Char → Bool) (text : List Char) (r : Range) : Prop :=
  ∃ u w v, text = u ++ w ++ v ∧ (∀ c ∈ u, space c = true) ∧ (∀ c ∈ v, space c = true) ∧ Written w r

theorem written_iff {w : List Char} {r : Range} :
    Written w r ↔ ∃ first last, w = rangeText first last ∧ Digits first ∧ Digits last ∧
      rangeOf first last = some r := by
  have none_digits : Digits [] := by simp [Digits]
  constructor
  · intro h
    cases h with
    | @bounded first last hf hl hfne hlne =>
      refine ⟨first, last, rfl, hf, hl, ?_⟩
      cases first with
      | nil => exact absurd rfl hfne
      | cons c cs =>
        cases last with
        | nil => exact absurd rfl hlne
        | cons d ds => rfl
    | @openEnded first hf hfne =>
      refine ⟨first, [], rfl, hf, none_digits, ?_⟩
      cases first with
      | nil => exact absurd rfl hfne
      | cons c cs => rfl
    | @suffix last hl hlne =>
      refine ⟨[], last, rfl, none_digits, hl, ?_⟩
      cases last with
      | nil => exact absurd rfl hlne
      | cons d ds => rfl
  · rintro ⟨first, last, rfl, hf, hl, hr⟩
    cases first with
    | nil =>
      cases last with
      | nil => cases hr
      | cons d ds =>
        cases hr
        exact .suffix hl (List.cons_ne_nil d ds)
    | cons c cs =>
      cases last with
      | nil =>
        cases hr
        exact .openEnded hf (List.cons_ne_nil c cs)
      | cons d ds =>
        cases hr
        exact .bounded hf hl (List.cons_ne_nil c cs) (List.cons_ne_nil d ds)

/-! ## Reading -/

/-- Take the two parts of a text apart. -/
def splitRange (text : List Char) : Option (List Char × List Char) :=
  (unitText.isPrefixOf? text).bind fun rest =>
    match rest.dropWhile Char.isDigit with
    | '-' :: last => if last.all Char.isDigit then some (rest.takeWhile Char.isDigit, last) else none
    | _ => none

theorem takeWhile_digits {first : List Char} (hf : Digits first) (last : List Char) :
    (first ++ '-' :: last).takeWhile Char.isDigit = first ∧
      (first ++ '-' :: last).dropWhile Char.isDigit = '-' :: last := by
  induction first with
  | nil => exact ⟨rfl, rfl⟩
  | cons c cs ih =>
    obtain ⟨hc, hcs⟩ := List.forall_mem_cons.mp hf
    obtain ⟨htake, hdrop⟩ := ih hcs
    rw [List.cons_append, List.takeWhile_cons_of_pos hc, List.dropWhile_cons_of_pos hc, htake]
    exact ⟨rfl, hdrop⟩

/-- The reader accepts the texts of ranges, and finds the parts they were made of. -/
theorem splitRange_iff {text first last : List Char} :
    splitRange text = some (first, last) ↔
      text = rangeText first last ∧ Digits first ∧ Digits last := by
  constructor
  · intro h
    obtain ⟨rest, hrest, hmatch⟩ := Option.bind_eq_some_iff.mp h
    have htext : unitText ++ rest = text := List.isPrefixOf?_eq_some_iff_append_eq.mp hrest
    split at hmatch
    · rename_i last' hdrop
      split at hmatch
      · rename_i hall
        cases hmatch
        refine ⟨?_, fun c hc => List.mem_takeWhile_imp hc, fun c hc => List.all_eq_true.mp hall c hc⟩
        rw [← htext, rangeText, ← hdrop, List.takeWhile_append_dropWhile]
      · cases hmatch
    · cases hmatch
  · rintro ⟨rfl, hf, hl⟩
    have hrest : unitText.isPrefixOf? (rangeText first last) = some (first ++ '-' :: last) :=
      List.isPrefixOf?_eq_some_iff_append_eq.mpr rfl
    obtain ⟨htake, hdrop⟩ := takeWhile_digits hf last
    rw [splitRange, hrest, Option.bind_some, hdrop]
    simp only [htake]
    exact if_pos (List.all_eq_true.mpr hl)

/-- Take off the space on both sides. -/
def strip (space : Char → Bool) (text : List Char) : List Char :=
  (text.dropWhile space).rdropWhile space

/-- What is no space: the signs a range is written with. -/
structure Spacing (space : Char → Bool) : Prop where
  letter : space 'b' = false
  dash : space '-' = false
  digit : ∀ c, c.isDigit = true → space c = false

section Strip

variable {space : Char → Bool} {text : List Char}

theorem strip_split (space : Char → Bool) (text : List Char) :
    ∃ u v, text = u ++ strip space text ++ v ∧ (∀ c ∈ u, space c = true) ∧
      ∀ c ∈ v, space c = true := by
  refine ⟨text.takeWhile space, (text.dropWhile space).rtakeWhile space, ?_, ?_, ?_⟩
  · rw [strip, List.append_assoc, List.rdropWhile_append_rtakeWhile, List.takeWhile_append_dropWhile]
  · intro c hc
    exact List.mem_takeWhile_imp hc
  · intro c hc
    exact List.mem_rtakeWhile_imp hc

theorem strip_append {u w v : List Char} {c d : Char} (hu : ∀ c ∈ u, space c = true)
    (hv : ∀ c ∈ v, space c = true) (hc : w.head? = some c) (hd : w.getLast? = some d)
    (hcs : space c = false) (hds : space d = false) : strip space (u ++ w ++ v) = w := by
  have hstart : (u ++ w ++ v).dropWhile space = w ++ v := by
    obtain ⟨cs, rfl⟩ := List.head?_eq_some_iff.mp hc
    rw [List.append_assoc, List.dropWhile_append_of_pos hu, List.cons_append,
      List.dropWhile_cons_of_neg (by simp [hcs])]
  have hend : (w ++ v).reverse.dropWhile space = w.reverse := by
    obtain ⟨cs, rfl⟩ := List.getLast?_eq_some_iff.mp hd
    rw [List.reverse_append, List.dropWhile_append_of_pos (by simpa using hv), List.reverse_append,
      List.reverse_singleton, List.singleton_append, List.dropWhile_cons_of_neg (by simp [hds])]
  rw [strip, hstart, List.rdropWhile, hend, List.reverse_reverse]

theorem strip_rangeText (hs : Spacing space) {u v first last : List Char}
    (hu : ∀ c ∈ u, space c = true) (hv : ∀ c ∈ v, space c = true) (hl : Digits last) :
    strip space (u ++ rangeText first last ++ v) = rangeText first last := by
  obtain rfl | ⟨ds, d, rfl⟩ := List.eq_nil_or_concat last
  · exact strip_append hu hv rfl (by simp [rangeText]) hs.letter hs.dash
  · have hd : d.isDigit = true := hl d (by simp)
    have hlast : (rangeText first (ds.concat d)).getLast? = some d := by
      rw [List.getLast?_eq_some_iff]
      exact ⟨unitText ++ (first ++ '-' :: ds), by simp [rangeText]⟩
    exact strip_append hu hv rfl hlast hs.letter (hs.digit d hd)

/-- The reader finds the range a text asks for, and nothing in other texts. -/
theorem says_iff (hs : Spacing space) {r : Range} : Says space text r ↔
    ∃ first last, splitRange (strip space text) = some (first, last) ∧ rangeOf first last = some r := by
  constructor
  · rintro ⟨u, w, v, rfl, hu, hv, hw⟩
    obtain ⟨first, last, rfl, hf, hl, hr⟩ := written_iff.mp hw
    rw [strip_rangeText hs hu hv hl]
    exact ⟨first, last, splitRange_iff.mpr ⟨rfl, hf, hl⟩, hr⟩
  · rintro ⟨first, last, hsplit, hr⟩
    obtain ⟨htext, hf, hl⟩ := splitRange_iff.mp hsplit
    obtain ⟨u, v, hall, hu, hv⟩ := strip_split space text
    exact ⟨u, _, v, hall, hu, hv, written_iff.mpr ⟨first, last, htext, hf, hl, hr⟩⟩

end Strip

end ByteRange
