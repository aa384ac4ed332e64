import Mathlib.Order.Interval.Set.Basic

/-!
# Ranges of positions

What a byte range stands for, as a set of positions that may or may not be there,
and the interval it selects from a file of a given size. A slice is what is found at
the positions of an interval; slices that touch put the file together again.
-/

namespace ByteRange

/-- A range as it is asked for, before the size is known. -/
inductive Range where
  | bounded : Nat → Nat → Range
  | openEnded : Nat → Range
  | suffix : Nat → Range
  deriving DecidableEq, Repr

/-- The positions it denotes; the last ones are counted from the size. -/
def Range.positions (size : Nat) : Range → Set Nat
  | .bounded first last => Set.Icc first last
  | .openEnded first => Set.Ici first
  | .suffix length => {i | size ≤ i + length}

/-- It ends before it starts. -/
def Range.Inverted : Range → Prop
  | .bounded first last => last < first
  | .openEnded _ => False
  | .suffix _ => False

/-- It starts where there is nothing left, or asks for the last zero bytes. -/
def Range.Misses (size : Nat) : Range → Prop
  | .bounded first _ => size ≤ first
  | .openEnded first => size ≤ first
  | .suffix length => length = 0 ∨ size = 0

/-- Its first and its last position, as far as the file goes. -/
def Range.clamp (size : Nat) : Range → Nat × Nat
  | .bounded first last => (first, min last (size - 1))
  | .openEnded first => (first, size - 1)
  | .suffix length => (size - length, size - 1)

instance (r : Range) : Decidable r.Inverted :=
  match r with
  | .bounded first last => inferInstanceAs (Decidable (last < first))
  | .openEnded _ => inferInstanceAs (Decidable False)
  | .suffix _ => inferInstanceAs (Decidable False)

instance (size : Nat) (r : Range) : Decidable (r.Misses size) :=
  match r with
  | .bounded first _ => inferInstanceAs (Decidable (size ≤ first))
  | .openEnded first => inferInstanceAs (Decidable (size ≤ first))
  | .suffix length => inferInstanceAs (Decidable (length = 0 ∨ size = 0))

/-- The positions of a file that a range denotes. -/
def Range.selected (size : Nat) (r : Range) : Set Nat := r.positions size ∩ Set.Iio size

section Selection

variable {size first last : Nat} {r : Range}

theorem mem_selected_bounded {i : Nat} :
    i ∈ (Range.bounded first last).selected size ↔ first ≤ i ∧ i ≤ last ∧ i < size :=
  and_assoc

theorem mem_selected_openEnded {i : Nat} :
    i ∈ (Range.openEnded first).selected size ↔ first ≤ i ∧ i < size :=
  Iff.rfl

theorem mem_selected_suffix {i length : Nat} :
    i ∈ (Range.suffix length).selected size ↔ size ≤ i + length ∧ i < size :=
  Iff.rfl

/-- Nothing is selected by the ranges that miss the file, and by no other. -/
theorem selected_eq_empty_iff (h : ¬ r.Inverted) : r.selected size = ∅ ↔ r.Misses size := by
  rw [Set.eq_empty_iff_forall_notMem]
  cases r with
  | bounded first last =>
    have hle : first ≤ last := Nat.not_lt.mp h
    constructor
    · intro hnone
      have hfirst := hnone first
      rw [mem_selected_bounded] at hfirst
      rw [Range.Misses]
      omega
    · intro (hmiss : size ≤ first) i hi
      rw [mem_selected_bounded] at hi
      omega
  | openEnded first =>
    constructor
    · intro hnone
      have hfirst := hnone first
      rw [mem_selected_openEnded] at hfirst
      rw [Range.Misses]
      omega
    · intro (hmiss : size ≤ first) i hi
      rw [mem_selected_openEnded] at hi
      omega
  | suffix length =>
    constructor
    · intro hnone
      have hlast := hnone (size - 1)
      rw [mem_selected_suffix] at hlast
      rw [Range.Misses]
      omega
    · intro (hmiss : length = 0 ∨ size = 0) i hi
      rw [mem_selected_suffix] at hi
      omega

/-- What is selected is an interval of the file. -/
theorem clamp_spec (h : ¬ r.Inverted) (hr : ¬ r.Misses size) :
    (r.clamp size).1 ≤ (r.clamp size).2 ∧ (r.clamp size).2 < size ∧
      Set.Icc (r.clamp size).1 (r.clamp size).2 = r.selected size := by
  cases r with
  | bounded first last =>
    have hle : first ≤ last := Nat.not_lt.mp h
    have hfirst : first < size := Nat.not_le.mp hr
    simp only [Range.clamp]
    refine ⟨by omega, by omega, ?_⟩
    ext i
    rw [mem_selected_bounded, Set.mem_Icc]
    omega
  | openEnded first =>
    have hfirst : first < size := Nat.not_le.mp hr
    simp only [Range.clamp]
    refine ⟨by omega, by omega, ?_⟩
    ext i
    rw [mem_selected_openEnded, Set.mem_Icc]
    omega
  | suffix length =>
    have hsome : length ≠ 0 ∧ size ≠ 0 := not_or.mp hr
    simp only [Range.clamp]
    refine ⟨by omega, by omega, ?_⟩
    ext i
    rw [mem_selected_suffix, Set.mem_Icc]
    omega

/-- An interval is known from its positions. -/
theorem icc_unique {a b c d : Nat} (hab : a ≤ b) (hcd : c ≤ d)
    (h : Set.Icc a b = Set.Icc c d) : a = c ∧ b = d := by
  have hleft := (Set.Icc_subset_Icc_iff hab).mp h.subset
  have hright := (Set.Icc_subset_Icc_iff hcd).mp h.symm.subset
  omega

/-- The clamped interval is the one interval that is selected. -/
theorem clamp_eq_iff (h : ¬ r.Inverted) (hr : ¬ r.Misses size) :
    r.clamp size = (first, last) ↔
      first ≤ last ∧ last < size ∧ Set.Icc first last = r.selected size := by
  obtain ⟨hle, hlast, hicc⟩ := clamp_spec h hr
  constructor
  · intro heq
    rw [heq] at hle hlast hicc
    exact ⟨hle, hlast, hicc⟩
  · rintro ⟨hle', _, hicc'⟩
    obtain ⟨hfirst, hlast⟩ := icc_unique hle hle' (hicc.trans hicc'.symm)
    exact Prod.ext hfirst hlast

/-- A range that misses the file selects no interval of it. -/
theorem icc_ne_selected (h : ¬ r.Inverted) (hr : r.Misses size) (hle : first ≤ last) :
    Set.Icc first last ≠ r.selected size := by
  rw [(selected_eq_empty_iff h).mpr hr]
  exact (Set.nonempty_Icc.mpr hle).ne_empty

end Selection

section Slices

variable {α : Type u} {xs : List α} {first last : Nat}

/-- What is found from one position to another. -/
def slice (xs : List α) (first last : Nat) : List α := (xs.drop first).take (last - first + 1)

/-- A slice goes on where what is there already ends. -/
theorem take_append_slice (h : first ≤ last) :
    xs.take first ++ slice xs first last = xs.take (last + 1) := by
  have hend : last + 1 = first + (last - first + 1) := by omega
  rw [hend, List.take_add]
  rfl

end Slices

end ByteRange
