import OtaApi.Payload

/-!
# A callback that draws a bar

`print_progress_bar()` of `examples/advanced/main/main.c`, without the rate and the
times it prints. It trusts a report to be in range and turns the percentage into the
lengths of two writes.
-/

namespace OtaApi

/-- `PROGRESS_BAR_WIDTH` -/
def progressBarWidth : Int32 := 30

/-- The characters of an array, `none` where none has been written. -/
abbrev CharArray := List (Option Char)

/-- Nothing when the write leaves the array. -/
def memset (a : CharArray) (start : Int32) (c : Char) (count : UInt32) : Option CharArray :=
  if 0 ≤ start ∧ start.toNatClampNeg + count.toNat ≤ a.length then
    some (a.take start.toNatClampNeg ++ List.replicate count.toNat (some c) ++
      a.drop (start.toNatClampNeg + count.toNat))
  else none

inductive ProgressLine where
  | downloading (kb : UInt32)
  | bar (text : CharArray) (percent : Int32) (readKb totalKb remaining : UInt32)
  deriving DecidableEq, Repr

/-- `int filled = progress->percent * PROGRESS_BAR_WIDTH / 100` -/
def filled (progress : OtaApiProgress) : Int32 := progress.percent * progressBarWidth / 100

def printProgressBar (progress : OtaApiProgress) : Option ProgressLine :=
  if progress.percent < 0 then some (.downloading (progress.bytesRead / 1024))
  else do
    let bar ← memset (List.replicate 31 none) 0 '#' (filled progress).toUInt32
    let bar ← memset bar (filled progress) '.' (progressBarWidth - filled progress).toUInt32
    some (.bar (bar.set 30 (some (Char.ofNat 0))) progress.percent (progress.bytesRead / 1024)
      (progress.totalBytes / 1024) (progress.totalBytes - progress.bytesRead))

section Drawing

variable {p : OtaApiProgress}

theorem filled_bounds (h0 : 0 ≤ p.percent) (h100 : p.percent ≤ 100) :
    0 ≤ filled p ∧ filled p ≤ progressBarWidth := by
  rw [Int32.le_iff_toInt_le] at h0 h100
  have h0 : 0 ≤ p.percent.toInt := h0
  have h100 : p.percent.toInt ≤ 100 := h100
  have hmul : (p.percent.toInt * 30).bmod (2 ^ 32) = p.percent.toInt * 30 :=
    Int.bmod_eq_of_le (by omega) (by omega)
  have hdiv : (p.percent.toInt * 30).tdiv 100 = p.percent.toInt * 30 / 100 :=
    Int.tdiv_eq_ediv_of_nonneg (by omega)
  have hquot : (p.percent.toInt * 30 / 100).bmod (2 ^ 32) = p.percent.toInt * 30 / 100 :=
    Int.bmod_eq_of_le (by omega) (by omega)
  have hwidth : progressBarWidth.toInt = 30 := rfl
  have hundred : (100 : Int32).toInt = 100 := rfl
  have hzero : (0 : Int32).toInt = 0 := rfl
  have hfilled : (filled p).toInt = p.percent.toInt * 30 / 100 := by
    rw [filled, Int32.toInt_div, Int32.toInt_mul, hwidth, hundred, hmul, hdiv, hquot]
  rw [Int32.le_iff_toInt_le, Int32.le_iff_toInt_le, hfilled, hwidth, hzero]
  omega

/-- Both writes stay inside the array, and fill it. -/
theorem printProgressBar_inside (h0 : 0 ≤ p.percent) (h100 : p.percent ≤ 100) :
    ∃ n : Nat, n ≤ 30 ∧ (n : Int) = (filled p).toInt ∧ printProgressBar p =
      some (.bar (List.replicate n (some '#') ++ List.replicate (30 - n) (some '.') ++
        [some (Char.ofNat 0)]) p.percent (p.bytesRead / 1024) (p.totalBytes / 1024)
        (p.totalBytes - p.bytesRead)) := by
  obtain ⟨hlow, hhigh⟩ := filled_bounds h0 h100
  have hnot : ¬ p.percent < 0 := Int32.not_lt.mpr h0
  have hn : ((filled p).toNatClampNeg : Int) = (filled p).toInt := Int32.cast_toNatClampNeg _ hlow
  have hcount : (filled p).toUInt32.toNat = (filled p).toNatClampNeg := Int32.toNat_toUInt32_of_le hlow
  have hle : (filled p).toInt ≤ 30 := by
    rw [Int32.le_iff_toInt_le] at hhigh
    exact hhigh
  have hn30 : (filled p).toNatClampNeg ≤ 30 := by omega
  have hrest : (progressBarWidth - filled p).toUInt32.toNat = 30 - (filled p).toNatClampNeg := by
    rw [Int32.toUInt32_sub, UInt32.toNat_sub_of_le _ _ (Int32.toUInt32_le hlow hhigh), hcount]
    rfl
  refine ⟨(filled p).toNatClampNeg, hn30, hn, ?_⟩
  rw [printProgressBar, if_neg hnot]
  have hfirst : memset (List.replicate 31 none) 0 '#' (filled p).toUInt32 =
      some (List.replicate (filled p).toNatClampNeg (some '#') ++
        List.replicate (31 - (filled p).toNatClampNeg) none) := by
    have hzero : (0 : Int32).toNatClampNeg = 0 := rfl
    simp only [memset, hcount, hzero]
    rw [if_pos ⟨Int32.le_refl 0, by rw [List.length_replicate]; omega⟩]
    simp only [List.take_zero, List.nil_append, Nat.zero_add, List.drop_replicate]
  have hsecond : memset (List.replicate (filled p).toNatClampNeg (some '#') ++
      List.replicate (31 - (filled p).toNatClampNeg) none) (filled p) '.'
      (progressBarWidth - filled p).toUInt32 =
      some (List.replicate (filled p).toNatClampNeg (some '#') ++
        List.replicate (30 - (filled p).toNatClampNeg) (some '.') ++ [none]) := by
    simp only [memset, hrest]
    rw [if_pos ⟨hlow, by simp; omega⟩]
    have hlast : 31 - (filled p).toNatClampNeg - (30 - (filled p).toNatClampNeg) = 1 := by omega
    simp [List.drop_append, hlast]
  rw [hfirst]
  simp only [Option.bind_eq_bind, Option.bind_some]
  rw [hsecond]
  simp only [Option.bind_some]
  rw [List.set_append_right _ _ (by simp; omega)]
  have hend : 30 - (List.replicate (filled p).toNatClampNeg (some '#') ++
      List.replicate (30 - (filled p).toNatClampNeg) (some '.')).length = 0 := by
    simp
    omega
  rw [hend]
  rfl

end Drawing

end OtaApi
