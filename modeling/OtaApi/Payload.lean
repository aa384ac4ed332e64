import OtaApi.Conversions

/-!
# The arithmetic of a progress report

`int`, `int64_t` and `size_t` meet in one payload. As long as a length is not
negative and not longer than the image, nothing wraps on the way and the payload
says what the integers say.
-/

namespace OtaApi

theorem toNat_toUInt32 {n : Int32} (h : 0 ≤ n) : (n.toUInt32.toNat : Int) = n.toInt := by
  rw [Int32.le_iff_toInt_le] at h
  exact (bytesRead_computes { readBytes := n } h).eq

section Payload

variable {n size : Int32}

theorem bytesRead_payload (hn : 0 ≤ n) :
    ((progressPayload n size).bytesRead.toNat : Int) = n.toInt := toNat_toUInt32 hn

theorem payload_unknown (h : size ≤ 0) :
    (progressPayload n size).totalBytes = 0 ∧ (progressPayload n size).percent = -1 := by
  have hnot : ¬ size > 0 := Int32.not_lt.mpr h
  simp [progressPayload, hnot]

theorem totalBytes_payload (h : 0 < size) :
    ((progressPayload n size).totalBytes.toNat : Int) = size.toInt := by
  have hpos : size > 0 := h
  simp only [progressPayload, if_pos hpos]
  exact toNat_toUInt32 (Int32.le_of_lt h)

/-- The length never exceeds the size in a report exactly when it does not in the
answers. -/
theorem bytesRead_le_iff (h : 0 < size) (hn : 0 ≤ n) :
    (progressPayload n size).bytesRead ≤ (progressPayload n size).totalBytes ↔ n ≤ size := by
  have hread : ((progressPayload n size).bytesRead.toNat : Int) = n.toInt := bytesRead_payload hn
  have htotal : ((progressPayload n size).totalBytes.toNat : Int) = size.toInt := totalBytes_payload h
  rw [UInt32.le_iff_toNat_le, Int32.le_iff_toInt_le]
  omega

theorem percent_payload (h : 0 < size) (hn : 0 ≤ n) (hle : n ≤ size) :
    (progressPayload n size).percent.toInt = n.toInt * 100 / size.toInt := by
  have hpos : size > 0 := h
  rw [Int32.lt_iff_toInt_lt] at h
  rw [Int32.le_iff_toInt_le] at hn hle
  have hcomputes := percent_computes { readBytes := n, totalBytes := size } h hn hle
  simp only [progressPayload, if_pos hpos]
  exact hcomputes.eq

theorem percent_bounds (h : 0 < size) (hn : 0 ≤ n) (hle : n ≤ size) :
    0 ≤ (progressPayload n size).percent ∧ (progressPayload n size).percent ≤ 100 := by
  have hpercent := percent_payload h hn hle
  rw [Int32.lt_iff_toInt_lt] at h
  rw [Int32.le_iff_toInt_le] at hn hle
  have hquot := quotient_bounds hn hle h
  rw [← hpercent] at hquot
  rw [Int32.le_iff_toInt_le, Int32.le_iff_toInt_le]
  exact hquot

/-- The last percent is reached with the last byte. -/
theorem percent_eq_hundred_iff (h : 0 < size) (hn : 0 ≤ n) (hle : n ≤ size) :
    (progressPayload n size).percent = 100 ↔ n = size := by
  rw [← Int32.toInt_inj, ← Int32.toInt_inj, percent_payload h hn hle]
  rw [Int32.lt_iff_toInt_lt] at h
  rw [Int32.le_iff_toInt_le] at hn hle
  have h : 0 < size.toInt := h
  have hundred : (100 : Int32).toInt = 100 := rfl
  rw [hundred]
  constructor
  · intro heq
    have hmul : 100 * size.toInt ≤ n.toInt * 100 :=
      (Int.le_ediv_iff_mul_le h).mp (Int.le_of_eq heq.symm)
    omega
  · intro heq
    rw [heq, Int.mul_ediv_cancel_left _ (by omega)]

/-- A longer download is never reported with a lower percentage. -/
theorem percent_mono {k : Int32} (h : 0 < size) (hn : 0 ≤ n) (hnk : n ≤ k) (hk : k ≤ size) :
    (progressPayload n size).percent ≤ (progressPayload k size).percent := by
  rw [Int32.le_iff_toInt_le, percent_payload h hn (Int32.le_trans hnk hk),
    percent_payload h (Int32.le_trans hn hnk) hk]
  rw [Int32.lt_iff_toInt_lt] at h
  rw [Int32.le_iff_toInt_le] at hnk
  apply Int.ediv_le_ediv h
  omega

theorem bytesRead_mono {k : Int32} (hn : 0 ≤ n) (hnk : n ≤ k) :
    (progressPayload n size).bytesRead ≤ (progressPayload k size).bytesRead :=
  Int32.toUInt32_le hn hnk

end Payload

end OtaApi
