import OtaApi.CInteger.FixedWidth
import OtaApi.Report

/-!
# The integer expressions of the source

Every place where a size or a time is converted or computed with, as an expression of C
for a target on which `int` and `size_t` have 32 bits. Conversions that C makes by
itself are written out.
-/

namespace OtaApi

open CInteger

abbrev int : IntType := .signed 32
abbrev sizeT : IntType := .unsigned 32
abbrev int64T : IntType := .signed 64
abbrev uint64T : IntType := .unsigned 64

inductive Operand where
  | maxHttpRequestSize | progressIntervalMs | nowUs | lastReportUs | timeoutS | readBytes | totalBytes
  deriving DecidableEq, Repr

/-- A value of its declared type for each operand. -/
structure Operands where
  maxHttpRequestSize : UInt32 := 0
  progressIntervalMs : UInt32 := 0
  nowUs : Int64 := 0
  lastReportUs : Int64 := 0
  timeoutS : UInt32 := 0
  readBytes : Int32 := 0
  totalBytes : Int32 := 0
  deriving DecidableEq, Repr

def Operands.value (o : Operands) : Operand → Int
  | .maxHttpRequestSize => o.maxHttpRequestSize.toNat
  | .progressIntervalMs => o.progressIntervalMs.toNat
  | .nowUs => o.nowUs.toInt
  | .lastReportUs => o.lastReportUs.toInt
  | .timeoutS => o.timeoutS.toNat
  | .readBytes => o.readBytes.toInt
  | .totalBytes => o.totalBytes.toInt

/-- `(int)config->max_http_request_size` -/
def requestSizeExpr : Expr Operand := .cast int (.var .maxHttpRequestSize)

/-- `(int64_t)config->progress_interval_ms * 1000` -/
def windowExpr : Expr Operand :=
  .bin .mul int64T (.cast int64T (.var .progressIntervalMs)) (.cast int64T (.lit 1000))

/-- `now_us - *last_report_us` -/
def elapsedExpr : Expr Operand := .bin .sub int64T (.var .nowUs) (.var .lastReportUs)

/-- `(uint64_t)timeout_s * 1000000` -/
def countdownExpr : Expr Operand :=
  .bin .mul uint64T (.cast uint64T (.var .timeoutS)) (.cast uint64T (.lit 1000000))

/-- `(size_t)read_bytes` -/
def bytesReadExpr : Expr Operand := .cast sizeT (.var .readBytes)

/-- `(size_t)total_bytes` -/
def totalBytesExpr : Expr Operand := .cast sizeT (.var .totalBytes)

/-- `(int)((int64_t)read_bytes * 100 / total_bytes)` -/
def percentExpr : Expr Operand :=
  .cast int (.bin .div int64T
    (.bin .mul int64T (.cast int64T (.var .readBytes)) (.cast int64T (.lit 100)))
    (.cast int64T (.var .totalBytes)))

section

variable (o : Operands)

/-- Only the lower half of the sizes gets through. -/
theorem requestSize_eq_iff :
    o.maxHttpRequestSize.toInt32.toInt = o.maxHttpRequestSize.toNat ↔
      o.maxHttpRequestSize.toNat < 2 ^ 31 := by
  have hmachine : requestSizeExpr.eval o.value = o.maxHttpRequestSize.toInt32.toInt :=
    wrap_uint32_toInt32 o.maxHttpRequestSize
  have hvar : (Expr.var Operand.maxHttpRequestSize).Computes o.value o.maxHttpRequestSize.toNat
      o.maxHttpRequestSize.toNat := Expr.computes_var rfl
  have hcast : requestSizeExpr.eval o.value = o.maxHttpRequestSize.toNat ↔
      int.Holds o.maxHttpRequestSize.toNat := hvar.cast_eq_iff
  rw [← hmachine, hcast, IntType.Holds]
  omega

theorem window_computes :
    windowExpr.Computes o.value (o.progressIntervalMs.toUInt64.toInt64 * 1000).toInt
      (o.progressIntervalMs.toNat * 1000) := by
  have hmax := o.progressIntervalMs.toNat_lt
  have hms : (Expr.cast int64T (.var Operand.progressIntervalMs)).Computes o.value
      o.progressIntervalMs.toUInt64.toInt64.toInt o.progressIntervalMs.toNat := by
    refine (Expr.computes_var rfl).cast (wrap_uint32_toInt64 o.progressIntervalMs) ?_
    simp only [IntType.Holds, Operands.value]
    omega
  have hthousand : (Expr.cast int64T (.lit 1000)).Computes o.value (1000 : Int64).toInt 1000 :=
    Expr.computes_literal (by simp [IntType.Holds])
  refine hms.bin hthousand (wrap_int64_mul _ _) trivial ?_
  simp only [IntType.Holds, BinOp.apply]
  omega

/-- The difference of two clocks, if there is room for it. -/
theorem elapsed_computes (hfits : int64T.Holds (o.nowUs.toInt - o.lastReportUs.toInt)) :
    elapsedExpr.Computes o.value (o.nowUs - o.lastReportUs).toInt
      (o.nowUs.toInt - o.lastReportUs.toInt) :=
  (Expr.computes_var rfl).bin (Expr.computes_var rfl) (wrap_int64_sub o.nowUs o.lastReportUs) trivial hfits

theorem countdown_computes :
    countdownExpr.Computes o.value (o.timeoutS.toUInt64 * 1000000).toNat (o.timeoutS.toNat * 1000000) := by
  have hmax := o.timeoutS.toNat_lt
  have hseconds : (Expr.cast uint64T (.var Operand.timeoutS)).Computes o.value
      o.timeoutS.toUInt64.toNat o.timeoutS.toNat := by
    refine (Expr.computes_var rfl).cast (wrap_uint32_toUInt64 o.timeoutS) ?_
    simp only [IntType.Holds, Operands.value]
    omega
  have hmillion : (Expr.cast uint64T (.lit 1000000)).Computes o.value (1000000 : UInt64).toNat 1000000 :=
    Expr.computes_literal (by simp [IntType.Holds])
  refine hseconds.bin hmillion (wrap_uint64_mul _ _) trivial ?_
  simp only [IntType.Holds, BinOp.apply]
  omega

theorem bytesRead_computes (h : 0 ≤ o.readBytes.toInt) :
    bytesReadExpr.Computes o.value o.readBytes.toUInt32.toNat o.readBytes.toInt := by
  have hmax := o.readBytes.toInt_lt
  refine (Expr.computes_var rfl).cast (wrap_int32_toUInt32 o.readBytes) ?_
  simp only [IntType.Holds, Operands.value]
  omega

theorem totalBytes_computes (h : 0 ≤ o.totalBytes.toInt) :
    totalBytesExpr.Computes o.value o.totalBytes.toUInt32.toNat o.totalBytes.toInt := by
  have hmax := o.totalBytes.toInt_lt
  refine (Expr.computes_var rfl).cast (wrap_int32_toUInt32 o.totalBytes) ?_
  simp only [IntType.Holds, Operands.value]
  omega

/-- The quotient fits into an `int`. -/
theorem quotient_bounds {a b : Int} (ha : 0 ≤ a) (hab : a ≤ b) (hb : 0 < b) :
    0 ≤ a * 100 / b ∧ a * 100 / b ≤ 100 := by
  constructor
  · exact Int.ediv_nonneg (by omega) (by omega)
  · apply Int.ediv_le_of_le_mul hb
    omega

theorem percent_computes (hpos : 0 < o.totalBytes.toInt) (hn : 0 ≤ o.readBytes.toInt)
    (hle : o.readBytes.toInt ≤ o.totalBytes.toInt) :
    percentExpr.Computes o.value (o.readBytes.toInt64 * 100 / o.totalBytes.toInt64).toInt32.toInt
      (o.readBytes.toInt * 100 / o.totalBytes.toInt) := by
  have hmax := o.totalBytes.toInt_lt
  have hquot := quotient_bounds hn hle hpos
  have hread : (Expr.cast int64T (.var Operand.readBytes)).Computes o.value
      o.readBytes.toInt64.toInt o.readBytes.toInt := by
    refine (Expr.computes_var rfl).cast (wrap_int32_toInt64 o.readBytes) ?_
    simp only [IntType.Holds, Operands.value]
    omega
  have htotal : (Expr.cast int64T (.var Operand.totalBytes)).Computes o.value
      o.totalBytes.toInt64.toInt o.totalBytes.toInt := by
    refine (Expr.computes_var rfl).cast (wrap_int32_toInt64 o.totalBytes) ?_
    simp only [IntType.Holds, Operands.value]
    omega
  have hhundred : (Expr.cast int64T (.lit 100)).Computes o.value (100 : Int64).toInt 100 :=
    Expr.computes_literal (by simp [IntType.Holds])
  have hproduct := hread.bin hhundred (wrap_int64_mul _ _) trivial (by
    simp only [IntType.Holds, BinOp.apply]
    omega)
  have hdiv : BinOp.div.apply (BinOp.mul.apply o.readBytes.toInt 100) o.totalBytes.toInt =
      o.readBytes.toInt * 100 / o.totalBytes.toInt := by
    apply Int.tdiv_eq_ediv_of_nonneg
    simp only [BinOp.apply]
    omega
  have hquotient := hproduct.bin htotal (wrap_int64_div _ _) (by
    change o.totalBytes.toInt ≠ 0
    omega) (by
    rw [hdiv, IntType.Holds]
    omega)
  rw [hdiv] at hquotient
  apply hquotient.cast (wrap_int64_toInt32 _)
  rw [IntType.Holds]
  omega

end

end OtaApi
