import OtaApi.CInteger.Expr

/-!
# The machine's own integers

What the operations on integers of a fixed width do, as the wrap of a type: the steps
from which a computation of the machine is put together.
-/

namespace CInteger

section Conversions

theorem wrap_uint32_toInt32 (n : UInt32) : (IntType.signed 32).wrap n.toNat = n.toInt32.toInt :=
  (BitVec.toInt_eq_toNat_bmod n.toBitVec).symm

theorem wrap_uint32_toInt64 (n : UInt32) :
    (IntType.signed 64).wrap n.toNat = n.toUInt64.toInt64.toInt := by
  rw [← UInt32.toNat_toUInt64]
  exact (BitVec.toInt_eq_toNat_bmod n.toUInt64.toBitVec).symm

theorem wrap_uint32_toUInt64 (n : UInt32) : (IntType.unsigned 64).wrap n.toNat = n.toUInt64.toNat := by
  rw [UInt32.toNat_toUInt64]
  apply wrap_of_holds
  have hlt := n.toNat_lt
  simp only [IntType.Holds]
  omega

theorem wrap_int32_toUInt32 (n : Int32) : (IntType.unsigned 32).wrap n.toInt = n.toUInt32.toNat := by
  have hlt : n.toUInt32.toNat < 2 ^ 32 := n.toUInt32.toNat_lt
  change n.toBitVec.toInt % (2 ^ 32 : Nat) = _
  rw [BitVec.toInt_eq_toNat_bmod, Int.bmod_emod]
  apply Int.emod_eq_of_lt
  · omega
  · exact Int.ofNat_lt.mpr hlt

theorem wrap_int32_toInt64 (n : Int32) : (IntType.signed 64).wrap n.toInt = n.toInt64.toInt := by
  rw [Int32.toInt_toInt64]
  apply wrap_of_holds
  have hlow := n.le_toInt
  have hhigh := n.toInt_lt
  simp only [IntType.Holds]
  omega

theorem wrap_int64_toInt32 (n : Int64) : (IntType.signed 32).wrap n.toInt = n.toInt32.toInt :=
  (Int64.toInt_toInt32 n).symm

end Conversions

section Operators

theorem wrap_int64_sub (a b : Int64) :
    (IntType.signed 64).wrap (BinOp.sub.apply a.toInt b.toInt) = (a - b).toInt :=
  (Int64.toInt_sub a b).symm

theorem wrap_int64_mul (a b : Int64) :
    (IntType.signed 64).wrap (BinOp.mul.apply a.toInt b.toInt) = (a * b).toInt :=
  (Int64.toInt_mul a b).symm

theorem wrap_int64_div (a b : Int64) :
    (IntType.signed 64).wrap (BinOp.div.apply a.toInt b.toInt) = (a / b).toInt :=
  (Int64.toInt_div a b).symm

theorem wrap_uint64_mul (a b : UInt64) :
    (IntType.unsigned 64).wrap (BinOp.mul.apply a.toNat b.toNat) = (a * b).toNat := by
  rw [UInt64.toNat_mul]
  rfl

end Operators

end CInteger
