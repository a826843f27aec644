import Mathlib.Algebra.Group.Int.Defs
import Mathlib.Algebra.Group.Nat.Defs
import Mathlib.Data.List.Basic

/-! Bytes, and the little-endian scalars that flatbuffers and the datagram header use. -/
namespace HumbleNet

abbrev Bytes := List UInt8

def leNat : Bytes → Nat
  | [] => 0
  | b :: bs => b.toNat + 256 * leNat bs

def leBytes : Nat → Nat → Bytes
  | 0, _ => []
  | k + 1, n => UInt8.ofNat n :: leBytes k (n / 256)

@[simp] theorem leBytes_length (k n : Nat) : (leBytes k n).length = k := by
  induction k generalizing n with
  | zero => rfl
  | succ k ih => simp only [leBytes, List.length_cons, ih]

theorem leNat_leBytes (k n : Nat) : leNat (leBytes k n) = n % 256 ^ k := by
  induction k generalizing n with
  | zero => simp only [leBytes, leNat, Nat.pow_zero, Nat.mod_one]
  | succ k ih =>
    have low : (UInt8.ofNat n).toNat = n % 256 := UInt8.toNat_ofNat'
    rw [leBytes, leNat, ih, low, Nat.pow_succ', Nat.mod_mul]

theorem leNat_lt (bs : Bytes) : leNat bs < 256 ^ bs.length := by
  induction bs with
  | nil => simp [leNat]
  | cons b bs ih =>
    have hb : b.toNat < 256 := b.toNat_lt
    simp only [leNat, List.length_cons, Nat.pow_succ']
    omega

def readScalar32 (bs : Bytes) : UInt32 := UInt32.ofNat (leNat (bs.take 4))

def writeScalar32 (v : UInt32) : Bytes := leBytes 4 v.toNat

@[simp] theorem writeScalar32_length (v : UInt32) : (writeScalar32 v).length = 4 :=
  leBytes_length 4 _

theorem readScalar32_write (v : UInt32) (bs : Bytes) :
    readScalar32 (writeScalar32 v ++ bs) = v := by
  have front : (writeScalar32 v ++ bs).take 4 = writeScalar32 v :=
    List.take_left' (writeScalar32_length v)
  rw [readScalar32, front, writeScalar32, leNat_leBytes]
  have small : v.toNat % 256 ^ 4 = v.toNat := Nat.mod_eq_of_lt v.toNat_lt
  rw [small, UInt32.ofNat_toNat]

theorem readScalar32_append (bs cs : Bytes) (long : 4 ≤ bs.length) :
    readScalar32 (bs ++ cs) = readScalar32 bs := by
  rw [readScalar32, readScalar32, List.take_append_of_le_length long]

/-- `c_str()`: what a C string function sees of a byte string. -/
def cStr (bs : Bytes) : Bytes := bs.takeWhile (· ≠ 0)

theorem cStr_of_no_nul {bs : Bytes} (h : (0 : UInt8) ∉ bs) : cStr bs = bs := by
  unfold cStr
  induction bs with
  | nil => rfl
  | cons b bs ih =>
    have hb : b ≠ 0 := fun h0 => h (h0 ▸ List.mem_cons_self)
    have tail := ih (fun ht => h (List.mem_cons_of_mem b ht))
    simp only [List.takeWhile_cons, ne_eq, hb, not_false_eq_true, decide_true, if_true, tail]

end HumbleNet
