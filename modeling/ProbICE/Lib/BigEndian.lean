import Mathlib.Tactic.Common
import Mathlib.Tactic.Ring

/-! # Numbers in network order

A number of a fixed width is a list of bytes, the highest one first. -/

namespace BigEndian

def read (bs : List UInt8) : Nat := bs.foldl (fun n b => n * 256 + b.toNat) 0

/-- The lowest `width` bytes of a number. -/
def write : Nat → Nat → List UInt8
  | 0, _ => []
  | width + 1, n => write width (n / 256) ++ [UInt8.ofNat n]

theorem read_concat (bs : List UInt8) (b : UInt8) : read (bs ++ [b]) = read bs * 256 + b.toNat := by
  rw [read, List.foldl_append, read]
  rfl

@[simp] theorem length_write (width n : Nat) : (write width n).length = width := by
  induction width generalizing n with
  | zero => rfl
  | succ width ih => rw [write, List.length_append, ih, List.length_singleton]

theorem read_write (width n : Nat) : read (write width n) = n % 256 ^ width := by
  induction width generalizing n with
  | zero => simp [write, read, Nat.mod_one]
  | succ width ih =>
    have hsplit : n % 256 ^ (width + 1) = n % 256 + 256 * (n / 256 % 256 ^ width) := by rw [Nat.pow_succ', Nat.mod_mul]
    have hlow : (UInt8.ofNat n).toNat = n % 256 := UInt8.toNat_ofNat'
    rw [write, read_concat, ih, hlow, hsplit]
    omega

theorem read_write_of_lt {width n : Nat} (h : n < 256 ^ width) : read (write width n) = n := by
  rw [read_write, Nat.mod_eq_of_lt h]

end BigEndian
