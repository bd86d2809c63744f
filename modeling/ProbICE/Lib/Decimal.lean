import Mathlib.Algebra.Group.Int.Defs
import Mathlib.Algebra.Group.Nat.Defs
import Mathlib.Data.List.TakeWhile
import Mathlib.Tactic.Common

/-! # Decimal numbers as bytes

Numbers are printed without sign and without leading zeros. Readers skip blanks, take a sign and then
digits up to the first byte that is none, so what stands behind a number does not matter to them. -/

namespace Decimal

/-- An ASCII digit. -/
def isDigit (b : UInt8) : Bool := 0x30 ≤ b && b ≤ 0x39

/-- What `isspace` counts as a blank. -/
def isBlank (b : UInt8) : Bool := b == 0x20 || (0x09 ≤ b && b ≤ 0x0D)

/-- The decimal digits of a number. -/
def print (n : Nat) : List UInt8 := (Nat.toDigits 10 n).map fun c => UInt8.ofNat c.toNat

/-- The number that a list of digits stands for. -/
def value (ds : List UInt8) : Nat := ds.foldl (fun n b => 10 * n + (b.toNat - 0x30)) 0

/-- The sign and the digits at the front of a text, behind its blanks. The sign is `true` for a minus. -/
def scan (w : List UInt8) : Bool × List UInt8 :=
  match w.dropWhile isBlank with
  | [] => (false, [])
  | b :: rest =>
    if b = 0x2D then (true, rest.takeWhile isDigit)
    else if b = 0x2B then (false, rest.takeWhile isDigit)
    else (false, (b :: rest).takeWhile isDigit)

/-- `atoi`, by way of `strtol` with a `long` of 64 bits: the number is clamped to a `long` and then cut
    down to an `int`. A text without a number gives 0. -/
def atoi (w : List UInt8) : Int :=
  let (minus, ds) := scan w
  let n : Int := if minus then -(value ds : Int) else value ds
  Int.bmod (max (-2 ^ 63) (min n (2 ^ 63 - 1))) (2 ^ 32)

/-- Reading an `unsigned int` of 32 bits from a stream: a number that is too large gives the largest one,
    a minus counts down from 2 ^ 32, and a text without a number gives 0. -/
def readUInt32 (w : List UInt8) : UInt32 :=
  let (minus, ds) := scan w
  if 2 ^ 32 ≤ value ds then UInt32.ofNat (2 ^ 32 - 1)
  else if minus then UInt32.ofNat (2 ^ 32 - value ds) else UInt32.ofNat (value ds)

/-- The sign at the front of a text and what stands behind it. -/
def sign : List UInt8 → Bool × List UInt8
  | [] => (false, [])
  | b :: rest => if b = 0x2D then (true, rest) else if b = 0x2B then (false, rest) else (false, b :: rest)

/-- The number that a text stands for which is nothing but decimal digits with at most a sign in front of them. -/
def parse (w : List UInt8) : Option Int :=
  let (minus, ds) := sign w
  if ds ≠ [] ∧ ds.all isDigit then some (if minus then -(value ds : Int) else value ds) else none

theorem isDigit_of_char {c : Char} (h : c.isDigit) : isDigit (UInt8.ofNat c.toNat) := by
  have hc : 48 ≤ c.toNat ∧ c.toNat ≤ 57 := by simpa [Char.isDigit, UInt32.le_iff_toNat_le] using h
  have : (UInt8.ofNat c.toNat).toNat = c.toNat := by
    rw [UInt8.toNat_ofNat']
    omega
  simp [isDigit, UInt8.le_iff_toNat_le, this, hc]

theorem isDigit_of_mem_print {n : Nat} {b : UInt8} (h : b ∈ print n) : isDigit b := by
  obtain ⟨c, hc, rfl⟩ := List.mem_map.mp h
  exact isDigit_of_char (Nat.isDigit_of_mem_toDigits (by decide) (by decide) hc)

theorem print_ne_nil (n : Nat) : print n ≠ [] := by
  simp [print, Nat.toDigits_ne_nil]

theorem value_print (n : Nat) : value (print n) = n := by
  have hfold : ∀ (cs : List Char) (m : Nat), (∀ c ∈ cs, c.isDigit) →
      (cs.map fun c => UInt8.ofNat c.toNat).foldl (fun n b => 10 * n + (b.toNat - 0x30)) m =
        Nat.ofDigitChars 10 cs m := by
    intro cs
    induction cs with
    | nil => simp
    | cons c cs ih =>
      intro m h
      have hc : 48 ≤ c.toNat ∧ c.toNat ≤ 57 := by
        simpa [Char.isDigit, UInt32.le_iff_toNat_le] using h c List.mem_cons_self
      have hb : (UInt8.ofNat c.toNat).toNat = c.toNat := by
        rw [UInt8.toNat_ofNat']
        omega
      rw [List.map_cons, List.foldl_cons, ih _ fun d hd => h d (List.mem_cons_of_mem _ hd), Nat.ofDigitChars_cons, hb]
      rfl
  rw [value, print, hfold _ _ fun c hc => Nat.isDigit_of_mem_toDigits (by decide) (by decide) hc]
  exact Nat.ofDigitChars_ten_toDigits

theorem print_injective {m n : Nat} (h : print m = print n) : m = n := by
  rw [← value_print m, h, value_print]

theorem scan_print (n : Nat) : scan (print n) = (false, print n) := by
  have hdigit : ∀ b ∈ print n, isDigit b := fun b => isDigit_of_mem_print
  rcases hn : print n with _ | ⟨b, ds⟩
  · exact absurd hn (print_ne_nil n)
  · rw [hn] at hdigit
    have hb : 0x30 ≤ b.toNat ∧ b.toNat ≤ 0x39 := by
      simpa [isDigit, UInt8.le_iff_toNat_le] using hdigit b List.mem_cons_self
    have hblank : ¬ isBlank b = true := by
      simp only [isBlank, Bool.or_eq_true, beq_iff_eq, Bool.and_eq_true, decide_eq_true_eq, UInt8.le_iff_toNat_le, ←
        UInt8.toNat_inj, not_or, not_and]
      simp
      omega
    have hminus : b ≠ 0x2D := by
      rintro rfl
      simp at hb
    have hplus : b ≠ 0x2B := by
      rintro rfl
      simp at hb
    rw [scan, List.dropWhile_cons_of_neg hblank]
    simp only [hminus, hplus, if_false]
    rw [List.takeWhile_eq_self_iff.mpr hdigit]

theorem scan_eq_sign (w : List UInt8) :
    scan w = ((sign (w.dropWhile isBlank)).1, (sign (w.dropWhile isBlank)).2.takeWhile isDigit) := by
  unfold scan sign
  split
  · rfl
  · split
    · rfl
    · split <;> rfl

theorem mem_of_sign {w : List UInt8} (h : ∀ b ∈ (sign w).2, isDigit b = true) :
    ∀ b ∈ w, isDigit b = true ∨ b = 0x2D ∨ b = 0x2B := by
  rcases w with _ | ⟨c, rest⟩
  · simp
  · simp only [sign] at h
    intro b hb
    split at h
    · rename_i hminus
      exact (List.mem_cons.mp hb).elim (fun hbc => .inr (.inl (hbc.trans hminus))) fun hb => .inl (h b hb)
    · split at h
      · rename_i hplus
        exact (List.mem_cons.mp hb).elim (fun hbc => .inr (.inr (hbc.trans hplus))) fun hb => .inl (h b hb)
      · exact .inl (h b hb)

theorem not_isBlank {b : UInt8} (h : isDigit b = true ∨ b = 0x2D ∨ b = 0x2B) : isBlank b = false := by
  rcases h with h | rfl | rfl
  · have hb : 0x30 ≤ b.toNat ∧ b.toNat ≤ 0x39 := by simpa [isDigit, UInt8.le_iff_toNat_le] using h
    rw [← Bool.not_eq_true, isBlank]
    simp only [Bool.or_eq_true, beq_iff_eq, Bool.and_eq_true, decide_eq_true_eq, UInt8.le_iff_toNat_le, ← UInt8.toNat_inj,
      UInt8.reduceToNat]
    omega
  · rfl
  · rfl

theorem parse_eq_some {w : List UInt8} {n : Int} (h : parse w = some n) :
    (∀ b ∈ (sign w).2, isDigit b = true) ∧ n = if (sign w).1 then -(value (sign w).2 : Int) else value (sign w).2 := by
  obtain ⟨⟨-, hall⟩, hn⟩ := Option.ite_none_right_eq_some.mp h
  exact ⟨List.all_eq_true.mp hall, (Option.some.inj hn).symm⟩

theorem mem_of_parse {w : List UInt8} {n : Int} (h : parse w = some n) :
    ∀ b ∈ w, isDigit b = true ∨ b = 0x2D ∨ b = 0x2B := mem_of_sign (parse_eq_some h).1

/-- A reader finds all of a text that is a number as a whole. -/
theorem scan_of_parse {w : List UInt8} {n : Int} (h : parse w = some n) :
    n = if (scan w).1 then -(value (scan w).2 : Int) else value (scan w).2 := by
  obtain ⟨hall, hn⟩ := parse_eq_some h
  have hblank : w.dropWhile isBlank = w := by
    rcases w with _ | ⟨b, rest⟩
    · rfl
    · exact List.dropWhile_cons_of_neg (by simp [not_isBlank (mem_of_parse h b List.mem_cons_self)])
  rw [scan_eq_sign, hblank, List.takeWhile_eq_self_iff.mpr hall]
  exact hn

/-- A number that fits an `int` is read as it stands. -/
theorem atoi_of_parse {w : List UInt8} {n : Int} (h : parse w = some n) (hmin : -2 ^ 31 ≤ n) (hmax : n < 2 ^ 31) :
    atoi w = n := by
  have hatoi : atoi w = Int.bmod (max (-2 ^ 63) (min n (2 ^ 63 - 1))) (2 ^ 32) := by rw [atoi, scan_of_parse h]
  have hclamp : max (-2 ^ 63) (min n (2 ^ 63 - 1)) = n := by omega
  rw [hatoi, hclamp]
  exact Int.bmod_eq_of_le (by omega) (by omega)

theorem atoi_print {n : Nat} (h : n < 2 ^ 31) : atoi (print n) = n := by
  simp only [atoi, scan_print, value_print, Bool.false_eq_true, if_false]
  have hclamp : max (-2 ^ 63) (min (n : Int) (2 ^ 63 - 1)) = n := by omega
  rw [hclamp]
  exact Int.bmod_eq_of_le (by omega) (by omega)

theorem readUInt32_print (n : UInt32) : readUInt32 (print n.toNat) = n := by
  have h : ¬ 2 ^ 32 ≤ n.toNat := by
    have := n.toNat_lt
    omega
  simp only [readUInt32, scan_print, value_print, h, if_false, Bool.false_eq_true]
  exact UInt32.ofNat_toNat

end Decimal
