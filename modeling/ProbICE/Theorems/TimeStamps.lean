import ProbICE.TimeUtils
import Mathlib.Tactic.Ring

/-! # Which time stamp is later

Two readings of the clock that are less than half of the range apart are compared right by their time stamps, also where
the time stamps have begun again in between. -/

namespace ProbICE.TalkBase

/-! ### The way from one time stamp to the other -/

theorem toNat_HALF : HALF.toNat = 2147483648 := rfl

theorem toNat_LAST : LAST.toNat = 4294967295 := rfl

theorem toInt_toInt32 (x : UInt32) :
    x.toInt32.toInt = if x.toNat < 2147483648 then (x.toNat : Int) else x.toNat - 4294967296 := by
  change x.toBitVec.toInt = _
  rw [BitVec.toInt_eq_toNat_cond]
  change (if 2 * x.toNat < 2 ^ 32 then (x.toNat : Int) else x.toNat - ↑(2 ^ 32)) = _
  split <;> split <;> omega

theorem toInt_zero : (0 : Int32).toInt = 0 := rfl

/-- The middle one is on the way from the earlier to the later one. -/
theorem timeIsBetween_iff (earlier middle later : UInt32) :
    TimeIsBetween earlier middle later ↔ (middle - earlier).toNat ≤ (later - earlier).toNat := by
  have h₁ := earlier.toNat_lt
  have h₂ := middle.toNat_lt
  have h₃ := later.toNat_lt
  unfold TimeIsBetween
  split
  · rename_i hle
    rw [decide_eq_true_iff]
    simp only [UInt32.le_iff_toNat_le, UInt32.toNat_sub] at hle ⊢
    omega
  · rename_i hle
    rw [decide_eq_true_iff]
    simp only [UInt32.le_iff_toNat_le, UInt32.lt_iff_toNat_lt, UInt32.toNat_sub] at hle ⊢
    omega

theorem timeIsLaterOrEqual_iff (earlier later : UInt32) :
    TimeIsLaterOrEqual earlier later ↔ (later - earlier).toNat < 2147483648 := by
  unfold TimeIsLaterOrEqual
  simp only [decide_eq_true_iff, ge_iff_le, Int32.le_iff_toInt_le, toInt_toInt32, toInt_zero, UInt32.toUInt32_toInt32,
    UInt32.lt_iff_toNat_lt, toNat_HALF]
  split <;> omega

theorem timeIsLater_iff (earlier later : UInt32) :
    TimeIsLater earlier later ↔ 0 < (later - earlier).toNat ∧ (later - earlier).toNat < 2147483648 := by
  unfold TimeIsLater
  simp only [decide_eq_true_iff, gt_iff_lt, Int32.lt_iff_toInt_lt, toInt_toInt32, toInt_zero, UInt32.toUInt32_toInt32,
    UInt32.lt_iff_toNat_lt, toNat_HALF]
  split <;> omega

theorem toInt_timeDiff (later earlier : UInt32) : (TimeDiff later earlier).toInt =
    if (later - earlier).toNat < 2147483648 then ((later - earlier).toNat : Int)
    else (later - earlier).toNat - 4294967296 :=
  toInt_toInt32 _

/-! ### The two implementations -/

/-- Half of the range ahead. -/
theorem toNat_half_way (a : UInt32) : (a + HALF - a).toNat = 2147483648 := by
  have h := a.toNat_lt
  rw [UInt32.toNat_sub, UInt32.toNat_add, toNat_HALF]
  omega

/-- There and back again. -/
theorem toNat_sub_swap (a b : UInt32) : (a - b).toNat = (4294967296 - (b - a).toNat) % 4294967296 := by
  have h := a.toNat_lt
  have h' := b.toNat_lt
  rw [UInt32.toNat_sub, UInt32.toNat_sub]
  omega

theorem plain_timeIsLaterOrEqual_iff (earlier later : UInt32) :
    Plain.TimeIsLaterOrEqual earlier later ↔ (later - earlier).toNat ≤ 2147483648 := by
  unfold Plain.TimeIsLaterOrEqual
  rw [timeIsBetween_iff, toNat_half_way]

theorem plain_timeIsLater_iff (earlier later : UInt32) :
    Plain.TimeIsLater earlier later ↔ 2147483648 < (earlier - later).toNat := by
  have hbetween : TimeIsBetween later earlier (later + HALF) ↔ (earlier - later).toNat ≤ 2147483648 := by
    rw [timeIsBetween_iff, toNat_half_way]
  unfold Plain.TimeIsLater
  dsimp only
  rw [Bool.not_eq_true', ← Bool.not_eq_true, hbetween, Nat.not_le]

theorem toInt_ofInt {v : Int} (h : -2147483648 ≤ v) (h' : v ≤ 2147483648) :
    (Int32.ofInt v).toInt = if v < 2147483648 then v else v - 4294967296 := by
  have hsize : ((Int32.size : Nat) : Int) = 4294967296 := rfl
  rw [Int32.toInt_ofInt, Int.bmod_def, hsize]
  split <;> split <;> omega

theorem plain_timeDiff_eq (later earlier : UInt32) : Plain.TimeDiff later earlier =
    .ofInt (if (later - earlier).toNat ≤ 2147483648 then ((later - earlier).toNat : Int)
      else (later - earlier).toNat - 4294967296) := by
  have h₁ := earlier.toNat_lt
  have h₂ := later.toNat_lt
  have hbetween : TimeIsBetween earlier later (earlier + HALF) ↔ (later - earlier).toNat ≤ 2147483648 :=
    plain_timeIsLaterOrEqual_iff earlier later
  unfold Plain.TimeDiff
  dsimp only
  simp only [hbetween]
  congr 1
  split
  · split
    · rfl
    · simp only [UInt32.toNat_sub, UInt32.toNat_add, UInt32.toNat_one, toNat_LAST]
      omega
  · rename_i hfar
    split
    · rename_i hle
      simp only [UInt32.le_iff_toNat_le, UInt32.toNat_sub] at hle hfar ⊢
      omega
    · rename_i hle
      simp only [UInt32.le_iff_toNat_le, UInt32.toNat_sub, UInt32.toNat_add, UInt32.toNat_one, toNat_LAST] at hle hfar ⊢
      omega

theorem plain_timeDiff (later earlier : UInt32) : Plain.TimeDiff later earlier = TimeDiff later earlier := by
  have h := (later - earlier).toNat_lt
  rw [plain_timeDiff_eq, ← Int32.toInt_inj, toInt_timeDiff]
  split
  · rw [toInt_ofInt (by omega) (by omega)]
    split <;> split <;> omega
  · rw [toInt_ofInt (by omega) (by omega)]
    split <;> split <;> omega

/-- The two implementations differ about one pair of time stamps only: those that are as far apart as can be. -/
theorem implementations_agree (earlier later : UInt32) :
    Plain.TimeIsLater earlier later = TimeIsLater earlier later ∧
      Plain.TimeDiff later earlier = TimeDiff later earlier ∧
      (Plain.TimeIsLaterOrEqual earlier later = TimeIsLaterOrEqual earlier later ↔ later ≠ earlier + HALF) := by
  have hback := toNat_sub_swap earlier later
  have hlt := (later - earlier).toNat_lt
  refine ⟨?_, plain_timeDiff later earlier, ?_⟩
  · rw [Bool.eq_iff_iff, plain_timeIsLater_iff, timeIsLater_iff]
    omega
  · have hhalf : later = earlier + HALF ↔ (later - earlier).toNat = 2147483648 := by
      have h₁ := earlier.toNat_lt
      have h₂ := later.toNat_lt
      rw [← UInt32.toNat_inj, UInt32.toNat_add, UInt32.toNat_sub, toNat_HALF]
      omega
    rw [Bool.eq_iff_iff, plain_timeIsLaterOrEqual_iff, timeIsLaterOrEqual_iff, ne_eq, hhalf]
    omega

/-! ### Readings of the clock -/

theorem toNat_time (ms : Nat) : (Time ms).toNat = ms % 4294967296 := UInt32.toNat_ofNat'

/-- The way from one reading to a later one. -/
theorem toNat_time_sub {s t : Nat} (h : s ≤ t) : (Time t - Time s).toNat = (t - s) % 4294967296 := by
  rw [UInt32.toNat_sub, toNat_time, toNat_time]
  omega

/-- Readings less than half of the range apart are told apart by the time stamps, wherever the range begins. -/
theorem timeStamps_tell {s t : Nat} (hs : s < t + 2147483648) (ht : t < s + 2147483648) :
    (TimeIsLater (Time s) (Time t) ↔ s < t) ∧ (TimeIsLaterOrEqual (Time s) (Time t) ↔ s ≤ t) ∧
      (TimeDiff (Time t) (Time s)).toInt = t - s := by
  rw [timeIsLater_iff, timeIsLaterOrEqual_iff, toInt_timeDiff]
  rcases Nat.le_total s t with hle | hle
  · rw [toNat_time_sub hle]
    refine ⟨by omega, by omega, ?_⟩
    split <;> omega
  · rw [toNat_sub_swap, toNat_time_sub hle]
    refine ⟨by omega, by omega, ?_⟩
    split <;> omega

end ProbICE.TalkBase
