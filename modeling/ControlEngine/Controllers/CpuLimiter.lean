import Mathlib.Data.Rat.Floor
import Mathlib.Tactic.FieldSimp
import Mathlib.Tactic.Linarith
import Mathlib.Tactic.Positivity
import Mathlib.Tactic.Ring

/-!
# The CPU limiter

A controller that has worked for some time sleeps so long that its work is the requested
percentage of the whole.  The time to sleep is a quotient by the percentage, and it is
converted to an `unsigned int`.  The percentage 0 is accepted, and there is no bound on the
time of the work.

The floating point numbers of the source are exact here.
-/

namespace ControlEngine

/-- A quotient, which is not defined for the divisor 0. -/
def quotient (a b : ℚ) : Option ℚ := if b = 0 then none else some (a / b)

/-- The conversion of a floating point number to `unsigned int`, which is not defined if the
type does not hold the number without its fraction. -/
def toUnsignedInt (a : ℚ) : Option (BitVec 32) :=
  if -1 < a ∧ a < 2 ^ 32 then some (BitVec.ofNat 32 ⌊a⌋.toNat) else none

/-- `_DEFAULT_CPU_USAGE`. -/
def defaultCpuUsage : ℚ := 5

/-- The percentage that the constructor takes. -/
def cpuPercentageOf (cpu : ℤ) : ℚ := if cpu < 0 ∨ cpu > 100 then defaultCpuUsage else cpu

/-- `CpuLimiter`; the times are in microseconds. -/
structure CpuLimiter where
  cpuPercentage : ℚ
  cpuStart : BitVec 64
  cpuStop : BitVec 64
  workflowCpuTime : BitVec 64

namespace CpuLimiter

/-- The constructor of `CpuLimiter`, for the time that the thread has been on the CPU; it
does not set the last two fields. -/
def new (cpu : ℤ) (start : BitVec 64) : CpuLimiter where
  cpuPercentage := cpuPercentageOf cpu
  cpuStart := start
  cpuStop := 0
  workflowCpuTime := 0

/-- `sleepTimeLeft`, which is first the time of the work at the percentage. -/
def sleepTimeLeft (cpuPercentage workflowCpuTime : ℚ) : Option ℚ := do
  let sleepTimeLeft := cpuPercentage / 100 * workflowCpuTime
  let ratio ← quotient workflowCpuTime sleepTimeLeft
  return ratio * workflowCpuTime - workflowCpuTime

/-- `CalculateAndSleep`, for what `getTotalThreadTimeOnCpu` returns before and after the
sleep, with the argument of `usleep` if it sleeps. -/
def calculateAndSleep (c : CpuLimiter) (stop later : BitVec 64) :
    Option (CpuLimiter × Option (BitVec 32)) :=
  if c.cpuPercentage = 100 then some (c, none)
  else
    let c := { c with cpuStop := stop, workflowCpuTime := stop - c.cpuStart }
    if c.workflowCpuTime = 0 then some ({ c with cpuStart := later }, none)
    else do
      let left ← sleepTimeLeft c.cpuPercentage c.workflowCpuTime.toNat
      let usec ← toUnsignedInt left
      return ({ c with cpuStart := later }, some usec)

/-- A limiter with the given setting, after any number of calls. -/
inductive Used (cpu : ℤ) : CpuLimiter → Prop
  | new (start : BitVec 64) : Used cpu (new cpu start)
  | call {c c' : CpuLimiter} {stop later : BitVec 64} {usec : Option (BitVec 32)} :
      Used cpu c → c.calculateAndSleep stop later = some (c', usec) → Used cpu c'

/-- The time of the work in the next call. -/
def workTime (c : CpuLimiter) (stop : BitVec 64) : ℚ := (stop - c.cpuStart).toNat

/-- The time to sleep is defined, it fits an `unsigned int`, the work is the requested
percentage of the work and the sleep, and the thread sleeps for this time without its
fraction. -/
def MeetsTarget (c : CpuLimiter) (stop later : BitVec 64) : Prop :=
  ∃ left c' usec, sleepTimeLeft c.cpuPercentage (c.workTime stop) = some left ∧
    0 ≤ left ∧ left < 2 ^ 32 ∧
    c.workTime stop / (left + c.workTime stop) = c.cpuPercentage / 100 ∧
    c.calculateAndSleep stop later = some (c', some usec) ∧ (usec.toNat : ℤ) = ⌊left⌋

/-! ## The percentage -/

/-- The percentage is between 0 and 100, and 0 is among them. -/
theorem cpuPercentageOf_mem (cpu : ℤ) : 0 ≤ cpuPercentageOf cpu ∧ cpuPercentageOf cpu ≤ 100 := by
  rw [cpuPercentageOf]
  split
  · rw [defaultCpuUsage]
    norm_num
  · rename_i haccepted
    rw [not_or, not_lt, not_lt] at haccepted
    exact_mod_cast haccepted

variable {cpu : ℤ} {c c' : CpuLimiter} {stop later : BitVec 64}

theorem calculateAndSleep_cpuPercentage {usec : Option (BitVec 32)}
    (h : c.calculateAndSleep stop later = some (c', usec)) :
    c'.cpuPercentage = c.cpuPercentage := by
  unfold calculateAndSleep at h
  split at h
  · cases h
    rfl
  · simp only at h
    split at h
    · cases h
      rfl
    · obtain ⟨left, -, hrest⟩ := Option.bind_eq_some_iff.mp h
      obtain ⟨usec, -, hlast⟩ := Option.bind_eq_some_iff.mp hrest
      cases hlast
      rfl

theorem Used.cpuPercentage (h : Used cpu c) : c.cpuPercentage = cpuPercentageOf cpu := by
  induction h with
  | new start => rfl
  | call _ hcall ih => rw [calculateAndSleep_cpuPercentage hcall, ih]

/-! ## The time to sleep -/

variable {p w : ℚ}

theorem sleepTimeLeft_eq (hp : p ≠ 0) (hw : w ≠ 0) :
    sleepTimeLeft p w = some (w * (100 - p) / p) := by
  have hdivisor : p / 100 * w ≠ 0 := mul_ne_zero (div_ne_zero hp (by norm_num)) hw
  have hleft : w / (p / 100 * w) * w - w = w * (100 - p) / p := by
    field_simp
  rw [sleepTimeLeft, quotient, if_neg hdivisor, ← hleft]
  rfl

theorem sleepTimeLeft_zero (w : ℚ) : sleepTimeLeft 0 w = none := by
  simp [sleepTimeLeft, quotient]

theorem share_eq (hp : p ≠ 0) (hw : w ≠ 0) : w / (w * (100 - p) / p + w) = p / 100 := by
  have hsum : w * (100 - p) / p + w = 100 * w / p := by
    field_simp
    ring
  rw [hsum]
  field_simp

theorem toUnsignedInt_of_lt {a : ℚ} (hnonneg : 0 ≤ a) (hless : a < 2 ^ 32) :
    ∃ usec, toUnsignedInt a = some usec ∧ (usec.toNat : ℤ) = ⌊a⌋ := by
  refine ⟨_, if_pos ⟨by linarith, hless⟩, ?_⟩
  have hfloor : 0 ≤ ⌊a⌋ := Int.floor_nonneg.mpr hnonneg
  have htop : ⌊a⌋ < 2 ^ 32 := by
    rw [Int.floor_lt]
    exact_mod_cast hless
  rw [BitVec.toNat_ofNat, Nat.mod_eq_of_lt (by omega), Int.toNat_of_nonneg hfloor]

theorem calculateAndSleep_eq {left : ℚ} {usec : BitVec 32} (hpercentage : c.cpuPercentage ≠ 100)
    (hwork : stop - c.cpuStart ≠ 0)
    (hleft : sleepTimeLeft c.cpuPercentage (c.workTime stop) = some left)
    (hconverted : toUnsignedInt left = some usec) :
    c.calculateAndSleep stop later =
      some ({ c with cpuStart := later, cpuStop := stop, workflowCpuTime := stop - c.cpuStart },
        some usec) := by
  rw [workTime] at hleft
  simp only [calculateAndSleep, if_neg hpercentage, if_neg hwork, hleft, Option.bind_eq_bind,
    Option.bind_some, hconverted]
  rfl

/-- A limiter that has work to make up for meets its target exactly if the time to sleep,
which is the work times (100 - p) / p, is below 2^32; it never does for the setting 0. -/
theorem meetsTarget_iff (hused : Used cpu c) (hpercentage : c.cpuPercentage ≠ 100)
    (hwork : stop - c.cpuStart ≠ 0) :
    c.MeetsTarget stop later ↔
      c.workTime stop * (100 - c.cpuPercentage) < 2 ^ 32 * c.cpuPercentage := by
  have hpos : 0 < c.workTime stop := by
    rw [workTime, Nat.cast_pos]
    exact Nat.pos_of_ne_zero fun hzero => hwork (BitVec.eq_of_toNat_eq hzero)
  obtain ⟨hlow, hhigh⟩ := cpuPercentageOf_mem cpu
  rw [← hused.cpuPercentage] at hlow hhigh
  rcases hlow.eq_or_lt with hzero | hp
  · rw [MeetsTarget, ← hzero, sleepTimeLeft_zero]
    refine iff_of_false ?_ (by linarith)
    rintro ⟨left, c', usec, hleft, -⟩
    cases hleft
  · have hleft := sleepTimeLeft_eq hp.ne' hpos.ne'
    rw [← div_lt_iff₀ hp]
    constructor
    · rintro ⟨left, c', usec, hdefined, -, hless, -⟩
      rw [hleft] at hdefined
      cases hdefined
      exact hless
    · intro hless
      have hnonneg : 0 ≤ c.workTime stop * (100 - c.cpuPercentage) / c.cpuPercentage := by
        have hrest : 0 ≤ 100 - c.cpuPercentage := by linarith
        positivity
      obtain ⟨usec, hconverted, hfloor⟩ := toUnsignedInt_of_lt hnonneg hless
      exact ⟨_, _, usec, hleft, hnonneg, hless, share_eq hp.ne' hpos.ne',
        calculateAndSleep_eq hpercentage hwork hleft hconverted, hfloor⟩

/-- The setting 1, and a millisecond of work. -/
theorem meetsTarget_onePercent : (new 1 0).MeetsTarget 1000 1000 := by
  have hpercentage : (new 1 0).cpuPercentage = 1 := by norm_num [new, cpuPercentageOf]
  have hwork : (new 1 0).workTime 1000 = 1000 :=
    congrArg Nat.cast (by decide : (1000 - (0 : BitVec 64)).toNat = 1000)
  apply (meetsTarget_iff (Used.new 0) (by norm_num [hpercentage]) (by decide)).mpr
  norm_num [hpercentage, hwork]

/-- The setting 0, and a microsecond of work. -/
theorem not_meetsTarget_zeroPercent :
    sleepTimeLeft (new 0 0).cpuPercentage 1 = none ∧ ¬ (new 0 0).MeetsTarget 1 1 := by
  have hzero : (new 0 0).cpuPercentage = 0 := by norm_num [new, cpuPercentageOf]
  rw [hzero]
  refine ⟨sleepTimeLeft_zero 1, ?_⟩
  rintro ⟨left, c', usec, hleft, -⟩
  rw [hzero, sleepTimeLeft_zero] at hleft
  cases hleft

end CpuLimiter

end ControlEngine
