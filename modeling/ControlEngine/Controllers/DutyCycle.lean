import ControlEngine.Controllers.CpuLimiter

/-!
# The share of the CPU over a whole run

A controller calls its limiter at the end of every round.  Each call drops the fraction of a
microsecond of its sleep and begins to count again behind it, so that nothing is carried over
from one call to the next.  Over a run of `n` calls the controller therefore sleeps less than
the requested share of its work asks for, by at most `n` microseconds, and never more.

The floating point numbers are exact here as in `CpuLimiter`.  The exact times to sleep are
fractions with the percentage as their denominator, so rounding errors that are smaller than a
hundredth of a microsecond do not take the sleep out of these bounds.
-/

namespace ControlEngine

namespace CpuLimiter

/-- The microseconds of an argument of `usleep`, if there is a call. -/
def microseconds (usec : Option (BitVec 32)) : ℕ := usec.elim 0 BitVec.toNat

/-- The calls of a loop, with the readings of the clock before and after each sleep: the limiter
behind them, and the microseconds it has slept. -/
def calls (c : CpuLimiter) : List (BitVec 64 × BitVec 64) → Option (CpuLimiter × ℕ)
  | [] => some (c, 0)
  | (stop, later) :: readings => do
      let (c, usec) ← c.calculateAndSleep stop later
      let (c, slept) ← c.calls readings
      return (c, microseconds usec + slept)

/-- The microseconds of work between the calls. -/
def worked (start : BitVec 64) : List (BitVec 64 × BitVec 64) → ℕ
  | [] => 0
  | (stop, later) :: readings => (stop - start).toNat + worked later readings

/-- The sleep that each call asks for fits an `unsigned int`. -/
def Fits (cpuPercentage : ℚ) (start : BitVec 64) : List (BitVec 64 × BitVec 64) → Prop
  | [] => True
  | (stop, later) :: readings =>
      ((stop - start).toNat : ℚ) * (100 - cpuPercentage) < 2 ^ 32 * cpuPercentage ∧
        Fits cpuPercentage later readings

variable {c c' : CpuLimiter} {p : ℚ} {stop later start : BitVec 64} {usec : Option (BitVec 32)}

theorem toUnsignedInt_cases {a : ℚ} {usec : BitVec 32} (ha : 0 ≤ a)
    (h : toUnsignedInt a = some usec) : a < 2 ^ 32 ∧ (usec.toNat : ℤ) = ⌊a⌋ := by
  obtain ⟨⟨-, hless⟩, -⟩ := Option.ite_none_right_eq_some.mp h
  obtain ⟨usec', hconverted, hfloor⟩ := toUnsignedInt_of_lt ha hless
  cases h.symm.trans hconverted
  exact ⟨hless, hfloor⟩

/-- A sleep of the floor is at most one microsecond too short. -/
theorem floor_bounds {w : ℚ} {slept : ℕ} (hp : 0 < p)
    (hfloor : (slept : ℤ) = ⌊w * (100 - p) / p⌋) :
    p * slept ≤ w * (100 - p) ∧ w * (100 - p) ≤ p * (slept + 1) := by
  have hcast : (slept : ℚ) = ⌊w * (100 - p) / p⌋ := by exact_mod_cast congrArg Int.cast hfloor
  have hbelow := Int.floor_le (w * (100 - p) / p)
  have habove := (Int.lt_floor_add_one (w * (100 - p) / p)).le
  rw [← hcast, le_div_iff₀ hp] at hbelow
  rw [← hcast, div_le_iff₀ hp] at habove
  constructor
  · linarith
  · linarith

theorem calculateAndSleep_spec (hc : c.cpuPercentage = p) (hp : 0 < p) (hless : p < 100)
    (stop later : BitVec 64) :
    ((c.calculateAndSleep stop later).isSome ↔
        ((stop - c.cpuStart).toNat : ℚ) * (100 - p) < 2 ^ 32 * p) ∧
      ∀ c' usec, c.calculateAndSleep stop later = some (c', usec) →
        c'.cpuPercentage = p ∧ c'.cpuStart = later ∧
          p * microseconds usec ≤ ((stop - c.cpuStart).toNat : ℚ) * (100 - p) ∧
          ((stop - c.cpuStart).toNat : ℚ) * (100 - p) ≤ p * (microseconds usec + 1) := by
  have hpercentage : c.cpuPercentage ≠ 100 := by
    rw [hc]
    exact hless.ne
  by_cases hwork : stop - c.cpuStart = 0
  · have hcall : c.calculateAndSleep stop later =
        some ({ c with cpuStart := later, cpuStop := stop, workflowCpuTime := 0 }, none) := by
      simp only [calculateAndSleep, if_neg hpercentage, hwork, if_true]
    have hzero : ((stop - c.cpuStart).toNat : ℚ) * (100 - p) = 0 := by
      rw [hwork]
      simp
    rw [hcall, hzero]
    refine ⟨iff_of_true rfl (by positivity), ?_⟩
    rintro c' usec ⟨⟩
    refine ⟨hc, rfl, ?_, ?_⟩
    · simp [microseconds]
    · simpa [microseconds] using hp.le
  · have hpos : ((stop - c.cpuStart).toNat : ℚ) ≠ 0 := by
      rw [Nat.cast_ne_zero]
      intro hzero
      exact hwork (BitVec.eq_of_toNat_eq hzero)
    have hleft : sleepTimeLeft c.cpuPercentage (c.workTime stop) =
        some (c.workTime stop * (100 - p) / p) := by
      rw [hc]
      exact sleepTimeLeft_eq hp.ne' hpos
    have hnonneg : 0 ≤ c.workTime stop * (100 - p) / p := by
      have hrest : 0 ≤ 100 - p := by linarith
      have hwork : 0 ≤ c.workTime stop := Nat.cast_nonneg _
      positivity
    rw [← div_lt_iff₀ hp]
    cases hconverted : toUnsignedInt (c.workTime stop * (100 - p) / p) with
    | none =>
        have hcall : c.calculateAndSleep stop later = none := by
          rw [workTime] at hleft hconverted
          simp only [calculateAndSleep, if_neg hpercentage, if_neg hwork, hleft,
            Option.bind_eq_bind, Option.bind_some, hconverted, Option.bind_none]
        rw [hcall]
        refine ⟨iff_of_false (by decide) ?_, fun c' usec hsome => by cases hsome⟩
        intro hfits
        obtain ⟨usec, hsome, -⟩ := toUnsignedInt_of_lt hnonneg hfits
        cases hconverted.symm.trans hsome
    | some usec =>
        obtain ⟨hfits, hfloor⟩ := toUnsignedInt_cases hnonneg hconverted
        rw [calculateAndSleep_eq hpercentage hwork hleft hconverted]
        refine ⟨iff_of_true rfl hfits, ?_⟩
        rintro c' usec' ⟨⟩
        exact ⟨hc, rfl, floor_bounds hp hfloor⟩

/-- In a run of calls each of which asks for a sleep that fits, and in no other one, all calls
are defined.  The thread has then slept at most as long as its work at the requested percentage
asks for, and less than that by at most a microsecond for each call. -/
theorem calls_spec (readings : List (BitVec 64 × BitVec 64)) (hc : c.cpuPercentage = p)
    (hp : 0 < p) (hless : p < 100) :
    ((c.calls readings).isSome ↔ Fits p c.cpuStart readings) ∧
      ∀ c' slept, c.calls readings = some (c', slept) →
        p * slept ≤ worked c.cpuStart readings * (100 - p) ∧
          worked c.cpuStart readings * (100 - p) ≤ p * (slept + readings.length) := by
  induction readings generalizing c with
  | nil =>
      refine ⟨iff_of_true rfl trivial, ?_⟩
      rintro c' slept ⟨⟩
      simp [worked]
  | cons reading readings ih =>
      obtain ⟨stop, later⟩ := reading
      obtain ⟨hdefined, hcall⟩ := calculateAndSleep_spec hc hp hless stop later
      cases hfirst : c.calculateAndSleep stop later with
      | none =>
          have hnone : c.calls ((stop, later) :: readings) = none := by
            rw [calls, hfirst]
            rfl
          rw [hfirst] at hdefined
          rw [hnone]
          refine ⟨iff_of_false (by decide) ?_, fun c' slept hsome => by cases hsome⟩
          rintro ⟨hfits, -⟩
          cases hdefined.mpr hfits
      | some r =>
          obtain ⟨middle, usec⟩ := r
          obtain ⟨hmiddle, hstart, hbelow, habove⟩ := hcall middle usec hfirst
          obtain ⟨hrest, hslept⟩ := ih hmiddle
          rw [hfirst] at hdefined
          rw [hstart] at hrest hslept
          have hfits := hdefined.mp rfl
          cases hlast : middle.calls readings with
          | none =>
              have hnone : c.calls ((stop, later) :: readings) = none := by
                rw [calls, hfirst]
                simp [hlast]
              rw [hlast] at hrest
              rw [hnone]
              refine ⟨iff_of_false (by decide) ?_, fun c' slept hsome => by cases hsome⟩
              rintro ⟨-, hothers⟩
              cases hrest.mpr hothers
          | some r =>
              obtain ⟨final, slept⟩ := r
              have hsome : c.calls ((stop, later) :: readings) =
                  some (final, microseconds usec + slept) := by
                rw [calls, hfirst]
                simp [hlast]
              rw [hlast] at hrest
              rw [hsome]
              refine ⟨iff_of_true rfl ⟨hfits, hrest.mp rfl⟩, ?_⟩
              rintro c' total ⟨⟩
              obtain ⟨hbelow', habove'⟩ := hslept final slept hlast
              rw [worked, List.length_cons]
              push_cast
              constructor
              · linarith
              · linarith

theorem cpuPercentageOf_between {cpu : ℤ} (hzero : cpu ≠ 0) (hfull : cpu ≠ 100) :
    0 < cpuPercentageOf cpu ∧ cpuPercentageOf cpu < 100 := by
  rw [cpuPercentageOf]
  split
  · rw [defaultCpuUsage]
    norm_num
  · rename_i haccepted
    rw [not_or, not_lt, not_lt] at haccepted
    have hpos : 0 < cpu := lt_of_le_of_ne haccepted.1 (Ne.symm hzero)
    have hless : cpu < 100 := lt_of_le_of_ne haccepted.2 hfull
    exact_mod_cast And.intro hpos hless

/-- The run of a controller with a setting other than 0 and 100. -/
theorem dutyCycle {cpu : ℤ} (hzero : cpu ≠ 0) (hfull : cpu ≠ 100) (start : BitVec 64)
    (readings : List (BitVec 64 × BitVec 64)) :
    (((new cpu start).calls readings).isSome ↔ Fits (cpuPercentageOf cpu) start readings) ∧
      ∀ c slept, (new cpu start).calls readings = some (c, slept) →
        cpuPercentageOf cpu * slept ≤ worked start readings * (100 - cpuPercentageOf cpu) ∧
          worked start readings * (100 - cpuPercentageOf cpu) ≤
            cpuPercentageOf cpu * (slept + readings.length) := by
  obtain ⟨hpos, hless⟩ := cpuPercentageOf_between hzero hfull
  exact calls_spec readings rfl hpos hless

/-- The setting 1, with two calls after half a millisecond of work each. -/
theorem dutyCycle_onePercent :
    ∃ c slept, (new 1 0).calls [(500, 510), (1010, 1020)] = some (c, slept) ∧
      cpuPercentageOf 1 * slept ≤ 1000 * (100 - cpuPercentageOf 1) := by
  have hpercentage : cpuPercentageOf 1 = 1 := by norm_num [cpuPercentageOf]
  have hworked : worked 0 [(500, 510), (1010, 1020)] = 1000 := by decide
  obtain ⟨hdefined, hbounds⟩ :=
    dutyCycle (by decide : (1 : ℤ) ≠ 0) (by decide) 0 [(500, 510), (1010, 1020)]
  have hfits : Fits (cpuPercentageOf 1) 0 [(500, 510), (1010, 1020)] := by
    have hfirst : ((500 : BitVec 64) - 0).toNat = 500 := by decide
    have hsecond : ((1010 : BitVec 64) - 510).toNat = 500 := by decide
    rw [hpercentage]
    simp only [Fits, hfirst, hsecond]
    norm_num
  obtain ⟨⟨c, slept⟩, hcalls⟩ := Option.isSome_iff_exists.mp (hdefined.mpr hfits)
  refine ⟨c, slept, hcalls, ?_⟩
  have hbelow := (hbounds c slept hcalls).1
  rw [hworked] at hbelow
  exact_mod_cast hbelow

end CpuLimiter

end ControlEngine
