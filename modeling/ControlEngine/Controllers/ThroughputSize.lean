import ControlEngine.Controllers.Throughput
import Mathlib.Algebra.BigOperators.Ring.Finset
import Mathlib.Algebra.Order.BigOperators.Group.List
import Mathlib.Data.BitVec
import Mathlib.Data.List.Induction

/-!
# The size of a batch

`LogThroughput` adds the sizes of the records, each a `size_t`, to `int`s, one for each
severity, and `size` adds these to another `int`.  The sums are exact as long as the
smallest of these types holds the largest of them.
-/

namespace ControlEngine

namespace LogThroughput

/-- The calls of `pushSysLog` and its siblings, one after the other. -/
def pushAll (records : List (Severity × List Byte)) : LogThroughput :=
  records.foldl (fun batchEntry r => batchEntry.push r.1 r.2) new

/-- What `getTotalCount` adds up, from the left. -/
def countTerms (batchEntry : LogThroughput) : List (BitVec 32) :=
  [batchEntry.count .System, batchEntry.count .Info, batchEntry.count .Debug,
    batchEntry.count .Warning, batchEntry.count .Error]

/-- What `size` adds up, from the left. -/
def sizeTerms (batchEntry : LogThroughput) : List (BitVec 32) :=
  [batchEntry.memSize .Info, batchEntry.memSize .System, batchEntry.memSize .Debug,
    batchEntry.memSize .Warning, batchEntry.memSize .Error, 4, 4, 4, 4, 4]

end LogThroughput

/-- No sum of the first terms leaves the range of an `int`. -/
def NoneWraps (terms : List (BitVec 32)) : Prop :=
  ∀ n, (terms.take n).sum.toInt = ((terms.take n).map BitVec.toInt).sum

/-- The sum of a measure of the records of a severity. -/
def sumWith (measure : List Byte → ℕ) (severity : Severity)
    (records : List (Severity × List Byte)) : ℕ :=
  (records.map fun r => if r.1 = severity then measure r.2 else 0).sum

/-- The number of the records of a severity. -/
def callsWith : Severity → List (Severity × List Byte) → ℕ := sumWith fun _ => 1

/-- The bytes of the records of a severity. -/
def bytesWith : Severity → List (Severity × List Byte) → ℕ := sumWith List.length

/-- The bytes of all records. -/
def totalBytes (records : List (Severity × List Byte)) : ℕ :=
  (records.map fun r => r.2.length).sum

open LogThroughput in
/-- The count and the size of the batch are exact, and neither a counter nor a size of a
severity, nor a sum that is formed of them, leaves its range at any time. -/
structure SizesExact (records : List (Severity × List Byte)) : Prop where
  totalCount : (pushAll records).getTotalCount.toInt = records.length
  size : (pushAll records).size.toInt = totalBytes records + 5 * 4
  count : ∀ n severity, ((pushAll (records.take n)).count severity).toInt =
    callsWith severity (records.take n)
  memSize : ∀ n severity, ((pushAll (records.take n)).memSize severity).toInt =
    bytesWith severity (records.take n)
  countSums : NoneWraps (pushAll records).countTerms
  sizeSums : NoneWraps (pushAll records).sizeTerms

/-! ## Sums -/

theorem sum_map_ofNat (terms : List ℕ) :
    (terms.map (BitVec.ofNat 32)).sum = BitVec.ofNat 32 terms.sum := by
  induction terms with
  | nil => rfl
  | cons n terms ih => rw [List.map_cons, List.sum_cons, List.sum_cons, ih, BitVec.ofNat_add]

/-- Terms that have been reduced modulo 2^32 wrap nowhere if their sum does not. -/
theorem noneWraps_of_sum_lt {terms : List ℕ} (h : terms.sum < 2 ^ 31) :
    NoneWraps (terms.map (BitVec.ofNat 32)) := by
  intro n
  have hfirst : ∀ m ∈ terms.take n, m ≤ terms.sum := fun m hm =>
    List.single_le_sum (fun _ _ => Nat.zero_le _) m (List.mem_of_mem_take hm)
  have hsum : (terms.take n).sum ≤ terms.sum := (List.take_sublist n terms).sum_le_sum
    (fun _ _ => Nat.zero_le _)
  have hterms : ((terms.take n).map (BitVec.ofNat 32)).map BitVec.toInt =
      (terms.take n).map fun m : ℕ => (m : ℤ) := by
    rw [List.map_map]
    apply List.map_congr_left
    intro m hm
    have hle := hfirst m hm
    exact toInt_ofNat_of_lt (by omega)
  rw [← List.map_take, sum_map_ofNat, toInt_ofNat_of_lt (by omega), hterms]
  exact Nat.cast_list_sum _

/-! ## Records by severity -/

variable {records : List (Severity × List Byte)}

theorem sumWith_append (measure : List Byte → ℕ) (severity : Severity)
    (records later : List (Severity × List Byte)) :
    sumWith measure severity (records ++ later) =
      sumWith measure severity records + sumWith measure severity later := by
  simp [sumWith]

theorem sum_sumWith (measure : List Byte → ℕ) (records : List (Severity × List Byte)) :
    [sumWith measure .System records, sumWith measure .Info records,
      sumWith measure .Debug records, sumWith measure .Warning records,
      sumWith measure .Error records].sum = (records.map fun r => measure r.2).sum := by
  induction records with
  | nil => rfl
  | cons r records ih =>
      have hcons : ∀ severity, sumWith measure severity (r :: records) =
          (if r.1 = severity then measure r.2 else 0) + sumWith measure severity records := by
        intro severity
        simp [sumWith]
      simp only [List.sum_cons, List.sum_nil] at ih
      simp only [hcons, List.map_cons, List.sum_cons, List.sum_nil, ← ih]
      cases r.1 <;> simp only [if_true, reduceCtorEq, if_false] <;> omega

theorem sumWith_le (measure : List Byte → ℕ) (severity : Severity)
    (records : List (Severity × List Byte)) :
    sumWith measure severity records ≤ (records.map fun r => measure r.2).sum := by
  apply List.sum_le_sum
  intro r _
  split
  · exact le_refl _
  · exact Nat.zero_le _

/-- The counters and sizes of a batch, as far as an `int` goes. -/
theorem pushAll_eq (records : List (Severity × List Byte)) (severity : Severity) :
    (LogThroughput.pushAll records).count severity = BitVec.ofNat 32 (callsWith severity records) ∧
      (LogThroughput.pushAll records).memSize severity =
        BitVec.ofNat 32 (bytesWith severity records) := by
  induction records using List.reverseRecOn with
  | nil => exact ⟨rfl, rfl⟩
  | append_singleton records r ih =>
      have hpush : LogThroughput.pushAll (records ++ [r]) =
          (LogThroughput.pushAll records).push r.1 r.2 := by
        simp [LogThroughput.pushAll]
      rw [callsWith, bytesWith, sumWith_append, sumWith_append, BitVec.ofNat_add,
        BitVec.ofNat_add, ← callsWith, ← bytesWith, ← ih.1, ← ih.2, hpush]
      by_cases hsame : severity = r.1
      · subst hsame
        simp [LogThroughput.push, callsWith, bytesWith, sumWith]
      · simp [LogThroughput.push, callsWith, bytesWith, sumWith, hsame, Ne.symm hsame]

theorem countTerms_pushAll (records : List (Severity × List Byte)) :
    (LogThroughput.pushAll records).countTerms =
      [callsWith .System records, callsWith .Info records, callsWith .Debug records,
        callsWith .Warning records, callsWith .Error records].map (BitVec.ofNat 32) := by
  simp only [LogThroughput.countTerms, (pushAll_eq records _).1, List.map_cons, List.map_nil]

theorem sizeTerms_pushAll (records : List (Severity × List Byte)) :
    (LogThroughput.pushAll records).sizeTerms =
      [bytesWith .Info records, bytesWith .System records, bytesWith .Debug records,
        bytesWith .Warning records, bytesWith .Error records, 4, 4, 4, 4, 4].map
          (BitVec.ofNat 32) := by
  simp only [LogThroughput.sizeTerms, (pushAll_eq records _).2, List.map_cons, List.map_nil]
  rfl

theorem sum_callsWith (records : List (Severity × List Byte)) :
    [callsWith .System records, callsWith .Info records, callsWith .Debug records,
      callsWith .Warning records, callsWith .Error records].sum = records.length := by
  rw [callsWith, sum_sumWith, List.map_const', List.sum_replicate_nat, mul_one]

theorem getTotalCount_pushAll (records : List (Severity × List Byte)) :
    (LogThroughput.pushAll records).getTotalCount = BitVec.ofNat 32 records.length := by
  have hsum : (LogThroughput.pushAll records).getTotalCount =
      (LogThroughput.pushAll records).countTerms.sum := by
    simp [LogThroughput.getTotalCount, LogThroughput.countTerms, BitVec.add_assoc]
  rw [hsum, countTerms_pushAll, sum_map_ofNat, sum_callsWith]

theorem totalBytes_replicate (severity : Severity) (n : ℕ) (b : Byte) :
    totalBytes [(severity, List.replicate n b)] = n := by
  simp [totalBytes]

theorem sum_bytesWith (records : List (Severity × List Byte)) :
    [bytesWith .Info records, bytesWith .System records, bytesWith .Debug records,
      bytesWith .Warning records, bytesWith .Error records, 4, 4, 4, 4, 4].sum =
        totalBytes records + 5 * 4 := by
  have hbytes := sum_sumWith List.length records
  simp only [List.sum_cons, List.sum_nil] at hbytes ⊢
  simp only [bytesWith, totalBytes]
  omega

theorem size_pushAll (records : List (Severity × List Byte)) :
    (LogThroughput.pushAll records).size = BitVec.ofNat 32 (totalBytes records + 5 * 4) := by
  have hsum : (LogThroughput.pushAll records).size =
      (LogThroughput.pushAll records).sizeTerms.sum := by
    simp [LogThroughput.size, LogThroughput.sizeTerms, BitVec.add_assoc]
  rw [hsum, sizeTerms_pushAll, sum_map_ofNat, sum_bytesWith]

/-- The count and the size of a batch are exact, with all that is added up on the way,
exactly if an `int` holds them. -/
theorem sizesExact_iff (records : List (Severity × List Byte)) :
    SizesExact records ↔ records.length < 2 ^ 31 ∧ totalBytes records + 5 * 4 < 2 ^ 31 := by
  constructor
  · intro h
    have hcount := BitVec.toInt_lt (x := (LogThroughput.pushAll records).getTotalCount)
    have hsize := BitVec.toInt_lt (x := (LogThroughput.pushAll records).size)
    rw [h.totalCount] at hcount
    rw [h.size] at hsize
    constructor
    · omega
    · omega
  · rintro ⟨hcount, hsize⟩
    have hcalls : ∀ n severity, callsWith severity (records.take n) < 2 ^ 31 := by
      intro n severity
      have hle := sumWith_le (fun _ => 1) severity (records.take n)
      rw [List.map_const', List.sum_replicate_nat, mul_one, List.length_take] at hle
      exact lt_of_le_of_lt hle (by omega)
    have hbytes : ∀ n severity, bytesWith severity (records.take n) < 2 ^ 31 := by
      intro n severity
      have hle := sumWith_le List.length severity (records.take n)
      have htake : ((records.take n).map fun r => r.2.length).sum ≤ totalBytes records :=
        ((List.take_sublist n records).map _).sum_le_sum fun _ _ => Nat.zero_le _
      exact lt_of_le_of_lt (hle.trans htake) (by omega)
    refine ⟨?_, ?_, ?_, ?_, ?_, ?_⟩
    · rw [getTotalCount_pushAll, toInt_ofNat_of_lt hcount]
    · rw [size_pushAll, toInt_ofNat_of_lt hsize]
      push_cast
      rfl
    · intro n severity
      rw [(pushAll_eq _ severity).1, toInt_ofNat_of_lt (hcalls n severity)]
    · intro n severity
      rw [(pushAll_eq _ severity).2, toInt_ofNat_of_lt (hbytes n severity)]
    · rw [countTerms_pushAll]
      apply noneWraps_of_sum_lt
      rw [sum_callsWith]
      exact hcount
    · rw [sizeTerms_pushAll]
      apply noneWraps_of_sum_lt
      rw [sum_bytesWith]
      exact hsize

/-- A batch with one record, so long that its size is 2^31. -/
theorem not_sizesExact_longRecord :
    (LogThroughput.pushAll [(.Info, List.replicate (2 ^ 31 - 20) 46)]).size.toInt = -2 ^ 31 ∧
      ¬ SizesExact [(.Info, List.replicate (2 ^ 31 - 20) 46)] := by
  have hsize := size_pushAll [(.Info, List.replicate (2 ^ 31 - 20) 46)]
  rw [totalBytes_replicate] at hsize
  constructor
  · rw [hsize]
    decide
  · intro h
    have hexact := h.size
    rw [hsize, totalBytes_replicate] at hexact
    exact absurd hexact (by decide)

end ControlEngine
