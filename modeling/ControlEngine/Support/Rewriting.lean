import Mathlib.Data.Fintype.EquivFin
import Mathlib.Data.List.Infix
import Mathlib.Data.Nat.Digits.Defs

/-!
# Rewriting with one rule

A word is replaced by another one, wherever it occurs in a string.  Nothing is said about the
place: the bounds here hold for every strategy.  They are for rules that make the string
shorter, rules that keep its length, rules that use up a letter, and rules whose inserted
word overlaps the replaced one on one side at most.
-/

namespace ControlEngine

/-! ## Bounded runs -/

section Runs

variable {σ : Type*} {step : σ → σ → Prop} {n m : ℕ} {s : σ}

/-- No run from the state has more than so many steps. -/
def EndsWithin (step : σ → σ → Prop) : ℕ → σ → Prop
  | 0, s => ∀ t, ¬ step s t
  | n + 1, s => ∀ t, step s t → EndsWithin step n t

theorem EndsWithin.succ (h : EndsWithin step n s) : EndsWithin step (n + 1) s := by
  induction n generalizing s with
  | zero => exact fun t ht => absurd ht (h t)
  | succ n ih => exact fun t ht => ih (h t ht)

theorem EndsWithin.mono (h : EndsWithin step n s) (hnm : n ≤ m) : EndsWithin step m s := by
  induction m, hnm using Nat.le_induction with
  | base => exact h
  | succ m _ ih => exact ih.succ

/-- A number that every step lowers bounds the runs. -/
theorem endsWithin_of_potential {P : ℕ → σ → Prop}
    (hless : ∀ n s t, P n s → step s t → ∃ m < n, P m t) (h : P n s) :
    EndsWithin step n s := by
  induction n using Nat.strong_induction_on generalizing s with
  | _ n ih =>
      cases n with
      | zero =>
          intro t ht
          obtain ⟨m, hm, -⟩ := hless 0 s t h ht
          omega
      | succ n =>
          intro t ht
          obtain ⟨m, hm, hnext⟩ := hless (n + 1) s t h ht
          exact (ih m hm hnext).mono (by omega)

end Runs

/-! ## One rule -/

variable {α : Type*} {u v s t : List α}

/-- One occurrence of the word is replaced. -/
def Rewrites (u v s t : List α) : Prop :=
  ∃ x y, s = x ++ u ++ y ∧ t = x ++ v ++ y

theorem Rewrites.length (h : Rewrites u v s t) :
    t.length + u.length = s.length + v.length := by
  obtain ⟨x, y, rfl, rfl⟩ := h
  simp only [List.length_append]
  omega

theorem Rewrites.count [DecidableEq α] (h : Rewrites u v s t) (c : α) :
    t.count c + u.count c = s.count c + v.count c := by
  obtain ⟨x, y, rfl, rfl⟩ := h
  simp only [List.count_append]
  omega

theorem Rewrites.reverse (h : Rewrites u v s t) :
    Rewrites u.reverse v.reverse s.reverse t.reverse := by
  obtain ⟨x, y, rfl, rfl⟩ := h
  refine ⟨y.reverse, x.reverse, ?_, ?_⟩
  · simp
  · simp

theorem endsWithin_of_shorter (h : v.length < u.length) :
    EndsWithin (Rewrites u v) s.length s := by
  refine endsWithin_of_potential (P := fun n s => n = s.length) ?_ rfl
  rintro n s t rfl hstep
  have hlength := hstep.length
  exact ⟨t.length, by omega, rfl⟩

theorem endsWithin_of_count [DecidableEq α] {c : α} (h : v.count c < u.count c) :
    EndsWithin (Rewrites u v) s.length s := by
  refine EndsWithin.mono (n := s.count c) ?_ List.count_le_length
  refine endsWithin_of_potential (P := fun n s => n = s.count c) ?_ rfl
  rintro n s t rfl hstep
  have hcount := hstep.count c
  exact ⟨t.count c, by omega, rfl⟩

/-! ## Words of one length -/

section SameLength

variable (digit : α → ℕ)

/-- A string read as a number, its first letter as the least digit. -/
def wordValue (base : ℕ) (s : List α) : ℕ := Nat.ofDigits base (s.map digit)

theorem wordValue_append (base : ℕ) (s t : List α) :
    wordValue digit base (s ++ t) =
      wordValue digit base s + base ^ s.length * wordValue digit base t := by
  rw [wordValue, List.map_append, Nat.ofDigits_append, List.length_map]
  rfl

variable {digit} {base : ℕ}

theorem wordValue_lt (hbase : 1 < base) (hdigit : ∀ a, digit a < base) (s : List α) :
    wordValue digit base s < base ^ s.length := by
  rw [wordValue, ← List.length_map digit]
  apply Nat.ofDigits_lt_base_pow_length hbase
  intro d hd
  obtain ⟨a, -, rfl⟩ := List.mem_map.mp hd
  exact hdigit a

theorem wordValue_injective (hbase : 1 < base) (hdigit : ∀ a, digit a < base)
    (hinj : Function.Injective digit) (hlength : v.length = u.length)
    (h : wordValue digit base v = wordValue digit base u) : v = u := by
  have hsmall : ∀ s : List α, ∀ d ∈ s.map digit, d < base := by
    intro s d hd
    obtain ⟨a, -, rfl⟩ := List.mem_map.mp hd
    exact hdigit a
  apply List.map_injective_iff.mpr hinj
  apply Nat.ofDigits_inj_of_len_eq hbase _ (hsmall v) (hsmall u) h
  simp [hlength]

/-- A word of the same length and a smaller value makes the value smaller. -/
theorem Rewrites.wordValue_lt (hbase : 0 < base) (h : Rewrites u v s t)
    (hlength : v.length = u.length)
    (hless : wordValue digit base v < wordValue digit base u) :
    wordValue digit base t < wordValue digit base s := by
  obtain ⟨x, y, rfl, rfl⟩ := h
  simp only [wordValue_append, List.length_append, hlength]
  have hinner : base ^ x.length * wordValue digit base v <
      base ^ x.length * wordValue digit base u :=
    Nat.mul_lt_mul_of_pos_left hless (Nat.pow_pos hbase)
  omega

end SameLength

theorem exists_endsWithin_of_sameLength [Finite α] (hlength : v.length = u.length) (hne : v ≠ u)
    (s : List α) : ∃ n, EndsWithin (Rewrites u v) n s := by
  cases nonempty_fintype α
  let digit : α → ℕ := fun a => Fintype.equivFin α a
  let base := Fintype.card α + 2
  have hbase : 1 < base := by omega
  have hdigit : ∀ a, digit a < base := fun a =>
    (Fintype.equivFin α a).isLt.trans (Nat.lt_add_of_pos_right (by decide))
  have hinj : Function.Injective digit := fun a b hab =>
    (Fintype.equivFin α).injective (Fin.val_injective hab)
  rcases Nat.lt_trichotomy (wordValue digit base v) (wordValue digit base u) with
    hless | heq | hmore
  · refine ⟨wordValue digit base s, endsWithin_of_potential
      (P := fun n s => n = wordValue digit base s) ?_ rfl⟩
    rintro n s t rfl hstep
    exact ⟨_, hstep.wordValue_lt (by omega) hlength hless, rfl⟩
  · exact absurd (wordValue_injective hbase hdigit hinj hlength heq) hne
  · -- Here the value grows, below what a string of this length can have.
    refine ⟨base ^ s.length - wordValue digit base s, endsWithin_of_potential
      (P := fun n s => n = base ^ s.length - wordValue digit base s) ?_ rfl⟩
    rintro n s t rfl hstep
    have hback : Rewrites v u t s := by
      obtain ⟨x, y, hs, ht⟩ := hstep
      exact ⟨x, y, ht, hs⟩
    have hgrows := hback.wordValue_lt (by omega) hlength.symm hmore
    have htop := wordValue_lt hbase hdigit t
    have hsame := hstep.length
    have hst : t.length = s.length := by omega
    refine ⟨base ^ t.length - wordValue digit base t, ?_, rfl⟩
    rw [hst] at htop ⊢
    omega

/-! ## Overlaps on one side -/

/-- A string of so many letters of its own, with prefixes of the inserted word between them. -/
inductive Woven (v : List α) : ℕ → List α → Prop
  | nil : Woven v 0 []
  | letter {n : ℕ} {s : List α} (c : α) : Woven v n s → Woven v (n + 1) (c :: s)
  | inserted {n : ℕ} {p s : List α} : p <+: v → Woven v n s → Woven v n (p ++ s)

namespace Woven

variable {n m : ℕ} {x y : List α}

theorem own (v s : List α) : Woven v s.length s := by
  induction s with
  | nil => exact nil
  | cons c s ih => exact ih.letter c

theorem append (hx : Woven v n x) (hy : Woven v m y) : Woven v (n + m) (x ++ y) := by
  induction hx with
  | nil => simpa using hy
  | letter c _ ih =>
      rw [Nat.succ_add, List.cons_append]
      exact ih.letter c
  | inserted hp _ ih =>
      rw [List.append_assoc]
      exact ih.inserted hp

/-- A string is woven on both sides of a cut, but for what the cut leaves of one inserted
prefix. -/
theorem split (h : Woven v n (x ++ y)) :
    ∃ i j p rest, i + j = n ∧ Woven v i x ∧ y = p ++ rest ∧ Woven v j rest ∧
      (p = [] ∨ ∃ q, q ≠ [] ∧ q <:+ x ∧ q ++ p <+: v) := by
  generalize hs : x ++ y = s at h
  induction h generalizing x with
  | nil =>
      obtain ⟨rfl, rfl⟩ := List.append_eq_nil_iff.mp hs
      exact ⟨0, 0, [], [], rfl, nil, rfl, nil, Or.inl rfl⟩
  | @letter n s c hrest ih =>
      cases x with
      | nil =>
          rw [List.nil_append] at hs
          exact ⟨0, n + 1, [], y, by omega, nil, rfl, hs ▸ hrest.letter c, Or.inl rfl⟩
      | cons d x =>
          obtain ⟨rfl, htail⟩ := List.cons_eq_cons.mp hs
          obtain ⟨i, j, p, rest, hij, hx, hy, hrest, hcut⟩ := ih htail
          refine ⟨i + 1, j, p, rest, by omega, hx.letter d, hy, hrest, ?_⟩
          exact hcut.imp_right fun ⟨q, hq, hqx, hqv⟩ =>
            ⟨q, hq, hqx.trans (List.suffix_cons d x), hqv⟩
  | @inserted n p s hp hrest ih =>
      rcases List.append_eq_append_iff.mp hs with ⟨r, rfl, rfl⟩ | ⟨r, rfl, hbehind⟩
      · -- The cut is inside the inserted prefix.
        by_cases hx : x = []
        · subst hx
          exact ⟨0, n, [], r ++ s, by omega, nil, rfl, hrest.inserted hp, Or.inl rfl⟩
        · have hfront : Woven v 0 x := by
            have hxv := nil.inserted ((List.prefix_append x r).trans hp)
            rwa [List.append_nil] at hxv
          exact ⟨0, n, r, s, by omega, hfront, rfl, hrest, Or.inr ⟨x, hx, List.suffix_rfl, hp⟩⟩
      · obtain ⟨i, j, p', rest, hij, hx, hy, hrest, hcut⟩ := ih hbehind.symm
        refine ⟨i, j, p', rest, hij, hx.inserted hp, hy, hrest, ?_⟩
        exact hcut.imp_right fun ⟨q, hq, hqx, hqv⟩ =>
          ⟨q, hq, hqx.trans (List.suffix_append p r), hqv⟩

/-- A string without letters of its own ends in an inserted prefix. -/
theorem exists_suffix (h : Woven v 0 x) (hne : x ≠ []) : ∃ q, q ≠ [] ∧ q <:+ x ∧ q <+: v := by
  generalize hn : 0 = n at h
  induction h with
  | nil => exact absurd rfl hne
  | letter c _ _ => cases hn
  | @inserted n p s hp _ ih =>
      by_cases hs : s = []
      · subst hs
        rw [List.append_nil] at hne ⊢
        exact ⟨p, hne, List.suffix_rfl, hp⟩
      · obtain ⟨q, hq, hqs, hqv⟩ := ih hs hn
        exact ⟨q, hq, hqs.trans (List.suffix_append p s), hqv⟩

/-- Where no suffix of the replaced word is a prefix of the inserted one, each occurrence
ends in a letter of the string's own, and replacing it uses this letter up. -/
theorem rewrite (hinside : ¬ u <:+: v) (hoverlap : ∀ q, q ≠ [] → q <:+ u → ¬ q <+: v)
    (h : Woven v n (x ++ u ++ y)) : ∃ m < n, Woven v m (x ++ v ++ y) := by
  rw [List.append_assoc] at h
  obtain ⟨i, j, p, rest, hij, hx, hrest, hbehind, hcut⟩ := h.split
  have hpu : ¬ u <+: p := by
    intro hup
    rcases hcut with rfl | ⟨q, -, -, hqv⟩
    · rw [List.prefix_nil.mp hup] at hinside
      exact hinside (List.nil_infix)
    · exact hinside ((hup.isInfix.trans (List.suffix_append q p).isInfix).trans hqv.isInfix)
  rcases List.append_eq_append_iff.mp hrest with ⟨r, hp, -⟩ | ⟨r, hu, hr⟩
  · exact absurd (hp ▸ List.prefix_append u r) hpu
  · have hru : r <:+ u := hu ▸ List.suffix_append p r
    have hne : r ≠ [] := by
      rintro rfl
      exact hpu (by rw [hu, List.append_nil])
    rw [hr] at hbehind
    obtain ⟨i', j', p', rest', hij', hr', hy, hrest', hcut'⟩ := hbehind.split
    rcases hcut' with rfl | ⟨q, hq, hqr, hqv⟩
    · rw [List.nil_append] at hy
      have hused : i' ≠ 0 := by
        rintro rfl
        obtain ⟨q, hq, hqr, hqv⟩ := hr'.exists_suffix hne
        exact hoverlap q hq (hqr.trans hru) hqv
      have hv : Woven v 0 v := by
        have hinserted := nil.inserted (List.prefix_rfl (l := v))
        rwa [List.append_nil] at hinserted
      refine ⟨i + 0 + j', by omega, ?_⟩
      exact (hx.append hv).append (hy ▸ hrest')
    · exact absurd ((List.prefix_append q p').trans hqv) (hoverlap q hq (hqr.trans hru))

end Woven

theorem endsWithin_of_noSuffix (hinside : ¬ u <:+: v)
    (hoverlap : ∀ q, q ≠ [] → q <:+ u → ¬ q <+: v) : EndsWithin (Rewrites u v) s.length s := by
  refine endsWithin_of_potential (P := Woven v) ?_ (Woven.own v s)
  rintro n s t hwoven ⟨x, y, rfl, rfl⟩
  exact hwoven.rewrite hinside hoverlap

/-- A rule of which no prefix of the replaced word is a suffix of the inserted one: the
strings read backwards. -/
theorem endsWithin_of_noPrefix (hinside : ¬ u <:+: v)
    (hoverlap : ∀ q, q ≠ [] → q <+: u → ¬ q <:+ v) : EndsWithin (Rewrites u v) s.length s := by
  refine endsWithin_of_potential (P := fun n s => Woven v.reverse n s.reverse) ?_ ?_
  · intro n s t hwoven hstep
    obtain ⟨x, y, hs, ht⟩ := hstep.reverse
    rw [hs] at hwoven
    rw [ht]
    refine hwoven.rewrite (by rwa [List.reverse_infix]) ?_
    intro q hq hqu hqv
    apply hoverlap q.reverse (by rwa [Ne, List.reverse_eq_nil_iff])
    · rwa [← List.reverse_suffix, List.reverse_reverse]
    · rwa [← List.reverse_prefix, List.reverse_reverse]
  · have hown := Woven.own v.reverse s.reverse
    rwa [List.length_reverse] at hown

/-! ## Rules that end -/

/-- Why rewriting with the rule ends. -/
inductive Progress [DecidableEq α] (u v : List α) : Prop
  | shorter : v.length < u.length → Progress u v
  | sameLength : v.length = u.length → v ≠ u → Progress u v
  | usesUp (c : α) : v.count c < u.count c → Progress u v
  | noSuffix : ¬ u <:+: v → (∀ q, q ≠ [] → q <:+ u → ¬ q <+: v) → Progress u v
  | noPrefix : ¬ u <:+: v → (∀ q, q ≠ [] → q <+: u → ¬ q <:+ v) → Progress u v

/-- A rule that ends needs no more steps than the string has letters, or does not make it
longer. -/
theorem Progress.exists_endsWithin [DecidableEq α] [Finite α] (h : Progress u v) (s : List α) :
    ∃ n, EndsWithin (Rewrites u v) n s ∧
      n * (v.length - u.length) ≤ s.length * (v.length - u.length) := by
  cases h with
  | shorter hless => exact ⟨s.length, endsWithin_of_shorter hless, le_refl _⟩
  | sameLength hlength hne =>
      obtain ⟨n, hends⟩ := exists_endsWithin_of_sameLength hlength hne s
      refine ⟨n, hends, ?_⟩
      rw [hlength, Nat.sub_self, Nat.mul_zero]
      exact Nat.zero_le _
  | usesUp c hcount => exact ⟨s.length, endsWithin_of_count hcount, le_refl _⟩
  | noSuffix hinside hoverlap =>
      exact ⟨s.length, endsWithin_of_noSuffix hinside hoverlap, le_refl _⟩
  | noPrefix hinside hoverlap =>
      exact ⟨s.length, endsWithin_of_noPrefix hinside hoverlap, le_refl _⟩

end ControlEngine
