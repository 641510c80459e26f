import ControlEngine.Buffer.Allocation
import ControlEngine.Support.Loop
import ControlEngine.Support.Occurrence

/-!
# Splitting strings

`stringSplit` cuts off what stands before the delimiter as long as it finds one.  It goes
on one character behind the place where it has found the delimiter, whatever the length of
the delimiter, so the rest of a longer one is left in front of the next piece.
-/

namespace ControlEngine

/-- What `substr` and `replace` throw for a position behind the end. -/
def outOfRange : Thrown := .exception "std::out_of_range"

/-- `std::string::substr`. -/
def substr (s : List Byte) (pos count : ℕ) : Except Thrown (List Byte) :=
  if pos > s.length then .error outOfRange else .ok ((s.drop pos).take count)

/-- A turn of the loop of `stringSplit`, for the pieces so far and the rest of the string;
an exception leaves the loop. -/
def splitTurn (delim : List Byte) :
    Except Thrown (List (List Byte) × List Byte) →
      Option (Except Thrown (List (List Byte) × List Byte))
  | .error _ => none
  | .ok (resp, s0) =>
      match firstOccurrence delim s0 with
      | none => none
      | some found =>
          some do
            let piece ← substr s0 0 found
            let rest ← substr s0 (found + 1) (s0.length - found)
            return (resp ++ [piece], rest)

/-- `stringSplit`, if its loop ends within some turns. -/
def stringSplit (turns : ℕ) (s0 delim : List Byte) :
    Option (Except Thrown (List (List Byte))) :=
  (whileLoop (splitTurn delim) turns (.ok ([], s0))).map fun result =>
    result.map fun (resp, rest) => resp ++ [rest]

/-- The pieces of the string, joined with the delimiter, are the string, and none of them
contains the delimiter. -/
def SplitsLosslessly (s delim : List Byte) : Prop :=
  ∃ turns pieces, stringSplit turns s delim = some (.ok pieces) ∧
    delim.intercalate pieces = s ∧ ∀ piece ∈ pieces, ¬ delim <:+: piece

/-! ## Joining -/

theorem intercalate_concat_concat {α : Type*} (delim a b : List α) (pieces : List (List α)) :
    delim.intercalate (pieces ++ [a, b]) = delim.intercalate (pieces ++ [a ++ delim ++ b]) := by
  induction pieces with
  | nil => simp [List.intercalate_cons_cons]
  | cons piece pieces ih =>
      have hne : ∀ last : List (List α), last ≠ [] → pieces ++ last ≠ [] := by
        intro last hlast
        simp [hlast]
      rw [List.cons_append, List.cons_append, List.intercalate_cons_of_ne_nil (hne _ (by simp)),
        List.intercalate_cons_of_ne_nil (hne _ (by simp)), ih]

theorem length_intercalate_concat {α : Type*} (delim last : List α) (pieces : List (List α)) :
    (delim.intercalate (pieces ++ [last])).length =
      (pieces.map List.length).sum + pieces.length * delim.length + last.length := by
  induction pieces with
  | nil => simp
  | cons piece pieces ih =>
      rw [List.cons_append, List.intercalate_cons_of_ne_nil (by simp), List.length_append,
        List.length_append, ih, List.map_cons, List.sum_cons, List.length_cons, Nat.succ_mul]
      omega

/-! ## The loop -/

variable {s delim rest : List Byte} {resp : List (List Byte)}

theorem splitTurn_ok {found : ℕ} (hne : delim ≠ [])
    (hfound : firstOccurrence delim rest = some found) :
    splitTurn delim (.ok (resp, rest)) =
      some (.ok (resp ++ [rest.take found], rest.drop (found + 1))) := by
  have hlength := congrArg List.length (split_of_firstOccurrence hfound).1
  have hpos := List.length_pos_of_ne_nil hne
  simp only [List.length_append, List.length_take, List.length_drop] at hlength
  have hpiece : substr rest 0 found = .ok (rest.take found) := by
    simp [substr]
  have hrest : substr rest (found + 1) (rest.length - found) = .ok (rest.drop (found + 1)) := by
    rw [substr, if_neg (by omega), List.take_of_length_le (by rw [List.length_drop]; omega)]
  simp only [splitTurn, hfound, hpiece, hrest]
  rfl

/-- The pieces so far do not contain the delimiter; for a delimiter of one character they
make up the string, together with the rest, and for a longer one they are too long. -/
structure SplitSoFar (s delim : List Byte) (resp : List (List Byte)) (rest : List Byte) :
    Prop where
  clean : ∀ piece ∈ resp, ¬ delim <:+: piece
  joined : delim.length = 1 → delim.intercalate (resp ++ [rest]) = s
  length : (delim.intercalate (resp ++ [rest])).length = s.length + resp.length * (delim.length - 1)
  cut : (resp = [] ∧ rest = s) ∨ (resp ≠ [] ∧ delim <:+: s)

theorem splitSoFar_start : SplitSoFar s delim [] s where
  clean := by simp
  joined := by simp
  length := by simp
  cut := Or.inl ⟨rfl, rfl⟩

theorem SplitSoFar.turn {found : ℕ} (h : SplitSoFar s delim resp rest) (hne : delim ≠ [])
    (hfound : firstOccurrence delim rest = some found) :
    SplitSoFar s delim (resp ++ [rest.take found]) (rest.drop (found + 1)) := by
  obtain ⟨hsplit, htake⟩ := split_of_firstOccurrence hfound
  have hpos := List.length_pos_of_ne_nil hne
  have hlength := congrArg List.length hsplit
  simp only [List.length_append, htake, List.length_drop] at hlength
  refine ⟨?_, ?_, ?_, ?_⟩
  · intro piece hpiece
    rcases List.mem_append.mp hpiece with hearlier | hlast
    · exact h.clean piece hearlier
    · rw [List.mem_singleton.mp hlast]
      intro hinfix
      apply not_infix_of_firstOccurrence hne hfound
      exact hinfix.trans (List.take_prefix_take_left (by omega)).isInfix
  · intro hone
    have hbehind : rest = rest.take found ++ delim ++ rest.drop (found + 1) := by
      rwa [hone] at hsplit
    rw [List.append_assoc, List.singleton_append, intercalate_concat_concat, ← hbehind]
    exact h.joined hone
  · have hbefore := h.length
    rw [length_intercalate_concat] at hbefore ⊢
    simp only [List.map_append, List.sum_append, List.map_singleton, List.sum_singleton, htake,
      List.length_append, List.length_singleton, List.length_drop, Nat.succ_mul]
    omega
  · refine Or.inr ⟨by simp, ?_⟩
    rcases h.cut with ⟨_, rfl⟩ | ⟨_, hoccurs⟩
    · exact ⟨_, _, hsplit.symm⟩
    · exact hoccurs

theorem splitTurn_cases {state next : Except Thrown (List (List Byte) × List Byte)}
    (hne : delim ≠ []) (hturn : splitTurn delim state = some next) :
    ∃ resp rest found, state = .ok (resp, rest) ∧ firstOccurrence delim rest = some found ∧
      next = .ok (resp ++ [rest.take found], rest.drop (found + 1)) := by
  cases state with
  | error thrown => cases hturn
  | ok state =>
      obtain ⟨resp, rest⟩ := state
      cases hfound : firstOccurrence delim rest with
      | none =>
          simp only [splitTurn, hfound] at hturn
          cases hturn
      | some found =>
          rw [splitTurn_ok hne hfound] at hturn
          exact ⟨resp, rest, found, rfl, hfound, (Option.some.inj hturn).symm⟩

/-- The length of the rest. -/
def restLength : Except Thrown (List (List Byte) × List Byte) → ℕ
  | .error _ => 0
  | .ok (_, rest) => rest.length

/-- The loop ends for every delimiter that is not empty. -/
theorem exists_stringSplit (hne : delim ≠ []) (s : List Byte) :
    ∃ resp rest, stringSplit s.length s delim = some (.ok (resp ++ [rest])) ∧
      SplitSoFar s delim resp rest ∧ ¬ delim <:+: rest := by
  have hless : ∀ state next, splitTurn delim state = some next →
      restLength next < restLength state := by
    intro state next hturn
    obtain ⟨resp, rest, found, rfl, hfound, rfl⟩ := splitTurn_cases hne hturn
    obtain ⟨hsplit, htake⟩ := split_of_firstOccurrence hfound
    have hlength := congrArg List.length hsplit
    have hpos := List.length_pos_of_ne_nil hne
    simp only [List.length_append, htake, List.length_drop] at hlength
    simp only [restLength, List.length_drop]
    omega
  obtain ⟨last, hrun⟩ := exists_whileLoop_of_measure restLength hless
    (s := (.ok ([], s))) (le_refl s.length)
  have hreached : (∃ resp rest, last = .ok (resp, rest) ∧ SplitSoFar s delim resp rest) ∧
      splitTurn delim last = none := by
    refine whileLoop_invariant (P := fun state => ∃ resp rest, state = .ok (resp, rest) ∧
      SplitSoFar s delim resp rest) ⟨[], s, rfl, splitSoFar_start⟩ ?_ hrun
    rintro state next ⟨resp, rest, rfl, hsofar⟩ hturn
    obtain ⟨_, _, found, hstate, hfound, rfl⟩ := splitTurn_cases hne hturn
    cases hstate
    exact ⟨_, _, rfl, hsofar.turn hne hfound⟩
  obtain ⟨⟨resp, rest, rfl, hsofar⟩, hstop⟩ := hreached
  refine ⟨resp, rest, ?_, hsofar, ?_⟩
  · rw [stringSplit, hrun]
    rfl
  · rw [← firstOccurrence_eq_none_iff]
    cases hfound : firstOccurrence delim rest with
    | none => rfl
    | some found =>
        rw [splitTurn_ok hne hfound] at hstop
        cases hstop

theorem stringSplit_unique {turns more : ℕ} {result result' : Except Thrown (List (List Byte))}
    (h : stringSplit turns s delim = some result) (h' : stringSplit more s delim = some result') :
    result = result' := by
  obtain ⟨last, hlast, rfl⟩ := Option.map_eq_some_iff.mp h
  obtain ⟨last', hlast', rfl⟩ := Option.map_eq_some_iff.mp h'
  rw [whileLoop_unique hlast hlast']

/-- A delimiter that is not empty splits a string without loss exactly when it has one
character only, or does not occur. -/
theorem splitsLosslessly_iff (hne : delim ≠ []) :
    SplitsLosslessly s delim ↔ delim.length = 1 ∨ ¬ delim <:+: s := by
  obtain ⟨resp, rest, hresult, hsofar, hstop⟩ := exists_stringSplit hne s
  constructor
  · rintro ⟨turns, pieces, hpieces, hjoined, -⟩
    cases stringSplit_unique hpieces hresult
    by_contra hneither
    rw [not_or, not_not] at hneither
    obtain ⟨hlong, hoccurs⟩ := hneither
    have hpos := List.length_pos_of_ne_nil hne
    have hlength := hsofar.length
    rw [hjoined] at hlength
    rcases hsofar.cut with ⟨_, rfl⟩ | ⟨hcut, _⟩
    · exact hstop hoccurs
    · -- Each cut has made the joined pieces longer.
      have hmore : 0 < resp.length * (delim.length - 1) :=
        Nat.mul_pos (List.length_pos_of_ne_nil hcut) (by omega)
      omega
  · intro hexact
    refine ⟨s.length, resp ++ [rest], hresult, ?_, ?_⟩
    · rcases hexact with hone | hnever
      · exact hsofar.joined hone
      · rcases hsofar.cut with ⟨rfl, rfl⟩ | ⟨_, hoccurs⟩
        · exact List.intercalate_singleton
        · exact absurd hoccurs hnever
    · intro piece hpiece
      rcases List.mem_append.mp hpiece with hearlier | hlast
      · exact hsofar.clean piece hearlier
      · rwa [List.mem_singleton.mp hlast]

/-- "a==b" at the character '='. -/
theorem splitsLosslessly_equalsSigns : SplitsLosslessly [97, 61, 61, 98] [61] :=
  (splitsLosslessly_iff (by decide)).mpr (Or.inl rfl)

/-- "a--b" at "--": the second of the two characters stays with the second piece. -/
theorem not_splitsLosslessly_twoDashes :
    stringSplit 4 [97, 45, 45, 98] [45, 45] = some (.ok [[97], [45, 98]]) ∧
      ¬ SplitsLosslessly [97, 45, 45, 98] [45, 45] := by
  have hresult : stringSplit 4 [97, 45, 45, 98] [45, 45] = some (.ok [[97], [45, 98]]) := rfl
  refine ⟨hresult, ?_⟩
  rintro ⟨turns, pieces, hpieces, hjoined, -⟩
  cases stringSplit_unique hpieces hresult
  exact absurd hjoined (by decide)

end ControlEngine
