import ControlEngine.Strings.Splitting

/-!
# Escaping line breaks

`toRawString` writes a backslash and the letter n in place of every line break, and
`fromRawString` is meant to undo that.  Its loop replaces the two characters, but goes on as
long as there is a line break: a string without one is returned as it is, and one that has a
line break never loses it.
-/

namespace ControlEngine

/-- The character '\n'. -/
def newline : Byte := 10

/-- The backslash and the letter n. -/
def escapedNewline : List Byte := [92, 110]

/-- `std::string::replace`. -/
def replaceAt (s : List Byte) (pos count : ℕ) (inserted : List Byte) : Except Thrown (List Byte) :=
  if pos > s.length then .error outOfRange
  else .ok (s.take pos ++ inserted ++ s.drop (pos + count))

/-- A turn of a loop that goes on while one text is found, and replaces another one where it
is found; an exception leaves the loop. -/
def rewriteTurn (tested searched : List Byte) (count : ℕ) (inserted : List Byte) :
    Except Thrown (List Byte) → Option (Except Thrown (List Byte))
  | .error _ => none
  | .ok ret =>
      match firstOccurrence tested ret with
      | none => none
      | some _ =>
          match firstOccurrence searched ret with
          | none => some (.ok ret)
          | some p => some (replaceAt ret p count inserted)

/-- A turn of the loop of `toRawString`. -/
def toRawTurn : Except Thrown (List Byte) → Option (Except Thrown (List Byte)) :=
  rewriteTurn [newline] [newline] 1 escapedNewline

/-- `toRawString`, if its loop ends within some turns. -/
def toRawString (turns : ℕ) (s : List Byte) : Option (Except Thrown (List Byte)) :=
  whileLoop toRawTurn turns (.ok s)

/-- A turn of the loop of `fromRawString`. -/
def fromRawTurn : Except Thrown (List Byte) → Option (Except Thrown (List Byte)) :=
  rewriteTurn [newline] escapedNewline 2 [newline]

/-- `fromRawString`, if its loop ends within some turns. -/
def fromRawString (turns : ℕ) (s : List Byte) : Option (Except Thrown (List Byte)) :=
  whileLoop fromRawTurn turns (.ok s)

/-- Unescaping the escaped string ends and gives the string. -/
def UnescapesEscaped (s : List Byte) : Prop :=
  ∃ turns more raw, toRawString turns s = some (.ok raw) ∧ fromRawString more raw = some (.ok s)

/-- Unescaping the string ends. -/
def UnescapingEnds (s : List Byte) : Prop :=
  ∃ turns result, fromRawString turns s = some result

/-- The string with every line break escaped. -/
def escaped (s : List Byte) : List Byte :=
  s.flatMap fun c => if c = newline then escapedNewline else [c]

/-! ## Turns -/

variable {tested searched inserted ret s : List Byte} {count p : ℕ}

theorem replaceAt_of_firstOccurrence (hfound : firstOccurrence searched ret = some p) :
    replaceAt ret p count inserted = .ok (ret.take p ++ inserted ++ ret.drop (p + count)) := by
  obtain ⟨hp, _, _⟩ := firstOccurrence_eq_some_iff.mp hfound
  rw [replaceAt, if_neg (by omega)]

theorem rewriteTurn_eq_none_iff :
    rewriteTurn tested searched count inserted (.ok ret) = none ↔ ¬ tested <:+: ret := by
  rw [← firstOccurrence_eq_none_iff]
  cases htested : firstOccurrence tested ret with
  | none => simp [rewriteTurn, htested]
  | some _ =>
      cases hsearched : firstOccurrence searched ret with
      | none => simp [rewriteTurn, htested, hsearched]
      | some _ => simp [rewriteTurn, htested, hsearched]

theorem rewriteTurn_cases {next : Except Thrown (List Byte)}
    (hturn : rewriteTurn tested searched count inserted (.ok ret) = some next) :
    tested <:+: ret ∧
      ((firstOccurrence searched ret = none ∧ next = .ok ret) ∨
        ∃ p, firstOccurrence searched ret = some p ∧
          next = .ok (ret.take p ++ inserted ++ ret.drop (p + count))) := by
  have htested : tested <:+: ret := by
    by_contra hnone
    rw [rewriteTurn_eq_none_iff.mpr hnone] at hturn
    cases hturn
  refine ⟨htested, ?_⟩
  obtain ⟨found, hfound⟩ := exists_firstOccurrence htested
  cases hsearched : firstOccurrence searched ret with
  | none =>
      simp only [rewriteTurn, hfound, hsearched] at hturn
      exact Or.inl ⟨rfl, (Option.some.inj hturn).symm⟩
  | some p =>
      simp only [rewriteTurn, hfound, hsearched] at hturn
      rw [replaceAt_of_firstOccurrence hsearched] at hturn
      exact Or.inr ⟨p, rfl, (Option.some.inj hturn).symm⟩

theorem newline_infix_iff : [newline] <:+: s ↔ newline ∈ s := List.singleton_infix_iff _ _

/-! ## Escaping -/

theorem escaped_append (s t : List Byte) : escaped (s ++ t) = escaped s ++ escaped t :=
  List.flatMap_append

theorem escaped_of_notMem (h : newline ∉ s) : escaped s = s := by
  induction s with
  | nil => rfl
  | cons c s ih =>
      rw [List.mem_cons, not_or] at h
      rw [escaped, List.flatMap_cons, if_neg (Ne.symm h.1), ← escaped, ih h.2]
      rfl

theorem newline_notMem_escapedNewline : newline ∉ escapedNewline := by decide

theorem toRawTurn_cases {state next : Except Thrown (List Byte)}
    (hturn : toRawTurn state = some next) :
    ∃ before behind, state = .ok (before ++ [newline] ++ behind) ∧
      next = .ok (before ++ escapedNewline ++ behind) := by
  cases state with
  | error thrown => cases hturn
  | ok ret =>
      obtain ⟨hnewline, ⟨hnone, _⟩ | ⟨p, hp, rfl⟩⟩ := rewriteTurn_cases hturn
      · exact absurd hnewline (firstOccurrence_eq_none_iff.mp hnone)
      · exact ⟨_, _, congrArg Except.ok (split_of_firstOccurrence hp).1, rfl⟩

/-- The number of line breaks. -/
def lineBreaks : Except Thrown (List Byte) → ℕ
  | .error _ => 0
  | .ok ret => ret.count newline

/-- `toRawString` ends on every string, with all line breaks escaped. -/
theorem toRawString_eq (s : List Byte) :
    toRawString (s.count newline) s = some (.ok (escaped s)) := by
  have hless : ∀ state next, toRawTurn state = some next → lineBreaks next < lineBreaks state := by
    intro state next hturn
    obtain ⟨before, behind, rfl, rfl⟩ := toRawTurn_cases hturn
    simp only [lineBreaks, List.count_append,
      List.count_eq_zero_of_not_mem newline_notMem_escapedNewline, List.count_singleton_self]
    omega
  obtain ⟨last, hrun⟩ := exists_whileLoop_of_measure lineBreaks hless
    (s := (.ok s)) (le_refl (s.count newline))
  obtain ⟨⟨raw, rfl, hraw⟩, hstop⟩ : (∃ raw, last = .ok raw ∧ escaped raw = escaped s) ∧
      toRawTurn last = none := by
    refine whileLoop_invariant (P := fun state => ∃ raw, state = .ok raw ∧
      escaped raw = escaped s) ⟨s, rfl, rfl⟩ ?_ hrun
    rintro state next ⟨ret, rfl, hret⟩ hturn
    obtain ⟨before, behind, hstate, rfl⟩ := toRawTurn_cases hturn
    cases hstate
    refine ⟨_, rfl, ?_⟩
    rw [← hret]
    simp only [escaped_append, escaped_of_notMem newline_notMem_escapedNewline]
    rfl
  rw [toRawTurn, rewriteTurn_eq_none_iff, newline_infix_iff] at hstop
  rw [toRawString, hrun, ← hraw, escaped_of_notMem hstop]

theorem newline_notMem_escaped (s : List Byte) : newline ∉ escaped s := by
  intro hmem
  obtain ⟨c, -, hc⟩ := List.mem_flatMap.mp hmem
  split at hc
  · exact newline_notMem_escapedNewline hc
  · next hne => exact hne (List.mem_singleton.mp hc).symm

/-! ## Unescaping -/

theorem fromRawString_of_notMem (turns : ℕ) (h : newline ∉ s) :
    fromRawString turns s = some (.ok s) := by
  apply whileLoop_of_stop
  rw [fromRawTurn, rewriteTurn_eq_none_iff, newline_infix_iff]
  exact h

/-- A string with a line break has one after each turn. -/
theorem fromRawString_of_mem (turns : ℕ) (h : newline ∈ s) : fromRawString turns s = none := by
  refine whileLoop_eq_none (P := fun state : Except Thrown (List Byte) =>
    ∃ ret, state = .ok ret ∧ newline ∈ ret) ⟨s, rfl, h⟩ ?_ turns
  rintro state ⟨ret, rfl, hret⟩
  cases hturn : fromRawTurn (.ok ret) with
  | none =>
      rw [fromRawTurn, rewriteTurn_eq_none_iff, newline_infix_iff] at hturn
      exact absurd hret hturn
  | some next =>
      obtain ⟨_, ⟨_, rfl⟩ | ⟨p, _, rfl⟩⟩ := rewriteTurn_cases hturn
      · exact ⟨_, rfl, ret, rfl, hret⟩
      · exact ⟨_, rfl, _, rfl, by simp⟩

/-- Unescaping ends exactly on the strings that have no line break. -/
theorem unescapingEnds_iff (s : List Byte) : UnescapingEnds s ↔ newline ∉ s := by
  constructor
  · rintro ⟨turns, result, hresult⟩ hmem
    rw [fromRawString_of_mem turns hmem] at hresult
    cases hresult
  · intro hnone
    exact ⟨0, _, fromRawString_of_notMem 0 hnone⟩

/-- The string that is a line break. -/
theorem not_unescapingEnds_newline : ¬ UnescapingEnds [newline] := by
  rintro ⟨turns, result, hresult⟩
  rw [fromRawString_of_mem turns (List.mem_singleton_self _)] at hresult
  cases hresult

/-- A string comes back exactly if it has no line break: `fromRawString` returns the escaped
string. -/
theorem unescapesEscaped_iff (s : List Byte) : UnescapesEscaped s ↔ newline ∉ s := by
  constructor
  · rintro ⟨turns, more, raw, hraw, hback⟩
    cases whileLoop_unique hraw (toRawString_eq s)
    rw [fromRawString_of_notMem more (newline_notMem_escaped s), Option.some.injEq,
      Except.ok.injEq] at hback
    rw [← hback]
    exact newline_notMem_escaped s
  · intro hnone
    refine ⟨_, 0, escaped s, toRawString_eq s, ?_⟩
    rw [fromRawString_of_notMem 0 (newline_notMem_escaped s), escaped_of_notMem hnone]

/-- A line break comes back as a backslash and the letter n. -/
theorem not_unescapesEscaped_newline :
    toRawString 1 [newline] = some (.ok [92, 110]) ∧
      fromRawString 0 [92, 110] = some (.ok [92, 110]) ∧ ¬ UnescapesEscaped [newline] := by
  have hraw : toRawString 1 [newline] = some (.ok [92, 110]) := rfl
  refine ⟨hraw, rfl, ?_⟩
  rintro ⟨turns, more, raw, hfirst, hback⟩
  cases whileLoop_unique hfirst hraw
  rw [fromRawString_of_notMem more (by decide)] at hback
  exact absurd hback (by decide)

end ControlEngine
