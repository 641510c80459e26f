import ControlEngine.Controllers.Logging
import ControlEngine.Strings.Splitting
import Mathlib.Data.List.TakeWhile

/-!
# The command line

`readCommandLineArgs` splits the first argument at its equals signs.  It rejects the
argument if there are not two pieces *and* the first piece is the name of the option, so
an argument without this name passes, whatever it is made of.  `main` then takes the second
piece, which need not exist.
-/

namespace ControlEngine

/-- The arguments of `main`: `argv` has `argc` entries. -/
structure CommandLine where
  argc : ℤ
  argv : List (List Byte)
  counted : argc = argv.length

/-- `cliError`. -/
def cliError : String := " *** Failing reading the command line arguments ***"

/-- The character '='. -/
def equalsSign : Byte := 61

/-- The name of the option. -/
def configFile : List Byte := textBytes "--Config-File"

/-- `readCommandLineArgs`, if the loop of `stringSplit` ends within some turns. -/
def readCommandLineArgs (turns : ℕ) (line : CommandLine) :
    Option (Except Thrown (List (List Byte))) :=
  if line.argc < 2 then some (.error (.literal cliError))
  else
    match stringSplit turns (line.argv.getD 1 []) [equalsSign] with
    | none => none
    | some (.error thrown) => some (.error thrown)
    | some (.ok parse) =>
        if parse.length ≠ 2 ∧ parse.getD 0 [] = configFile then
          some (.error (.literal cliError))
        else some (.ok parse)

namespace CommandLine

/-- The first argument is the option with a value that has no equals sign. -/
def Names (line : CommandLine) (text : List Byte) : Prop :=
  line.argv[1]? = some (configFile ++ equalsSign :: text) ∧ equalsSign ∉ text

/-- Two arguments or more, of which the first one is well formed. -/
def WellFormed (line : CommandLine) : Prop := 2 ≤ line.argc ∧ ∃ text, line.Names text

/-- The command line is accepted exactly when it is well formed, with its value as the
second of two pieces, and rejected otherwise; what is accepted has a second piece. -/
def ReadExactly (line : CommandLine) : Prop :=
  ∃ turns result, readCommandLineArgs turns line = some result ∧
    ((∃ parse, result = .ok parse) ↔ line.WellFormed) ∧
    (2 ≤ line.argc → ∀ text, line.Names text → ∃ option, result = .ok [option, text]) ∧
    (¬ line.WellFormed → result = .error (.literal cliError)) ∧
    ∀ parse, result = .ok parse → 1 < parse.length

/-- What stands before the first equals sign of the first argument. -/
def optionName (line : CommandLine) : List Byte :=
  (line.argv.getD 1 []).takeWhile fun c => c ≠ equalsSign

end CommandLine

/-! ## The pieces of an argument -/

theorem takeWhile_intercalate {c : Byte} {first : List Byte} (hfirst : c ∉ first)
    (pieces : List (List Byte)) :
    ([c].intercalate (first :: pieces)).takeWhile (fun b => b ≠ c) = first := by
  have hclean : ∀ b ∈ first, decide (b ≠ c) = true := by
    intro b hb
    rw [decide_eq_true_iff]
    rintro rfl
    exact hfirst hb
  cases pieces with
  | nil =>
      rw [List.intercalate_singleton]
      exact List.takeWhile_eq_self_iff.mpr hclean
  | cons second pieces =>
      rw [List.intercalate_cons_cons, List.append_assoc, List.takeWhile_append_of_pos hclean]
      simp

/-- Splitting at one character gives pieces without it, of which there is at least one. -/
theorem exists_stringSplit_singleton (s : List Byte) (c : Byte) :
    ∃ first pieces, stringSplit s.length s [c] = some (.ok (first :: pieces)) ∧
      [c].intercalate (first :: pieces) = s ∧ ∀ piece ∈ first :: pieces, c ∉ piece := by
  obtain ⟨resp, rest, hresult, hsofar, hstop⟩ := exists_stringSplit (List.cons_ne_nil c []) s
  have hjoined := hsofar.joined rfl
  have hclean : ∀ piece ∈ resp ++ [rest], c ∉ piece := by
    intro piece hpiece
    rw [← List.singleton_infix_iff]
    rcases List.mem_append.mp hpiece with hearlier | hlast
    · exact hsofar.clean piece hearlier
    · rwa [List.mem_singleton.mp hlast]
  cases hpieces : resp ++ [rest] with
  | nil => simp at hpieces
  | cons first pieces =>
      rw [hpieces] at hresult hjoined hclean
      exact ⟨first, pieces, hresult, hjoined, hclean⟩

/-! ## What is accepted -/

variable {line : CommandLine}

theorem readCommandLineArgs_unique {turns more : ℕ}
    {result result' : Except Thrown (List (List Byte))}
    (h : readCommandLineArgs turns line = some result)
    (h' : readCommandLineArgs more line = some result') : result = result' := by
  unfold readCommandLineArgs at h h'
  split at h
  · rename_i hfew
    rw [if_pos hfew] at h'
    exact Option.some.inj (h.symm.trans h')
  · rename_i henough
    rw [if_neg henough] at h'
    cases hsplit : stringSplit turns (line.argv.getD 1 []) [equalsSign] with
    | none =>
        rw [hsplit] at h
        cases h
    | some split =>
        cases hsplit' : stringSplit more (line.argv.getD 1 []) [equalsSign] with
        | none =>
            rw [hsplit'] at h'
            cases h'
        | some split' =>
            cases stringSplit_unique hsplit hsplit'
            rw [hsplit] at h
            rw [hsplit'] at h'
            exact Option.some.inj (h.symm.trans h')

theorem readCommandLineArgs_of_split {turns : ℕ} {first : List Byte} {pieces : List (List Byte)}
    (henough : 2 ≤ line.argc)
    (hsplit : stringSplit turns (line.argv.getD 1 []) [equalsSign] = some (.ok (first :: pieces))) :
    readCommandLineArgs turns line =
      if pieces.length ≠ 1 ∧ first = configFile then some (.error (.literal cliError))
      else some (.ok (first :: pieces)) := by
  rw [readCommandLineArgs, if_neg (not_lt.mpr henough), hsplit]
  simp

theorem pieces_of_names {text first : List Byte} {pieces : List (List Byte)}
    (hnames : line.Names text)
    (hjoined : [equalsSign].intercalate (first :: pieces) = line.argv.getD 1 [])
    (hclean : ∀ piece ∈ first :: pieces, equalsSign ∉ piece) :
    first = configFile ∧ pieces = [text] := by
  obtain ⟨hargument, htext⟩ := hnames
  have hoption : equalsSign ∉ configFile := by decide
  have hvalue : line.argv.getD 1 [] = [equalsSign].intercalate [configFile, text] := by
    rw [List.getD_eq_getElem?_getD, hargument]
    simp [List.intercalate_cons_cons]
  have hfirst : first = configFile := by
    rw [← takeWhile_intercalate (hclean first List.mem_cons_self) pieces, hjoined, hvalue,
      takeWhile_intercalate hoption]
  refine ⟨hfirst, ?_⟩
  rw [hvalue, hfirst] at hjoined
  cases pieces with
  | nil =>
      -- Without a second piece the argument would end behind the name.
      have hlength := congrArg List.length hjoined
      simp [List.intercalate_cons_cons] at hlength
  | cons second pieces =>
      rw [List.intercalate_cons_cons, List.intercalate_cons_cons, List.append_cancel_left_eq,
        List.intercalate_singleton] at hjoined
      cases pieces with
      | nil =>
          rw [List.intercalate_singleton] at hjoined
          rw [hjoined]
      | cons third pieces =>
          exfalso
          apply htext
          rw [← hjoined, List.intercalate_cons_cons]
          simp

theorem names_of_pieces {text : List Byte} (henough : 2 ≤ line.argc)
    (hjoined : [equalsSign].intercalate [configFile, text] = line.argv.getD 1 [])
    (htext : equalsSign ∉ text) : line.Names text := by
  have hlength : 1 < line.argv.length := by
    have hcounted := line.counted
    omega
  refine ⟨?_, htext⟩
  rw [List.getD_eq_getElem?_getD, List.getElem?_eq_getElem hlength, Option.getD_some] at hjoined
  rw [List.getElem?_eq_getElem hlength, ← hjoined]
  simp [List.intercalate_cons_cons]

/-- An argument whose first piece is the name of the option is accepted if there is one piece
more, and rejected otherwise. -/
theorem readExactly_of_split {turns : ℕ} {pieces : List (List Byte)} (henough : 2 ≤ line.argc)
    (hsplit : stringSplit turns (line.argv.getD 1 []) [equalsSign] =
      some (.ok (configFile :: pieces)))
    (hjoined : [equalsSign].intercalate (configFile :: pieces) = line.argv.getD 1 [])
    (hclean : ∀ piece ∈ configFile :: pieces, equalsSign ∉ piece) : line.ReadExactly := by
  have hread := readCommandLineArgs_of_split henough hsplit
  by_cases hone : pieces.length = 1
  · obtain ⟨text, rfl⟩ := List.length_eq_one_iff.mp hone
    rw [if_neg (fun hrejects => hrejects.1 hone)] at hread
    have hnames : line.Names text := names_of_pieces henough hjoined (hclean text (by simp))
    have hwell : line.WellFormed := ⟨henough, text, hnames⟩
    refine ⟨_, _, hread, iff_of_true ⟨_, rfl⟩ hwell, ?_, fun hnot => absurd hwell hnot, ?_⟩
    · intro _ text' hnames'
      rw [(pieces_of_names hnames' hjoined hclean).2]
      exact ⟨_, rfl⟩
    · intro parse hparse
      cases hparse
      simp
  · rw [if_pos ⟨hone, rfl⟩] at hread
    have hnone : ∀ text, ¬ line.Names text := by
      intro text hnames
      rw [(pieces_of_names hnames hjoined hclean).2] at hone
      exact hone rfl
    refine ⟨_, _, hread, ?_, fun _ text hnames => absurd hnames (hnone text), fun _ => rfl, ?_⟩
    · refine iff_of_false ?_ ?_
      · rintro ⟨parse, hparse⟩
        cases hparse
      · rintro ⟨-, text, hnames⟩
        exact hnone text hnames
    · intro parse hparse
      cases hparse

theorem readExactly_of_argc_lt (hfew : line.argc < 2) : line.ReadExactly := by
  refine ⟨0, .error (.literal cliError), if_pos hfew, ?_, ?_, fun _ => rfl, ?_⟩
  · refine iff_of_false ?_ (fun hwell => absurd hwell.1 (not_le.mpr hfew))
    rintro ⟨parse, hparse⟩
    cases hparse
  · intro henough
    exact absurd henough (not_le.mpr hfew)
  · intro parse hparse
    cases hparse

/-- The command line is read exactly as documented when there is no argument, or the first
one has the name of the option. -/
theorem readExactly_iff (line : CommandLine) :
    line.ReadExactly ↔ line.argc < 2 ∨ line.optionName = configFile := by
  by_cases hfew : line.argc < 2
  · exact iff_of_true (readExactly_of_argc_lt hfew) (Or.inl hfew)
  · have henough : 2 ≤ line.argc := not_lt.mp hfew
    obtain ⟨first, pieces, hsplit, hjoined, hclean⟩ :=
      exists_stringSplit_singleton (line.argv.getD 1 []) equalsSign
    have hname : line.optionName = first := by
      rw [CommandLine.optionName, ← hjoined]
      exact takeWhile_intercalate (hclean first List.mem_cons_self) pieces
    rw [hname]
    constructor
    · rintro ⟨turns, result, hresult, haccepted, -, -, -⟩
      right
      by_contra hother
      -- Any other argument is accepted, so it would have to be well formed.
      have hread := readCommandLineArgs_of_split henough hsplit
      rw [if_neg (fun hrejects => hother hrejects.2)] at hread
      cases readCommandLineArgs_unique hresult hread
      obtain ⟨-, text, hnames⟩ := haccepted.mp ⟨_, rfl⟩
      exact hother (pieces_of_names hnames hjoined hclean).1
    · rintro (hfew' | rfl)
      · exact absurd hfew' hfew
      · exact readExactly_of_split henough hsplit hjoined hclean

/-- The program is called with a file name alone. -/
def fileNameAlone : CommandLine where
  argc := 2
  argv := [textBytes "ControlEngine", textBytes "Settings.json"]
  counted := rfl

/-- An argument without the option is accepted as one piece, and `main` reads behind it. -/
theorem not_readExactly_fileNameAlone :
    readCommandLineArgs 0 fileNameAlone = some (.ok [textBytes "Settings.json"]) ∧
      ¬ fileNameAlone.ReadExactly := by
  have hread : readCommandLineArgs 0 fileNameAlone = some (.ok [textBytes "Settings.json"]) := rfl
  refine ⟨hread, ?_⟩
  rintro ⟨turns, result, hresult, -, -, -, hrange⟩
  cases readCommandLineArgs_unique hresult hread
  exact absurd (hrange _ rfl) (by decide)

end ControlEngine
