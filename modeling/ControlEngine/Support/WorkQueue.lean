import Mathlib.Data.List.Basic

/-!
# Queues whose items make new ones

A worker takes the first item of a queue, handles it, and appends what handling it has
made.  What an item makes may depend on the turn in which it is handled.  The queue runs
empty if the items that are made make nothing themselves; it never does once it holds an
item of a kind that makes another of its kind.
-/

namespace ControlEngine

variable {α : Type*}

/-- One turn of the worker, which does nothing on an empty queue. -/
def workTurn (spawn : α → List α) : List α → List α
  | [] => []
  | x :: queue => queue ++ spawn x

/-- The queue after a number of turns. -/
def workTurns (spawn : ℕ → α → List α) : ℕ → List α → List α
  | 0, queue => queue
  | n + 1, queue => workTurns (fun k => spawn (k + 1)) n (workTurn (spawn 0) queue)

/-- A kind of items that makes only items of this kind. -/
theorem forall_mem_workTurn {fit : α → Prop} {spawn : α → List α} {queue : List α}
    (hspawn : ∀ x, fit x → ∀ y ∈ spawn x, fit y) (h : ∀ x ∈ queue, fit x) :
    ∀ x ∈ workTurn spawn queue, fit x := by
  intro x hx
  cases queue with
  | nil => cases hx
  | cons first queue =>
      rcases List.mem_append.mp hx with hlater | hnew
      · exact h x (List.mem_cons_of_mem _ hlater)
      · exact hspawn first (h first List.mem_cons_self) x hnew

/-- The queue keeps an item of a kind that reproduces. -/
theorem exists_mem_workTurn {fertile : α → Prop} {spawn : α → List α} {queue : List α}
    (hspawn : ∀ x, fertile x → ∃ y ∈ spawn x, fertile y) (h : ∃ x ∈ queue, fertile x) :
    ∃ x ∈ workTurn spawn queue, fertile x := by
  obtain ⟨x, hx, hfertile⟩ := h
  cases queue with
  | nil => cases hx
  | cons first queue =>
      rcases List.mem_cons.mp hx with rfl | hlater
      · obtain ⟨y, hy, hyfertile⟩ := hspawn x hfertile
        exact ⟨y, List.mem_append_right _ hy, hyfertile⟩
      · exact ⟨x, List.mem_append_left _ hlater, hfertile⟩

theorem exists_mem_workTurns {fertile : α → Prop} {spawn : ℕ → α → List α} {queue : List α}
    (hspawn : ∀ k x, fertile x → ∃ y ∈ spawn k x, fertile y) (h : ∃ x ∈ queue, fertile x)
    (n : ℕ) : ∃ x ∈ workTurns spawn n queue, fertile x := by
  induction n generalizing spawn queue with
  | zero => exact h
  | succ n ih => exact ih (fun k => hspawn (k + 1)) (exists_mem_workTurn (hspawn 0) h)

theorem workTurns_length_eq_nil {spawn : ℕ → α → List α} {queue : List α}
    (hbarren : ∀ x ∈ queue, ∀ k, spawn k x = []) :
    workTurns spawn queue.length queue = [] := by
  induction queue generalizing spawn with
  | nil => rfl
  | cons x queue ih =>
      rw [List.length_cons, workTurns, workTurn, hbarren x List.mem_cons_self 0, List.append_nil]
      apply ih
      intro y hy k
      exact hbarren y (List.mem_cons_of_mem _ hy) (k + 1)

/-- A queue is worked off if what its items make makes nothing. -/
theorem exists_workTurns_eq_nil {barren : α → Prop} {spawn : ℕ → α → List α}
    {queue made : List α} (hbarren : ∀ k x, barren x → spawn k x = [])
    (hqueue : ∀ x ∈ queue, ∀ k, ∀ y ∈ spawn k x, barren y) (hmade : ∀ y ∈ made, barren y) :
    ∃ n, workTurns spawn n (queue ++ made) = [] := by
  induction queue generalizing spawn made with
  | nil =>
      refine ⟨made.length, workTurns_length_eq_nil ?_⟩
      intro y hy k
      exact hbarren k y (hmade y hy)
  | cons x queue ih =>
      have hnext : ∃ n, workTurns (fun k => spawn (k + 1)) n (queue ++ (made ++ spawn 0 x)) = [] := by
        apply ih
        · intro k y hy
          exact hbarren (k + 1) y hy
        · intro y hy k
          exact hqueue y (List.mem_cons_of_mem _ hy) (k + 1)
        · intro y hy
          rcases List.mem_append.mp hy with hold | hnew
          · exact hmade y hold
          · exact hqueue x List.mem_cons_self 0 y hnew
      obtain ⟨n, hn⟩ := hnext
      refine ⟨n + 1, ?_⟩
      rw [List.cons_append, workTurns, workTurn, List.append_assoc]
      exact hn

end ControlEngine
