import Mathlib.Data.List.Basic

/-!
# Messages on numbered channels

A sender writes encoded messages to channels with numbers.  It uses one channel at a time, and
never goes back to one with a lower number.  What a channel has carried is the encodings of the
messages that were delivered on it, in their order, and a tail: the bytes of a message that is
under way, or was given up.
-/

namespace ControlEngine

variable {β μ : Type*}

/-- The messages that were delivered on a channel. -/
def onChannel (channel : ℕ) (deliveries : List (ℕ × μ)) : List μ :=
  (deliveries.filter fun d => d.1 = channel).map Prod.snd

theorem onChannel_cons_self (d : ℕ × μ) (deliveries : List (ℕ × μ)) :
    onChannel d.1 (d :: deliveries) = d.2 :: onChannel d.1 deliveries := by
  simp [onChannel]

theorem onChannel_cons_of_ne {channel : ℕ} {d : ℕ × μ} (h : d.1 ≠ channel)
    (deliveries : List (ℕ × μ)) :
    onChannel channel (d :: deliveries) = onChannel channel deliveries := by
  simp [onChannel, h]

/-- The channels were used in the order of their numbers, and each has carried the messages
that were delivered on it, and its tail. -/
structure Carried (encode : μ → List β) (content : ℕ → List β) (deliveries : List (ℕ × μ))
    (tail : ℕ → List β) : Prop where
  inOrder : (deliveries.map Prod.fst).Pairwise (· ≤ ·)
  content : ∀ channel, content channel =
    ((onChannel channel deliveries).map encode).flatten ++ tail channel

namespace Carried

variable {encode : μ → List β} {content content' : ℕ → List β} {deliveries : List (ℕ × μ)}
variable {tail : ℕ → List β} {channel : ℕ} {m : μ}

theorem nothing (encode : μ → List β) : Carried encode (fun _ => []) [] fun _ => [] where
  inOrder := List.Pairwise.nil
  content _ := rfl

theorem tail_eq_nil (h : Carried encode content deliveries tail)
    (hnothing : content channel = []) : tail channel = [] := by
  have hcontent := h.content channel
  rw [hnothing] at hcontent
  exact (List.append_eq_nil_iff.mp hcontent.symm).2

theorem content_ne_nil (h : Carried encode content deliveries tail) {d : ℕ × μ}
    (hd : d ∈ deliveries) (hencode : encode d.2 ≠ []) : content d.1 ≠ [] := by
  rw [h.content]
  intro hnothing
  have hflat := (List.append_eq_nil_iff.mp hnothing).1
  rw [List.flatten_eq_nil_iff] at hflat
  apply hencode
  apply hflat
  apply List.mem_map_of_mem
  exact List.mem_map.mpr ⟨d, List.mem_filter.mpr ⟨hd, by simp⟩, rfl⟩

/-- More bytes of the message that is under way. -/
theorem extend (h : Carried encode content deliveries tail) (chunk : List β)
    (hcontent : ∀ i, content' i = content i ++ if i = channel then chunk else []) :
    Carried encode content' deliveries
      (Function.update tail channel (tail channel ++ chunk)) where
  inOrder := h.inOrder
  content i := by
    rw [hcontent, h.content]
    by_cases hi : i = channel
    · subst hi
      simp
    · simp [hi]

/-- The message that is under way is whole. -/
theorem deliver (h : Carried encode content deliveries tail)
    (hlatest : ∀ d ∈ deliveries, d.1 ≤ channel) (hwhole : tail channel = encode m) :
    Carried encode content (deliveries ++ [(channel, m)]) (Function.update tail channel []) where
  inOrder := by
    rw [List.map_append, List.pairwise_append]
    refine ⟨h.inOrder, List.pairwise_singleton _ _, ?_⟩
    intro i hi j hj
    obtain ⟨d, hd, rfl⟩ := List.mem_map.mp hi
    rw [List.mem_singleton.mp hj]
    exact hlatest d hd
  content i := by
    rw [h.content, onChannel, onChannel, List.filter_append, List.map_append]
    by_cases hi : i = channel
    · subst hi
      simp [hwhole]
    · simp [hi, Ne.symm hi]

end Carried

/-- A channel whose tail was replaced has the new one, and the others have theirs. -/
theorem update_eq_or {P : List β → Prop} {tail : ℕ → List β} {channel : ℕ} {text : List β}
    (htext : P text) (i : ℕ) :
    Function.update tail channel text i = tail i ∨ P (Function.update tail channel text i) := by
  by_cases hi : i = channel
  · subst hi
    rw [Function.update_self]
    exact Or.inr htext
  · exact Or.inl (Function.update_of_ne hi _ _)

/-- Values that are related to the messages, one by one, can be put on the same channels. -/
theorem exists_onChannel {α : Type*} {R : α → μ → Prop} {values : List α}
    {deliveries : List (ℕ × μ)} (h : List.Forall₂ R values (deliveries.map Prod.snd)) :
    ∃ placed : List (ℕ × α), placed.map Prod.snd = values ∧
      placed.map Prod.fst = deliveries.map Prod.fst ∧
      ∀ channel, List.Forall₂ R (onChannel channel placed) (onChannel channel deliveries) := by
  induction deliveries generalizing values with
  | nil =>
      cases h
      exact ⟨[], rfl, rfl, fun _ => .nil⟩
  | cons d deliveries ih =>
      cases h with
      | @cons a _ values _ hfirst hrest =>
          obtain ⟨placed, hvalues, hchannels, hrelated⟩ := ih hrest
          refine ⟨(d.1, a) :: placed, by rw [List.map_cons, hvalues], ?_, ?_⟩
          · rw [List.map_cons, List.map_cons, hchannels]
          · intro channel
            by_cases hd : d.1 = channel
            · rw [← hd, onChannel_cons_self (d.1, a), onChannel_cons_self]
              exact .cons hfirst (hrelated d.1)
            · rw [onChannel_cons_of_ne hd, onChannel_cons_of_ne (show (d.1, a).1 ≠ channel from hd)]
              exact hrelated channel

end ControlEngine
