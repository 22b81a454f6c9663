import Mathlib.Data.List.Induction
import Mathlib.Tactic.Common

/-!
# Layers

A value is built from layers, one after the other. Each layer either decides the value or leaves it
as the layers before made it, so the last layer that decides has the last word.
-/

namespace Lib

open List

variable {σ δ β : Type*}

/-- What is read after a layer is the layer's own value if it decides, and otherwise what was read
before. -/
def Layered (step : σ → δ → σ) (read : σ → β) (decides : δ → Bool) (own : δ → β) : Prop :=
  ∀ s d, read (step s d) = if decides d then own d else read s

/-- The last layer that decides. -/
def lastLayer (decides : δ → Bool) (layers : List δ) : Option δ :=
  layers.reverse.find? decides

variable {step : σ → δ → σ} {read : σ → β} {decides : δ → Bool} {own : δ → β} {layers : List δ}

lemma lastLayer_append (layers : List δ) (d : δ) :
    lastLayer decides (layers ++ [d]) = if decides d then some d else lastLayer decides layers := by
  rw [lastLayer, reverse_concat, find?_cons, lastLayer]
  cases decides d <;> rfl

lemma mem_of_lastLayer {d : δ} (h : lastLayer decides layers = some d) :
    d ∈ layers ∧ decides d = true :=
  ⟨mem_reverse.mp (mem_of_find?_eq_some h), find?_some h⟩

lemma lastLayer_eq_none : lastLayer decides layers = none ↔ ∀ d ∈ layers, decides d = false := by
  simp [lastLayer]

section

variable (h : Layered step read decides own)
include h

/-- The last layer that decides has the last word. -/
lemma Layered.foldl (layers : List δ) (s : σ) :
    read (layers.foldl step s) = ((lastLayer decides layers).map own).getD (read s) := by
  induction layers using reverseRecOn with
  | nil => rfl
  | append_singleton layers d ih =>
    rw [foldl_append, foldl_cons, foldl_nil, h, lastLayer_append]
    split
    · rfl
    · exact ih

/-- Several layers are one: they decide if one of them does, and then it does not matter on what
they lie. -/
lemma Layered.foldl_any (layers : List δ) (s s₀ : σ) : read (layers.foldl step s) =
      if layers.any decides then read (layers.foldl step s₀) else read s := by
  rw [h.foldl, h.foldl]
  cases hlast : lastLayer decides layers with
  | none =>
    have hnone : layers.any decides = false :=
      any_eq_false.mpr fun d hd => by simp [lastLayer_eq_none.mp hlast d hd]
    rw [hnone]
    rfl
  | some d =>
    have hany : layers.any decides = true := any_eq_true.mpr ⟨d, mem_of_lastLayer hlast⟩
    rw [hany]
    rfl

/-- Layers that agree with each other say what they agree on. -/
lemma Layered.foldl_of_agree {v : β} {s : σ} (hagree : ∀ d ∈ layers, decides d = true → own d = v)
    (hsome : (∀ d ∈ layers, decides d = false) → read s = v) : read (layers.foldl step s) = v := by
  rw [h.foldl]
  cases hlast : lastLayer decides layers with
  | none => exact hsome (lastLayer_eq_none.mp hlast)
  | some d =>
    obtain ⟨hd, hdecides⟩ := mem_of_lastLayer hlast
    exact hagree d hd hdecides

end

end Lib
