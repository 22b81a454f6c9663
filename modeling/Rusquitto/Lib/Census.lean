import Mathlib.Logic.Function.Basic
import Mathlib.Tactic.ByContra

/-!
# A thing in at most one place

A partial function says what is found at each place. When there is at most one place with something
in it (`Once`), what is there is a matter of the whole function: `Found f` says it, or that there is
nothing anywhere. The lemmas follow that through a change at one place, and through a change of what
is found everywhere.
-/

namespace Lib

variable {X B C : Type*} {f f' : X → Option B} {b : Option B} {x : X}

/-- What is found anywhere. -/
def Found (f : X → Option B) : Option B → Prop
  | none => ∀ x, f x = none
  | some b => ∃ x, f x = some b

/-- Something is in at most one place. -/
def Once (f : X → Option B) : Prop :=
  ∀ x y b b', f x = some b → f y = some b' → x = y

lemma exists_found (f : X → Option B) : ∃ b, Found f b := by
  by_cases h : ∃ b x, f x = some b
  · obtain ⟨b, hb⟩ := h
    exact ⟨some b, hb⟩
  · refine ⟨none, fun x => ?_⟩
    by_contra hx
    obtain ⟨b, hb⟩ := Option.ne_none_iff_exists'.mp hx
    exact h ⟨b, x, hb⟩

lemma Found.eq_some (h : Found f b) (honce : Once f) {b₀ : B} (hx : f x = some b₀) :
    b = some b₀ := by
  cases b with
  | none => exact nomatch (h x).symm.trans hx
  | some b =>
    obtain ⟨y, hy⟩ := h
    obtain rfl := honce x y b₀ b hx hy
    exact hy.symm.trans hx

lemma Found.eq_none (h : Found f b) (hnone : ∀ x, f x = none) : b = none := by
  cases b with
  | none => rfl
  | some b =>
    obtain ⟨y, hy⟩ := h
    exact nomatch (hnone y).symm.trans hy

lemma Found.unique (h : Found f b) (honce : Once f) {b' : Option B} (h' : Found f b') : b' = b := by
  cases b with
  | none => exact h'.eq_none h
  | some b =>
    obtain ⟨x, hx⟩ := h
    exact h'.eq_some honce hx

lemma Once.eq_none_of_ne (honce : Once f) {b₀ : B} (hx : f x = some b₀) {y : X} (hy : y ≠ x) :
    f y = none := by
  by_contra hne
  obtain ⟨b, hb⟩ := Option.ne_none_iff_exists'.mp hne
  exact hy (honce y x b b₀ hb hx)

/-- When there is nothing elsewhere, what is put in a place is what is found. -/
lemma found_update [DecidableEq X] (hother : ∀ y, y ≠ x → f y = none) (v : Option B) :
    Found (Function.update f x v) v := by
  cases v with
  | none =>
    intro y
    rw [Function.update_apply]
    split
    · rfl
    · next hy => exact hother y hy
  | some b => exact ⟨x, Function.update_self ..⟩

/-- What is found changes alike everywhere. -/
lemma Found.bind (h : Found f b) (honce : Once f) (F : B → Option C) {f' : X → Option C}
    (hf : ∀ x, f' x = (f x).bind F) : Found f' (b.bind F) := by
  cases b with
  | none =>
    intro x
    rw [hf, h x]
    rfl
  | some b =>
    obtain ⟨x, hx⟩ := h
    rw [Option.bind_some]
    cases hF : F b with
    | none =>
      intro y
      rw [hf]
      by_cases hy : y = x
      · rw [hy, hx, Option.bind_some, hF]
      · rw [honce.eq_none_of_ne hx hy]
        rfl
    | some c => exact ⟨x, by rw [hf, hx, Option.bind_some, hF]⟩

end Lib
