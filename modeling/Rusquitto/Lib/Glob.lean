import Mathlib.Data.List.Basic

/-!
# Level patterns with a single-level and a multi-level wildcard

`Accepts` is the language of a pattern and `Subsumes` the lockstep test that decides inclusion of
languages. The test is sound, and on patterns without the multi-level wildcard complete as soon as
some letter is not named by the pattern that should cover (`instantiate` builds the word that shows
it).
-/

namespace Lib

open List

/-- One level of a pattern. -/
inductive Glob (α : Type*) where
  /-- A literal level. -/
  | lit (a : α)
  /-- Any one level. -/
  | one
  /-- This level and all that follow, also none. -/
  | rest
  deriving DecidableEq

namespace Glob

variable {α : Type*} {p q : List (Glob α)} {t : List α}

/-- The words that a pattern accepts. -/
def Accepts : List (Glob α) → List α → Prop
  | rest :: _, _ => True
  | one :: p, _ :: t => Accepts p t
  | lit a :: p, b :: t => a = b ∧ Accepts p t
  | [], [] => True
  | _, _ => False

/-- The lockstep inclusion test: the first pattern covers the second. -/
def Subsumes : List (Glob α) → List (Glob α) → Prop
  | rest :: _, _ => True
  | one :: _, rest :: _ => False
  | one :: p, _ :: q => Subsumes p q
  | lit a :: p, lit b :: q => a = b ∧ Subsumes p q
  | [], [] => True
  | _, _ => False

/-- A subsumed pattern accepts no word outside the language of the subsuming one. -/
lemma Subsumes.accepts (h : Subsumes p q) (ht : Accepts q t) : Accepts p t := by
  induction p generalizing q t with
  | nil =>
    cases q with
    | nil => exact ht
    | cons g q => cases g <;> exact h.elim
  | cons g p ih =>
    cases g with
    | rest => trivial
    | one =>
      rcases q with _ | ⟨_ | _ | _, q⟩
      · exact h.elim
      · cases t with
        | nil => exact ht.elim
        | cons b t => exact ih h ht.2
      · cases t with
        | nil => exact ht.elim
        | cons b t => exact ih h ht
      · exact h.elim
    | lit a =>
      rcases q with _ | ⟨b | _ | _, q⟩
      · exact h.elim
      · cases t with
        | nil => exact ht.elim
        | cons c t => exact ⟨h.1.trans ht.1, ih h.2 ht.2⟩
      · exact h.elim
      · exact h.elim

/-- Replace the multi-level wildcard by `k` single-level ones. -/
def expand (k : ℕ) : List (Glob α) → List (Glob α)
  | [] => []
  | rest :: _ => List.replicate k one
  | g :: p => g :: expand k p

lemma rest_notMem_expand (k : ℕ) (p : List (Glob α)) : rest ∉ expand k p := by
  induction p with
  | nil => simp [expand]
  | cons g p ih => cases g <;> simp [expand, ih]

private lemma accepts_replicate_one (t : List α) : Accepts (replicate t.length one) t := by
  induction t with
  | nil => trivial
  | cons a t ih => exact ih

private lemma accepts_of_accepts_expand {k : ℕ} (h : Accepts (expand k p) t) : Accepts p t := by
  induction p generalizing t with
  | nil => exact h
  | cons g p ih =>
    cases g with
    | rest => trivial
    | one =>
      cases t with
      | nil => exact h.elim
      | cons b t => exact ih h
    | lit a =>
      cases t with
      | nil => exact h.elim
      | cons b t => exact ⟨h.1, ih h.2⟩

/-- A pattern accepts what its expansions accept together. -/
lemma accepts_iff_exists_expand : Accepts p t ↔ ∃ k, Accepts (expand k p) t := by
  refine ⟨fun h => ?_, fun ⟨_, h⟩ => accepts_of_accepts_expand h⟩
  induction p generalizing t with
  | nil => exact ⟨0, h⟩
  | cons g p ih =>
    cases g with
    | rest => exact ⟨t.length, accepts_replicate_one t⟩
    | one =>
      cases t with
      | nil => exact h.elim
      | cons b t => exact ih h
    | lit a =>
      cases t with
      | nil => exact h.elim
      | cons b t =>
        obtain ⟨k, hk⟩ := ih h.2
        exact ⟨k, h.1, hk⟩

/-- The word of a pattern that fills each single-level wildcard with `z` and the multi-level one
with nothing. -/
def instantiate (z : α) : List (Glob α) → List α
  | [] => []
  | rest :: _ => []
  | one :: p => z :: instantiate z p
  | lit a :: p => a :: instantiate z p

lemma accepts_instantiate (z : α) (p : List (Glob α)) : Accepts p (instantiate z p) := by
  induction p with
  | nil => trivial
  | cons g p ih =>
    cases g with
    | rest => trivial
    | one => exact ih
    | lit a => exact ⟨rfl, ih⟩

lemma instantiate_eq_nil {z : α} (hp : rest ∉ p) (h : instantiate z p = []) : p = [] := by
  rcases p with _ | ⟨_ | _ | _, p⟩
  · rfl
  · cases h
  · cases h
  · exact (hp (mem_cons_self ..)).elim

lemma mem_instantiate {z x : α} (hx : x ∈ instantiate z p) : x = z ∨ lit x ∈ p := by
  induction p with
  | nil => simp [instantiate] at hx
  | cons g p ih =>
    cases g with
    | rest => simp [instantiate] at hx
    | one =>
      rcases mem_cons.mp hx with rfl | hx
      · exact .inl rfl
      · exact (ih hx).imp_right (mem_cons_of_mem _)
    | lit a =>
      rcases mem_cons.mp hx with rfl | hx
      · exact .inr (mem_cons_self ..)
      · exact (ih hx).imp_right (mem_cons_of_mem _)

/-- A pattern that does not name `z` and accepts the word of `q` filled with `z` subsumes `q`,
which must be free of the multi-level wildcard. -/
lemma subsumes_of_accepts_instantiate {z : α} (hz : lit z ∉ p) (hq : rest ∉ q)
    (h : Accepts p (instantiate z q)) : Subsumes p q := by
  induction q generalizing p with
  | nil =>
    rcases p with _ | ⟨_ | _ | _, p⟩
    · trivial
    · exact h.elim
    · exact h.elim
    · trivial
  | cons g q ih =>
    have hq' : rest ∉ q := fun hmem => hq (mem_cons_of_mem _ hmem)
    rcases p with _ | ⟨a | _ | _, p⟩
    · cases g with
      | rest => exact absurd (mem_cons_self ..) hq
      | one => exact h.elim
      | lit b => exact h.elim
    · have hz' : lit z ∉ p := fun hmem => hz (mem_cons_of_mem _ hmem)
      cases g with
      | rest => exact absurd (mem_cons_self ..) hq
      | one =>
        -- the word has the letter `z` here, and the pattern would have to name it
        exact absurd (h.1 ▸ mem_cons_self ..) hz
      | lit b => exact ⟨h.1, ih hz' hq' h.2⟩
    · have hz' : lit z ∉ p := fun hmem => hz (mem_cons_of_mem _ hmem)
      cases g with
      | rest => exact absurd (mem_cons_self ..) hq
      | one => exact ih hz' hq' h
      | lit b => exact ih hz' hq' h
    · trivial

/-- Filling the multi-level wildcard with no level and with one level is enough to see that a
pattern is subsumed. -/
lemma subsumes_of_expand (h0 : Subsumes p (expand 0 q)) (h1 : Subsumes p (expand 1 q)) :
    Subsumes p q := by
  induction p generalizing q with
  | nil =>
    rcases q with _ | ⟨_ | _ | _, q⟩
    · trivial
    · exact h0.elim
    · exact h0.elim
    · exact h1.elim
  | cons g p ih =>
    cases g with
    | rest => trivial
    | one =>
      rcases q with _ | ⟨_ | _ | _, q⟩
      · exact h0
      · exact ih h0 h1
      · exact ih h0 h1
      · exact h0.elim
    | lit a =>
      rcases q with _ | ⟨b | _ | _, q⟩
      · exact h0.elim
      · exact ⟨h0.1, ih h0.2 h1.2⟩
      · exact h0.elim
      · exact h0.elim

end Glob

end Lib
