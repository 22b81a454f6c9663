import Mathlib.Logic.Basic

/-!
# Runs of a machine

`Reached` are the states a machine can get to when every operation meets a condition in the state it
is performed in. A concrete run is a list of operations (`run`), which meet the condition one by one
(`AllMeet`). A machine whose operations answer refines an abstract one if each step, seen through an
abstraction of the state, is allowed there with the same answer (`allows_trace`).
-/

namespace Lib

variable {σ ω : Type*} (apply : σ → ω → σ) (P : σ → ω → Prop)

/-- The states reached from `s₀` by operations that meet `P`. -/
inductive Reached (s₀ : σ) : σ → Prop
  | start : Reached s₀ s₀
  | step {s : σ} (op : ω) : Reached s₀ s → P s op → Reached s₀ (apply s op)

/-- Performs the operations in order. -/
def run (s : σ) (ops : List ω) : σ :=
  ops.foldl apply s

/-- Every operation meets `P` in the state it is performed in. -/
def AllMeet : σ → List ω → Prop
  | _, [] => True
  | s, op :: ops => P s op ∧ AllMeet (apply s op) ops

variable {apply P}

lemma Reached.run {s₀ s : σ} (hs : Reached apply P s₀ s) {ops : List ω}
    (hops : AllMeet apply P s ops) : Reached apply P s₀ (run apply s ops) := by
  induction ops generalizing s with
  | nil => exact hs
  | cons op ops ih => exact ih (hs.step op hops.1) hops.2

/-- Without a condition every run reaches its end. -/
lemma reached_run (s₀ : σ) (ops : List ω) :
    Reached apply (fun _ _ => True) s₀ (run apply s₀ ops) := by
  have hmeet (s : σ) : AllMeet apply (fun _ _ => True) s ops := by
    induction ops generalizing s with
    | nil => trivial
    | cons op ops ih => exact ⟨trivial, ih _⟩
  exact Reached.start.run (hmeet s₀)

/-- What holds at the start and is kept by every step holds in every state reached. -/
lemma Reached.inv (Inv : σ → Prop) {s₀ s : σ} (h₀ : Inv s₀)
    (hstep : ∀ s op, Inv s → P s op → Inv (apply s op)) (hs : Reached apply P s₀ s) : Inv s := by
  induction hs with
  | start => exact h₀
  | step op _ hP ih => exact hstep _ op ih hP

/-- What relates the two ends of every step relates the two ends of a run. -/
lemma foldl_rel {R : σ → σ → Prop} (hrefl : ∀ s, R s s)
    (htrans : ∀ {s s' s''}, R s s' → R s' s'' → R s s'') (hstep : ∀ s op, R s (apply s op))
    (ops : List ω) (s : σ) : R s (ops.foldl apply s) := by
  induction ops generalizing s with
  | nil => exact hrefl s
  | cons op ops ih => exact htrans (hstep s op) (ih _)

/-! ## Machines that answer -/

section Answers

variable {α ρ : Type*} (exec : σ → ω → σ × ρ) (Spec : α → ω → ρ → α → Prop)

/-- Performs the operations in order and notes what each was answered. -/
def trace (s : σ) : List ω → σ × List (ω × ρ)
  | [] => (s, [])
  | op :: ops =>
    let result := exec s op
    let rest := trace result.1 ops
    (rest.1, (op, result.2) :: rest.2)

/-- The abstract machine can go from one state to another while its operations are answered as
noted. -/
inductive Allows : α → List (ω × ρ) → α → Prop
  | nil (a : α) : Allows a [] a
  | cons {a a' a'' : α} {op : ω} {answer : ρ} {rest : List (ω × ρ)} :
    Spec a op answer a' → Allows a' rest a'' → Allows a ((op, answer) :: rest) a''

variable {exec Spec}

/-- If every step is allowed through an abstraction, so is every run with all its answers. -/
lemma allows_trace (abs : σ → α)
    (hstep : ∀ s op, Spec (abs s) op (exec s op).2 (abs (exec s op).1)) (s : σ) (ops : List ω) :
    Allows Spec (abs s) (trace exec s ops).2 (abs (trace exec s ops).1) := by
  induction ops generalizing s with
  | nil => exact .nil _
  | cons op ops ih => exact .cons (hstep s op) (ih _)

end Answers

end Lib
