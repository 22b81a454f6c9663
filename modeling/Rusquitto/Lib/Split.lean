import Mathlib.Data.List.Basic

/-!
# Splitting a string on a separator

`splitOnChar sep s` is the list of the maximal `sep`-free pieces of `s`, empty pieces included,
and `joinWith sep` puts pieces back together. The two are inverse as long as no piece contains
the separator (`joinWith_splitOnChar`, `splitOnChar_joinWith`).
-/

namespace Lib

open List

/-- The pieces of `s` between occurrences of `sep`. A string without `sep` is its own only
piece, so the result is never empty. -/
def splitOnChar (sep : Char) (s : String) : List String :=
  (s.toList.splitOn sep).map String.ofList

/-- The concatenation of `pieces` with `sep` between neighbours. -/
def joinWith (sep : Char) (pieces : List String) : String :=
  String.ofList ([sep].intercalate (pieces.map String.toList))

variable {sep : Char}

lemma splitOnChar_ne_nil (sep : Char) (s : String) : splitOnChar sep s ≠ [] := by
  simp [splitOnChar]

/-- Splitting and joining again returns the string. -/
@[simp]
lemma joinWith_splitOnChar (sep : Char) (s : String) : joinWith sep (splitOnChar sep s) = s := by
  have hmap : (splitOnChar sep s).map String.toList = s.toList.splitOn sep := by
    simp [splitOnChar, Function.comp_def]
  rw [joinWith, hmap, intercalate_splitOn, String.ofList_toList]

/-- Joining separator-free pieces and splitting again returns the pieces. -/
lemma splitOnChar_joinWith {pieces : List String} (hsep : ∀ p ∈ pieces, sep ∉ p.toList)
    (hne : pieces ≠ []) : splitOnChar sep (joinWith sep pieces) = pieces := by
  have hsplit : ([sep].intercalate (pieces.map String.toList)).splitOn sep =
      pieces.map String.toList := by
    apply splitOn_intercalate
    · intro l hl
      obtain ⟨p, hp, rfl⟩ := mem_map.mp hl
      exact hsep p hp
    · simpa using hne
  rw [splitOnChar, joinWith, String.toList_ofList, hsplit]
  simp [Function.comp_def]

private lemma mem_of_mem_splitOn {l : List Char} :
    ∀ {xs : List Char}, l ∈ xs.splitOn sep → ∀ c ∈ l, c ∈ xs ∧ c ≠ sep := by
  intro xs
  induction xs generalizing l with
  | nil =>
    intro hl c hc
    simp only [splitOn_nil, mem_singleton] at hl
    simp [hl] at hc
  | cons x xs ih =>
    intro hl c hc
    rw [splitOn_cons_eq_if_modifyHead] at hl
    by_cases hx : x = sep
    · rw [if_pos (by simpa using hx)] at hl
      rcases mem_cons.mp hl with rfl | hl
      · simp at hc
      · exact ⟨mem_cons_of_mem _ (ih hl c hc).1, (ih hl c hc).2⟩
    · rw [if_neg (by simpa using hx)] at hl
      -- The head piece of the tail grows by `x`; the other pieces are those of the tail.
      cases hsplit : xs.splitOn sep with
      | nil => simp [hsplit] at hl
      | cons head rest =>
        rw [hsplit, modifyHead_cons] at hl
        rcases mem_cons.mp hl with rfl | hl
        · rcases mem_cons.mp hc with rfl | hc
          · exact ⟨mem_cons_self, hx⟩
          · have hhead := ih (l := head) (by simp [hsplit]) c hc
            exact ⟨mem_cons_of_mem _ hhead.1, hhead.2⟩
        · have hrest := ih (l := l) (by simp [hsplit, hl]) c hc
          exact ⟨mem_cons_of_mem _ hrest.1, hrest.2⟩

/-- Every character of a piece occurs in the string. -/
lemma mem_toList_of_mem_splitOnChar {s p : String} (hp : p ∈ splitOnChar sep s) {c : Char}
    (hc : c ∈ p.toList) : c ∈ s.toList := by
  obtain ⟨l, hl, rfl⟩ := mem_map.mp hp
  rw [String.toList_ofList] at hc
  exact (mem_of_mem_splitOn hl c hc).1

/-- No piece contains the separator. -/
lemma sep_notMem_of_mem_splitOnChar {s p : String} (hp : p ∈ splitOnChar sep s) :
    sep ∉ p.toList := by
  intro hc
  obtain ⟨l, hl, rfl⟩ := mem_map.mp hp
  rw [String.toList_ofList] at hc
  exact (mem_of_mem_splitOn hl sep hc).2 rfl

private lemma eq_or_mem_of_mem_intersperse {α : Type*} {a x : α} :
    ∀ {l : List α}, x ∈ l.intersperse a → x = a ∨ x ∈ l
  | [], h => .inr h
  | [_], h => .inr h
  | b :: c :: l, h => by
    rw [intersperse_cons_cons, mem_cons, mem_cons] at h
    rcases h with rfl | rfl | h
    · exact .inr mem_cons_self
    · exact .inl rfl
    · exact (eq_or_mem_of_mem_intersperse h).imp_right (mem_cons_of_mem _)

/-- A character of a joined string is the separator or comes from a piece. -/
lemma mem_toList_joinWith {pieces : List String} {c : Char}
    (h : c ∈ (joinWith sep pieces).toList) : c = sep ∨ ∃ p ∈ pieces, c ∈ p.toList := by
  rw [joinWith, String.toList_ofList, intercalate, mem_flatten] at h
  obtain ⟨l, hl, hc⟩ := h
  rcases eq_or_mem_of_mem_intersperse hl with rfl | hl
  · exact .inl (mem_singleton.mp hc)
  · obtain ⟨p, hp, rfl⟩ := mem_map.mp hl
    exact .inr ⟨p, hp, hc⟩

/-- A string starts with a character other than the separator exactly when its first piece
does. -/
lemma head?_eq_some_iff_of_splitOnChar {s p : String} {ps : List String} {c : Char}
    (hc : c ≠ sep) (h : splitOnChar sep s = p :: ps) :
    s.toList.head? = some c ↔ p.toList.head? = some c := by
  have hjoin := joinWith_splitOnChar sep s
  rw [h] at hjoin
  rw [← hjoin, joinWith, String.toList_ofList]
  cases ps with
  | nil => simp [intercalate]
  | cons q qs =>
    cases hp : p.toList with
    | nil => simp [intercalate, hp, Ne.symm hc]
    | cons d ds => simp [intercalate, hp]

/-- A string has at most as many characters as bytes. -/
lemma length_toList_le_utf8ByteSize (s : String) : s.toList.length ≤ s.utf8ByteSize := by
  have hofList : ∀ cs : List Char, cs.length ≤ (String.ofList cs).utf8ByteSize := by
    intro cs
    induction cs with
    | nil => simp
    | cons c cs ih =>
      have hpos := Char.utf8Size_pos c
      rw [String.ofList_cons, String.utf8ByteSize_append, String.utf8ByteSize_singleton,
        length_cons]
      omega
  simpa using hofList s.toList

end Lib
