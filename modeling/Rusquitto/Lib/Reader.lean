import Mathlib.Algebra.Order.Ring.Nat
import Mathlib.Data.List.Forall2

/-!
# Readers over byte lists

`Decodes p bytes a` says that `p` reads exactly `bytes`, whatever follows, and returns `a`; `Local
p` that a success does not depend on what follows the bytes consumed; `Pays p weight` bounds what is
returned by what was consumed; `Tally.Counts c p` that `c` reads like `p` and counts no more than
the bytes consumed, also in a read that fails. All are closed under the operations that readers are
built from.
-/

namespace Lib

open List

/-- A computation that reads from the front of a byte list and may fail with an error in `ε`. -/
abbrev Reader (ε α : Type) := StateT (List UInt8) (Except ε) α

variable {ε α β : Type}

namespace Reader

variable {p : Reader ε α} {f : α → Reader ε β} {a : α} {b : β}
  {bytes bytes' : List UInt8}

/-- The next `n` bytes, or the error `eof` when fewer are left. -/
def take (eof : ε) (n : ℕ) : Reader ε (List UInt8) := fun input =>
  if n ≤ input.length then .ok (input.take n, input.drop n) else .error eof

/-- Fail without reading. -/
def fail (error : ε) : Reader ε α := fun _ => .error error

/-- `n` reads of `p`, one after the other. -/
def readN (p : Reader ε α) : ℕ → Reader ε (List α)
  | 0 => pure []
  | n + 1 => do
    let a ← p
    let as ← readN p n
    pure (a :: as)

lemma run_bind_eq_ok_iff {input rest : List UInt8} : (p >>= f).run input = .ok (b, rest) ↔
      ∃ a mid, p.run input = .ok (a, mid) ∧ (f a).run mid = .ok (b, rest) := by
  rw [StateT.run_bind]
  cases h : p.run input with
  | error e =>
    simp only [bind, Except.bind, reduceCtorEq, false_and, exists_false]
  | ok r =>
    obtain ⟨a, mid⟩ := r
    simp [bind, Except.bind]

/-! ## Reading an encoding -/

/-- `p` reads exactly `bytes`, whatever follows, and returns `a`. -/
def Decodes (p : Reader ε α) (bytes : List UInt8) (a : α) : Prop :=
  ∀ rest, p.run (bytes ++ rest) = .ok (a, rest)

lemma Decodes.pure (a : α) : Decodes (pure a : Reader ε α) [] a := fun _ => rfl

lemma Decodes.pure_of_eq {a' : α} (h : a = a') : Decodes (Pure.pure a : Reader ε α) [] a' :=
  h ▸ Decodes.pure a

lemma Decodes.bind (hp : Decodes p bytes a) (hf : Decodes (f a) bytes' b) :
    Decodes (p >>= f) (bytes ++ bytes') b := by
  intro rest
  rw [append_assoc]
  exact run_bind_eq_ok_iff.mpr ⟨a, _, hp _, hf rest⟩

/-- The last read before a pure result. -/
lemma Decodes.bind_pure (hp : Decodes p bytes a) (hf : Decodes (f a) [] b) :
    Decodes (p >>= f) bytes b :=
  append_nil bytes ▸ hp.bind hf

lemma Decodes.take (eof : ε) (bytes : List UInt8) :
    Decodes (take eof bytes.length) bytes bytes := by
  intro rest
  simp [Reader.take, StateT.run]

/-- Reading a sequence of encodings one by one. -/
lemma Decodes.readN {as : List β} {chunks : List (List UInt8)} {stored : β → α}
    (h : Forall₂ (fun a chunk => Decodes p chunk (stored a)) as chunks) :
    Decodes (readN p as.length) chunks.flatten (as.map stored) := by
  induction h with
  | nil => exact Decodes.pure []
  | cons hhead _ ih =>
    rw [flatten_cons]
    exact hhead.bind (ih.bind_pure (Decodes.pure _))

/-- The chunks that a fallible encoder makes of a list. -/
lemma forall₂_of_mapM {encode : α → Except ε β} {as : List α} {bs : List β}
    (h : as.mapM encode = .ok bs) : Forall₂ (fun a b => a ∈ as ∧ encode a = .ok b) as bs := by
  induction as generalizing bs with
  | nil =>
    cases h
    exact .nil
  | cons a as ih =>
    rw [mapM_cons] at h
    cases ha : encode a with
    | error e => rw [ha] at h; cases h
    | ok b =>
      rw [ha] at h
      cases has : as.mapM encode with
      | error e => rw [has] at h; cases h
      | ok bs' =>
        rw [has] at h
        cases h
        exact .cons ⟨mem_cons_self, ha⟩
          ((ih has).imp fun _ _ h => ⟨mem_cons_of_mem _ h.1, h.2⟩)

/-! ## Independence of what follows -/

/-- A success of `p` depends only on the bytes it consumed. -/
def Local (p : Reader ε α) : Prop :=
  ∀ input a rest, p.run input = .ok (a, rest) → ∃ used, input = used ++ rest ∧ Decodes p used a

lemma Local.pure (a : α) : Local (pure a : Reader ε α) := by
  intro input a' rest h
  cases h
  exact ⟨[], rfl, Decodes.pure a⟩

lemma Local.fail (error : ε) : Local (fail error : Reader ε α) := by
  intro input a rest h
  cases h

lemma Local.bind (hp : Local p) (hf : ∀ a, Local (f a)) : Local (p >>= f) := by
  intro input b rest h
  obtain ⟨a, mid, ha, hb⟩ := run_bind_eq_ok_iff.mp h
  obtain ⟨used, rfl, hused⟩ := hp _ _ _ ha
  obtain ⟨used', rfl, hused'⟩ := hf a _ _ _ hb
  exact ⟨used ++ used', (append_assoc ..).symm, hused.bind hused'⟩

lemma Local.ite {c : Prop} [Decidable c] {q : Reader ε α} (hp : Local p) (hq : Local q) :
    Local (if c then p else q) := by
  split_ifs
  · exact hp
  · exact hq

lemma Local.take (eof : ε) (n : ℕ) : Local (take eof n) := by
  intro input a rest h
  simp only [Reader.take, StateT.run] at h
  split_ifs at h with hlen
  cases h
  have hdecodes := Decodes.take eof (input.take n)
  rw [length_take_of_le hlen] at hdecodes
  exact ⟨input.take n, (take_append_drop n input).symm, hdecodes⟩

lemma Local.readN (hp : Local p) (n : ℕ) : Local (readN p n) := by
  induction n with
  | zero => exact Local.pure []
  | succ n ih => exact hp.bind fun a => ih.bind fun as => Local.pure _

/-- A local reader of a self-delimiting encoding never stops inside a strict prefix of it: put
before other bytes, it eats into them. -/
lemma Local.exists_used (hp : Local p) {front back : List UInt8}
    (hd : Decodes p (front ++ back) a) (hback : back ≠ []) {more rest : List UInt8} {a' : α}
    (hrun : p.run (front ++ more) = .ok (a', rest)) : ∃ used, used ≠ [] ∧ more = used ++ rest := by
  obtain ⟨used, hused, hdecodes⟩ := hp _ _ _ hrun
  rcases append_eq_append_iff.mp hused with ⟨x, rfl, hmore⟩ | ⟨x, rfl, hrest⟩
  · refine ⟨x, ?_, hmore⟩
    rintro rfl
    -- `front` alone would be a complete encoding
    have hfull := hd []
    rw [append_nil] at hdecodes hfull
    rw [hdecodes back, Except.ok.injEq, Prod.mk.injEq] at hfull
    exact hback hfull.2
  · have hfull := hd []
    rw [append_nil, append_assoc, hdecodes (x ++ back), Except.ok.injEq,
      Prod.mk.injEq] at hfull
    exact absurd (append_eq_nil_iff.mp hfull.2).2 hback

/-- A local reader refuses every strict prefix of a self-delimiting encoding. -/
lemma Local.exists_error (hp : Local p) {front back : List UInt8} (hd : Decodes p (front ++ back) a)
    (hback : back ≠ []) : ∃ e, p.run front = .error e := by
  cases hrun : p.run front with
  | error e => exact ⟨e, rfl⟩
  | ok r =>
    rw [← append_nil front] at hrun
    obtain ⟨used, hused, hnil⟩ := hp.exists_used hd hback hrun
    exact absurd (append_eq_nil_iff.mp hnil.symm).1 hused

/-! ## Results no larger than their input -/

/-- What `p` returns weighs no more than the bytes it consumed. -/
def Pays (p : Reader ε α) (weight : α → ℕ) : Prop :=
  ∀ input a rest, p.run input = .ok (a, rest) → weight a + rest.length ≤ input.length

variable {w : α → ℕ} {v : β → ℕ}

lemma Local.pays (hp : Local p) : Pays p fun _ => 0 := by
  intro input a rest h
  obtain ⟨used, rfl, -⟩ := hp _ _ _ h
  simp

lemma Pays.pure (h : w a = 0) : Pays (pure a : Reader ε α) w := by
  intro input a' rest hrun
  cases hrun
  rw [h, Nat.zero_add]

/-- What the first reader has paid for, the second need not pay again. -/
lemma Pays.bind (hp : Pays p w) (hf : ∀ a, Pays (f a) fun b => v b - w a) : Pays (p >>= f) v := by
  intro input b rest h
  obtain ⟨a, mid, ha, hb⟩ := run_bind_eq_ok_iff.mp h
  have hfirst := hp _ _ _ ha
  have hsecond : v b - w a + rest.length ≤ mid.length := hf a _ _ _ hb
  omega

lemma Pays.take (eof : ε) (n : ℕ) : Pays (take eof n) fun _ => n := by
  intro input a rest h
  simp only [Reader.take, StateT.run] at h
  split_ifs at h with hlen
  cases h
  show n + (input.drop n).length ≤ input.length
  rw [length_drop]
  omega

end Reader

/-! ## Counting what was read -/

/-- A reader that counts as it goes. What it has counted is known even when it fails. -/
abbrev Tally (ε α : Type) := ExceptT ε (StateM (List UInt8 × ℕ)) α

namespace Reader

/-- A read that counts for `n`. -/
def tally (p : Reader ε α) (n : ℕ) : Tally ε α :=
  .mk fun (input, count) =>
    match p.run input with
    | .ok (a, rest) => (.ok a, rest, count + n)
    | .error e => (.error e, input, count)

end Reader

namespace Tally

open Reader (Local Pays)

variable {p : Reader ε α} {c : Tally ε α}

/-- `n` counted reads, one after the other. -/
def times (c : Tally ε α) : ℕ → Tally ε (List α)
  | 0 => pure []
  | n + 1 => do
    let a ← c
    let as ← times c n
    pure (a :: as)

/-- `c` reads what `p` reads, and counts no more than the bytes it has consumed, also when it fails.
-/
def Counts (c : Tally ε α) (p : Reader ε α) : Prop :=
  ∀ input count, ∃ r used rest count', c.run (input, count) = (r, rest, count') ∧
    input = used ++ rest ∧ count' ≤ count + used.length ∧ p.run input = r.map (·, rest)

lemma Counts.pure (a : α) : Counts (pure a) (pure a : Reader ε α) :=
  fun input count => ⟨.ok a, [], input, count, rfl, rfl, le_rfl, rfl⟩

lemma Counts.tally (hl : Local p) {n : ℕ} (hp : Pays p fun _ => n) : Counts (p.tally n) p := by
  intro input count
  cases hrun : p.run input with
  | error e =>
    refine ⟨.error e, [], input, count, ?_, rfl, le_rfl, rfl⟩
    simp [Reader.tally, hrun]
  | ok r =>
    obtain ⟨a, rest⟩ := r
    obtain ⟨used, rfl, -⟩ := hl _ _ _ hrun
    have hpaid : n + rest.length ≤ (used ++ rest).length := hp _ _ _ hrun
    rw [length_append] at hpaid
    refine ⟨.ok a, used, rest, count + n, ?_, rfl, by omega, rfl⟩
    simp [Reader.tally, hrun]

lemma Counts.free (hl : Local p) : Counts (p.tally 0) p := .tally hl hl.pays

lemma run_bind (c : Tally ε α) (g : α → Tally ε β) (s : List UInt8 × ℕ) :
    (c >>= g).run s = (ExceptT.bindCont g (c.run s).1).run (c.run s).2 :=
  rfl

lemma Counts.bind (hc : Counts c p) {f : α → Reader ε β} {g : α → Tally ε β}
    (hg : ∀ a, Counts (g a) (f a)) : Counts (c >>= g) (p >>= f) := by
  intro input count
  obtain ⟨r, used, mid, count₁, hrun, rfl, hle, hp⟩ := hc input count
  cases r with
  | error e =>
    refine ⟨.error e, used, mid, count₁, ?_, rfl, hle, ?_⟩
    · rw [run_bind, hrun]
      rfl
    · rw [StateT.run_bind, hp]
      rfl
  | ok a =>
    obtain ⟨r, used', rest, count₂, hrun', rfl, hle', hp'⟩ := hg a mid count₁
    refine ⟨r, used ++ used', rest, count₂, ?_, (append_assoc ..).symm, ?_, ?_⟩
    · rw [run_bind, hrun]
      exact hrun'
    · rw [length_append]
      omega
    · rw [StateT.run_bind, hp]
      exact hp'

lemma Counts.times (hc : Counts c p) (n : ℕ) : Counts (c.times n) (Reader.readN p n) := by
  induction n with
  | zero => exact .pure []
  | succ n ih => exact hc.bind fun _ => ih.bind fun _ => .pure _

end Tally

/-! ## Little-endian integers -/

/-- The `n` low bytes of `v`, lowest first. -/
def leBytes : ℕ → ℕ → List UInt8
  | 0, _ => []
  | n + 1, v => UInt8.ofNat v :: leBytes n (v / 256)

/-- The value of bytes, lowest first. -/
def leValue : List UInt8 → ℕ
  | [] => 0
  | b :: bs => b.toNat + 256 * leValue bs

@[simp]
lemma length_leBytes (n v : ℕ) : (leBytes n v).length = n := by
  induction n generalizing v with
  | zero => rfl
  | succ n ih => rw [leBytes, length_cons, ih]

lemma leValue_leBytes (n v : ℕ) : leValue (leBytes n v) = v % 256 ^ n := by
  induction n generalizing v with
  | zero => rw [leBytes, leValue, pow_zero, Nat.mod_one]
  | succ n ih =>
    rw [leBytes, leValue, ih, UInt8.toNat_ofNat', pow_succ' 256, Nat.mod_mul]

end Lib
