import Mathlib.Data.List.Nodup
import Mathlib.Algebra.Order.Group.Multiset
import Mathlib.Logic.Function.Basic
import Mathlib.Tactic.Common

/-!
# Handing a message over exactly once

A sender hands messages to a receiver over connections that lose things. It sends a message in a
slot until that is acknowledged, then asks for the slot's release until that is acknowledged too. At
most one thing about a slot is under way at a time. The receiver passes a message on when it takes
it or when it releases the slot: at most once, and exactly once when the sender has heard the last
acknowledgement (`Wire.Inv`). It may also refuse a message, which the sender then gives up.
-/

namespace Lib

open Function Multiset List Option

/-- What is under way about a slot, in either direction. -/
inductive Flight (ι : Type*) where
  | publish (i : ι)
  | received
  | refused
  | release
  | complete

/-- What holds of a slot, given what was taken and released: the message the sender has in it and
whether that was received, the message the receiver holds in it, and what is under way about it. -/
inductive Sound {ι : Type*} (taken committed : List ι) :
    Option (ι × Bool) → Option ι → Option (Flight ι) → Prop where
  | free {receiver : Option ι} : Sound taken committed none receiver none
  | pending {i : ι} {receiver : Option ι} {f : Option (Flight ι)} (fresh : i ∉ committed)
      (known : i ∈ taken ↔ receiver = some i)
      (flight : f = none ∨ f = some (.publish i) ∨ f = some .received ∧ receiver = some i ∨
        f = some .refused) : Sound taken committed (some (i, false)) receiver f
  | released {i : ι} {receiver : Option ι} {f : Option (Flight ι)} (known : i ∈ taken)
      (held : receiver = some i ∧ i ∉ committed ∨ receiver = none ∧ i ∈ committed)
      (flight : f = none ∨ f = some .release ∨ f = some .complete ∧ receiver = none) :
      Sound taken committed (some (i, true)) receiver f

namespace Sound

variable {ι : Type*} {taken taken' committed committed' : List ι} {sender : Option (ι × Bool)}
  {receiver : Option ι} {f : Option (Flight ι)} {i : ι}

/-- Messages that the slot does not know do not matter to it. -/
lemma congr (h : Sound taken committed sender receiver f)
    (htaken : ∀ i b, sender = some (i, b) → (i ∈ taken' ↔ i ∈ taken))
    (hcommitted : ∀ i b, sender = some (i, b) → (i ∈ committed' ↔ i ∈ committed)) :
    Sound taken' committed' sender receiver f := by
  cases h with
  | free => exact .free
  | pending fresh known flight =>
    rw [← htaken _ _ rfl] at known
    rw [← hcommitted _ _ rfl] at fresh
    exact .pending fresh known flight
  | released known held flight =>
    rw [← htaken _ _ rfl] at known
    rw [← hcommitted _ _ rfl] at held
    exact .released known held flight

/-- Losing what is under way. -/
lemma lose (h : Sound taken committed sender receiver f) :
    Sound taken committed sender receiver none := by
  cases h with
  | free => exact .free
  | pending fresh known _ => exact .pending fresh known (.inl rfl)
  | released known held _ => exact .released known held (.inl rfl)

lemma flight_of_free (h : Sound taken committed none receiver f) : f = none := by
  cases h
  rfl

/-- The message under way in a slot is the one the sender has there. -/
lemma of_publish (h : Sound taken committed sender receiver (some (.publish i))) :
    sender = some (i, false) ∧ i ∉ committed ∧ (i ∈ taken ↔ receiver = some i) := by
  cases h with
  | pending fresh known flight =>
    simp only [reduceCtorEq, some.injEq, Flight.publish.injEq, false_and, or_false,
      false_or] at flight
    subst flight
    exact ⟨rfl, fresh, known⟩
  | released _ _ flight => simp at flight

/-- What the receiver has acknowledged it holds. -/
lemma of_received (h : Sound taken committed sender receiver (some .received)) :
    ∃ i, sender = some (i, false) ∧ receiver = some i ∧ i ∈ taken ∧ i ∉ committed := by
  cases h with
  | @pending i _ _ fresh known flight =>
    have hreceiver : receiver = some i := by simpa using flight
    exact ⟨i, rfl, hreceiver, known.mpr hreceiver, fresh⟩
  | released _ _ flight => simp at flight

/-- A release under way is for a message that was received. -/
lemma of_release (h : Sound taken committed sender receiver (some .release)) :
    ∃ i, sender = some (i, true) ∧ i ∈ taken ∧
      (receiver = some i ∧ i ∉ committed ∨ receiver = none ∧ i ∈ committed) := by
  cases h with
  | pending _ _ flight => simp at flight
  | released known held _ => exact ⟨_, rfl, known, held⟩

/-- A slot that the receiver has released holds nothing, and its message was released. -/
lemma of_complete (h : Sound taken committed sender receiver (some .complete)) :
    ∃ i, sender = some (i, true) ∧ receiver = none ∧ i ∈ committed := by
  cases h with
  | pending _ _ flight => simp at flight
  | released _ held flight =>
    have hreceiver : receiver = none := by simpa using flight
    exact ⟨_, rfl, hreceiver, by simpa [hreceiver] using held⟩

end Sound

variable {ι : Type*}

/-- A sender, a receiver and a bag of packets under way between them, each about one slot or about
none. -/
structure Wire (κ ι α : Type*) where
  /-- The message the sender has in a slot, and whether it was received. -/
  sender : κ → Option (ι × Bool)
  /-- The message the receiver holds in a slot. -/
  receiver : κ → Option ι
  packets : Multiset α
  /-- Messages that got a slot. -/
  started : List ι
  /-- Messages the receiver took, and did not hold before. -/
  taken : List ι
  /-- Messages whose slot the receiver released. -/
  committed : List ι
  /-- Messages the sender is done with. -/
  completed : List ι
  /-- Whether the receiver has refused a message. -/
  refusing : Bool

namespace Wire

section Bag

variable {β γ : Type*}

/-- The packets of two directions. -/
def bag (up : List β) (down : List γ) : Multiset (β ⊕ γ) :=
  Multiset.ofList (up.map Sum.inl ++ down.map Sum.inr)

variable (x : β) (y : γ) (up : List β) (down down' : List γ)

lemma bag_cons_left : bag (x :: up) down = .inl x ::ₘ bag up down := rfl

lemma bag_append_right : bag up (down ++ down') = bag [] down' + bag up down := by
  simp only [bag, map_append, ← coe_add, map_nil, nil_append]
  rw [← add_assoc, add_comm]

lemma bag_append_left (up' : List β) : bag (up ++ up') down = bag up' [] + bag up down := by
  simp only [bag, map_append, ← coe_add, map_nil, append_nil]
  rw [add_right_comm, add_comm]

/-- One direction is lost. -/
lemma bag_nil_left_le : bag [] down ≤ bag up down := by
  rw [← nil_append up, bag_append_left]
  exact le_add_left _ _

lemma bag_snoc_left : bag (up ++ [x]) down = .inl x ::ₘ bag up down := by
  rw [bag_append_left]
  rfl

lemma bag_cons_right : bag up (y :: down) = .inr y ::ₘ bag up down := by
  simp only [bag, List.map_cons, ← coe_add, ← cons_coe, add_cons]

lemma bag_snoc_right : bag up (down ++ [y]) = .inr y ::ₘ bag up down := by
  rw [bag_append_right, bag_cons_right]
  rfl

end Bag

variable {κ α : Type*}

/-- The sender has the message in the slot, or the receiver holds it there. -/
def Knows (w : Wire κ ι α) (k : κ) (i : ι) : Prop :=
  (∃ b, w.sender k = some (i, b)) ∨ w.receiver k = some i

/-- What holds at every point, given what is under way about each slot. -/
structure Inv (w : Wire κ ι α) (flight : κ → Option (Flight ι)) : Prop where
  sound : ∀ k, Sound w.taken w.committed (w.sender k) (w.receiver k) (flight k)
  /-- What the receiver holds it has taken and not released. -/
  held : ∀ k i, w.receiver k = some i → i ∈ w.taken ∧ i ∉ w.committed
  /-- A message has one slot. -/
  apart : ∀ k k' i, w.Knows k i → w.Knows k' i → k = k'
  known : ∀ k i, w.Knows k i → i ∈ w.started
  takenStarted : ∀ i ∈ w.taken, i ∈ w.started
  committedTaken : ∀ i ∈ w.committed, i ∈ w.taken
  completedCommitted : ∀ i ∈ w.completed, i ∈ w.committed
  takenNodup : w.taken.Nodup
  committedNodup : w.committed.Nodup
  /-- Without refusals, the receiver holds only messages the sender still has, in the same slot. -/
  clean : w.refusing = false → ∀ k, flight k ≠ some .refused ∧
    ∀ i, w.receiver k = some i → ∃ b, w.sender k = some (i, b)

variable (about : κ → α → Option (Flight ι))

/-- A packet about one slot. -/
def Concerns (x : α) (k : κ) (f : Flight ι) : Prop :=
  about k x = some f ∧ ∀ k' ≠ k, about k' x = none

/-- What is under way about each slot are the packets about it. -/
def Carries (w : Wire κ ι α) (flight : κ → Option (Flight ι)) : Prop :=
  ∀ k, w.packets.filterMap (about k) = ((flight k).toList : Multiset (Flight ι))

/-- The two are at some point of handing messages over. -/
def Valid (w : Wire κ ι α) : Prop :=
  ∃ flight, w.Carries about flight ∧ w.Inv flight

variable {about} {w w' : Wire κ ι α} {flight : κ → Option (Flight ι)} {k : κ} {i : ι} {b : Bool}
  {x y : α} {f : Flight ι} {rest : Multiset α}

lemma concerns_of_ite [DecidableEq κ] (hx : ∀ k', about k' x = if k = k' then some f else none) :
    Concerns about x k f :=
  ⟨(hx k).trans (if_pos rfl), fun k' hk => (hx k').trans (if_neg fun heq => hk heq.symm)⟩

lemma Concerns.filterMap_of_ne (hx : Concerns about x k f) {k' : κ} (hk : k' ≠ k)
    (rest : Multiset α) :
    (x ::ₘ rest).filterMap (about k') = rest.filterMap (about k') :=
  filterMap_cons_none _ _ (hx.2 k' hk)

lemma Concerns.filterMap_self (hx : Concerns about x k f) (hrest : rest.filterMap (about k) = 0) :
    (x ::ₘ rest).filterMap (about k) = ((some f).toList : Multiset (Flight ι)) := by
  rw [filterMap_cons_some _ _ _ hx.1, hrest]
  rfl

/-- The packet about a slot is what is under way about it, and there is no other. -/
lemma Carries.flight_eq (hw : w.Carries about flight) (hrest : w.packets = x ::ₘ rest)
    (hx : Concerns about x k f) : flight k = some f ∧ rest.filterMap (about k) = 0 := by
  have hk := hw k
  rw [hrest, filterMap_cons_some _ _ _ hx.1] at hk
  cases hflight : flight k with
  | none => simp [hflight] at hk
  | some g =>
    rw [hflight, toList_some, coe_singleton, eq_comm,
      singleton_eq_cons_iff] at hk
    exact ⟨congrArg some hk.1, hk.2⟩

/-- Packets about no slot may be added and left out. -/
lemma Valid.ignore (hw : w.Valid about) {noise : Multiset α}
    (hnoise : ∀ x ∈ noise, ∀ k, about k x = none) :
    Valid about { w with packets := noise + w.packets } := by
  obtain ⟨flight, hcarries, hinv⟩ := hw
  refine ⟨flight, fun k => ?_, { hinv with }⟩
  have hzero : noise.filterMap (about k) = 0 := by
    refine eq_zero_of_forall_notMem fun f hf => ?_
    obtain ⟨x, hx, hf⟩ := (mem_filterMap _ _).mp hf
    exact nomatch (hnoise x hx k).symm.trans hf
  rw [filterMap_add, hzero, zero_add]
  exact hcarries k

/-! #### What holds at every point -/

section Facts

variable (hw : w.Valid about)
include hw

lemma Valid.taken_nodup : w.taken.Nodup := by
  obtain ⟨flight, -, hinv⟩ := hw
  exact hinv.takenNodup

lemma Valid.committed_nodup : w.committed.Nodup := by
  obtain ⟨flight, -, hinv⟩ := hw
  exact hinv.committedNodup

lemma Valid.mem_committed (hi : i ∈ w.completed) : i ∈ w.committed := by
  obtain ⟨flight, -, hinv⟩ := hw
  exact hinv.completedCommitted i hi

lemma Valid.mem_taken (hi : i ∈ w.committed) : i ∈ w.taken := by
  obtain ⟨flight, -, hinv⟩ := hw
  exact hinv.committedTaken i hi

/-- Nothing is under way about a slot that is free. -/
lemma Valid.quiet (hfree : w.sender k = none) : w.packets.filterMap (about k) = 0 := by
  obtain ⟨flight, hcarries, hinv⟩ := hw
  have hsound := hinv.sound k
  rw [hfree] at hsound
  rw [hcarries k, hsound.flight_of_free]
  rfl

section

variable (hrest : w.packets = x ::ₘ rest)
include hrest

/-- A packet about a slot is the only one. -/
lemma Valid.quiet_rest (hx : Concerns about x k f) : rest.filterMap (about k) = 0 := by
  obtain ⟨flight, hcarries, -⟩ := hw
  exact (hcarries.flight_eq hrest hx).2

/-- What holds of the slot a packet is about. -/
lemma Valid.sound (hx : Concerns about x k f) :
    Sound w.taken w.committed (w.sender k) (w.receiver k) (some f) := by
  obtain ⟨flight, hcarries, hinv⟩ := hw
  exact (hcarries.flight_eq hrest hx).1 ▸ hinv.sound k

lemma Valid.sender_of_received (hx : Concerns about x k .received) :
    ∃ i, w.sender k = some (i, false) := by
  obtain ⟨i, hsender, -⟩ := (hw.sound hrest hx).of_received
  exact ⟨i, hsender⟩

lemma Valid.sender_of_complete (hx : Concerns about x k .complete) :
    ∃ i, w.sender k = some (i, true) := by
  obtain ⟨i, hsender, -⟩ := (hw.sound hrest hx).of_complete
  exact ⟨i, hsender⟩

end

/-- Without refusals, what the receiver holds the sender has, in the same slot. -/
lemma Valid.sender_of_held (hrefusing : w.refusing = false) (hheld : w.receiver k = some i) :
    ∃ b, w.sender k = some (i, b) := by
  obtain ⟨flight, -, hinv⟩ := hw
  exact (hinv.clean hrefusing k).2 i hheld

/-- Some of what is under way is lost. -/
lemma Valid.lose {packets : Multiset α} (hle : packets ≤ w.packets) :
    Valid about { w with packets } := by
  obtain ⟨flight, hcarries, hinv⟩ := hw
  classical
  refine ⟨fun k => if packets.filterMap (about k) = 0 then none else flight k, fun k => ?_,
    { hinv with sound := fun k => ?_, clean := fun hr k => ⟨?_, (hinv.clean hr k).2⟩ }⟩
  · dsimp only
    split
    · next h0 => exact h0
    · next hne =>
      -- of at most one packet about a slot, one is left
      have hsub := filterMap_le_filterMap (about k) hle
      rw [hcarries k] at hsub
      refine eq_of_le_of_card_le hsub ?_
      calc _ ≤ 1 := by cases flight k <;> simp
        _ ≤ _ := card_pos.mpr hne
  · split
    · exact (hinv.sound k).lose
    · exact hinv.sound k
  · split
    · exact nofun
    · exact (hinv.clean hr k).1

end Facts

/-! #### A change of one slot -/

variable [DecidableEq κ] {s : Option (ι × Bool)} {r : Option ι} {g : Option (Flight ι)}

/-- The packets about one slot change. -/
lemma Carries.update (hw : w.Carries about flight)
    (hself : w'.packets.filterMap (about k) = (g.toList : Multiset (Flight ι)))
    (hother : ∀ k' ≠ k, w'.packets.filterMap (about k') = w.packets.filterMap (about k')) :
    w'.Carries about (Function.update flight k g) := by
  intro a
  rw [update_apply]
  split
  · next ha => exact ha ▸ hself
  · next ha => exact (hother a ha).trans (hw a)

section

variable (hinv : w.Inv flight) (hsender : w'.sender = Function.update w.sender k s)
include hinv hsender

/-- A change of one slot. It may come to know messages that nobody knew, and only messages that it
knew are taken and released. -/
lemma Inv.update (hreceiver : w'.receiver = Function.update w.receiver k r)
    (hsound : Sound w'.taken w'.committed s r g)
    (hheld : ∀ i, r = some i → i ∈ w'.taken ∧ i ∉ w'.committed)
    (hknows : ∀ i, w'.Knows k i → w.Knows k i ∨ i ∉ w.started)
    (hstarted : ∀ i, w'.Knows k i ∨ i ∈ w.started → i ∈ w'.started)
    (htaken : ∀ i, i ∈ w'.taken ↔ i ∈ w.taken ∨ i ∈ w'.taken ∧ w.Knows k i)
    (hcommitted : ∀ i, i ∈ w'.committed ↔ i ∈ w.committed ∨ i ∈ w'.committed ∧ w.Knows k i)
    (hle : ∀ i ∈ w'.committed, i ∈ w'.taken) (hcompleted : ∀ i ∈ w'.completed, i ∈ w'.committed)
    (hnodup : w'.taken.Nodup) (hnodup' : w'.committed.Nodup)
    (hclean : w'.refusing = false → w.refusing = false ∧ g ≠ some .refused ∧ ∀ i,
      r = some i → ∃ b, s = some (i, b)) : w'.Inv (Function.update flight k g) := by
  have hsender (a : κ) : w'.sender a = if a = k then s else w.sender a := by
    rw [hsender, update_apply]
  have hreceiver (a : κ) : w'.receiver a = if a = k then r else w.receiver a := by
    rw [hreceiver, update_apply]
  have hflight (a : κ) : Function.update flight k g a = if a = k then g else flight a :=
    update_apply ..
  have hat {a : κ} (ha : a ≠ k) (i : ι) : w'.Knows a i ↔ w.Knows a i := by
    rw [Knows, hsender, hreceiver, if_neg ha, if_neg ha, Knows]
  -- what happens to the messages of the slot does not concern the others
  have hother {a : κ} (ha : a ≠ k) {i : ι} (hi : w.Knows a i) : ¬w.Knows k i :=
    fun hk => ha (hinv.apart a k i hi hk)
  have htaken' {a : κ} (ha : a ≠ k) {i : ι} (hi : w.Knows a i) : i ∈ w'.taken ↔ i ∈ w.taken := by
    rw [htaken i]
    simp [hother ha hi]
  have hcommitted' {a : κ} (ha : a ≠ k) {i : ι} (hi : w.Knows a i) :
      i ∈ w'.committed ↔ i ∈ w.committed := by
    rw [hcommitted i]
    simp [hother ha hi]
  -- the changed slot shares no message with another one
  have hmixed {a : κ} (ha : a ≠ k) {i : ι} (hk : w'.Knows k i) (hi : w.Knows a i) : False :=
    (hknows i hk).elim (hother ha hi) fun hnew => hnew (hinv.known a i hi)
  refine ⟨fun a => ?_, fun a i hi => ?_, fun a a' i hi hi' => ?_, fun a i hi => ?_,
    fun i hi => ?_, hle,
    hcompleted, hnodup, hnodup', fun hr a => ?_⟩
  · rw [hsender, hreceiver, hflight]
    split
    · exact hsound
    · next ha =>
      exact (hinv.sound a).congr (fun i b hb => htaken' ha (.inl ⟨b, hb⟩))
        fun i b hb => hcommitted' ha (.inl ⟨b, hb⟩)
  · rw [hreceiver] at hi
    split at hi
    · exact hheld i hi
    · next ha =>
      obtain ⟨hin, hnot⟩ := hinv.held a i hi
      exact ⟨(htaken' ha (.inr hi)).mpr hin, fun hc => hnot ((hcommitted' ha (.inr hi)).mp hc)⟩
  · by_cases ha : a = k <;> by_cases ha' : a' = k
    · rw [ha, ha']
    · exact (hmixed ha' (ha ▸ hi) ((hat ha' i).mp hi')).elim
    · exact (hmixed ha (ha' ▸ hi') ((hat ha i).mp hi)).elim
    · exact hinv.apart a a' i ((hat ha i).mp hi) ((hat ha' i).mp hi')
  · by_cases ha : a = k
    · exact hstarted i (.inl (ha ▸ hi))
    · exact hstarted i (.inr (hinv.known a i ((hat ha i).mp hi)))
  · rcases (htaken i).mp hi with hin | ⟨-, hk⟩
    · exact hstarted i (.inr (hinv.takenStarted i hin))
    · exact hstarted i (.inr (hinv.known k i hk))
  · obtain ⟨hold, hnot, hhas⟩ := hclean hr
    rw [hsender, hreceiver, hflight]
    split
    · exact ⟨hnot, hhas⟩
    · exact hinv.clean hold a

/-- A change of one slot that makes nothing of the messages. -/
lemma Inv.update_quiet (hreceiver : w'.receiver = w.receiver)
    (hsound : Sound w.taken w.committed s (w.receiver k) g)
    (hknows : ∀ i b, s = some (i, b) → w.Knows k i)
    (hlists : w'.started = w.started ∧ w'.taken = w.taken ∧ w'.committed = w.committed)
    (hcompleted : ∀ i ∈ w'.completed, i ∈ w.committed)
    (hclean : w'.refusing = false → w.refusing = false ∧ g ≠ some .refused ∧ ∀ i,
      w.receiver k = some i → ∃ b, s = some (i, b)) : w'.Inv (Function.update flight k g) := by
  obtain ⟨hstarted, htaken, hcommitted⟩ := hlists
  have hold (i : ι) (hi : w'.Knows k i) : w.Knows k i := by
    rcases hi with ⟨b, hb⟩ | hi
    · rw [hsender, update_self] at hb
      exact hknows i b hb
    · exact .inr (hreceiver ▸ hi)
  have hsame {l l' : List ι} (h : l' = l) (i : ι) : i ∈ l' ↔ i ∈ l ∨ i ∈ l' ∧ w.Knows k i :=
    h ▸ ⟨.inl, fun h => h.elim id And.left⟩
  refine hinv.update (r := w.receiver k) hsender ?_ ?_ (fun i hi => ?_)
    (fun i hi => .inl (hold i hi))
    (fun i hi => ?_) (hsame htaken) (hsame hcommitted) ?_ ?_ ?_ ?_ hclean
  · rw [hreceiver, update_eq_self]
  · exact htaken ▸ hcommitted ▸ hsound
  · exact htaken ▸ hcommitted ▸ hinv.held k i hi
  · exact hstarted ▸ hi.elim (fun h => hinv.known k i (hold i h)) id
  · exact htaken ▸ hcommitted ▸ hinv.committedTaken
  · exact hcommitted ▸ hcompleted
  · exact htaken ▸ hinv.takenNodup
  · exact hcommitted ▸ hinv.committedNodup

end

/-! #### What the two can do -/

variable (hw : w.Valid about)
include hw

/-- The sender puts a new message in a free slot. -/
lemma Valid.start (hfree : w.sender k = none) (hnew : i ∉ w.started) :
    Valid about
      { w with
        sender := Function.update w.sender k (some (i, false))
        started := w.started ++ [i] } := by
  have hquiet := hw.quiet hfree
  obtain ⟨flight, hcarries, hinv⟩ := hw
  have htaken : i ∉ w.taken := fun hi => hnew (hinv.takenStarted i hi)
  have hreceiver : w.receiver k ≠ some i := fun hi => hnew (hinv.known k i (.inr hi))
  have hsender {j : ι} {c : Bool} (h : Function.update w.sender k (some (i, false)) k =
    some (j, c)) :
      i = j := by
    rw [update_self] at h
    exact congrArg Prod.fst (some.inj h)
  refine ⟨_, hcarries.update (g := none) hquiet fun _ _ => rfl, hinv.update rfl
    (update_eq_self ..).symm (.pending ?_ (iff_of_false htaken hreceiver) (.inl rfl))
    (hinv.held k) (fun j hj => ?_) (fun j hj => ?_) (fun _ => ⟨.inl, fun h => h.elim id And.left⟩)
    (fun _ => ⟨.inl, fun h => h.elim id And.left⟩) hinv.committedTaken hinv.completedCommitted
    hinv.takenNodup hinv.committedNodup fun hr => ⟨hr, nofun, fun j hj => ?_⟩⟩
  · exact fun hc => htaken (hinv.committedTaken i hc)
  · rcases hj with ⟨c, hc⟩ | hj
    · exact .inr (hsender hc ▸ hnew)
    · exact .inl (.inr hj)
  · rw [List.mem_append, List.mem_singleton]
    rcases hj with (⟨c, hc⟩ | hj) | hj
    · exact .inr (hsender hc).symm
    · exact .inl (hinv.known k j (.inr hj))
    · exact .inl hj
  · obtain ⟨c, hc⟩ := (hinv.clean hr k).2 j hj
    exact nomatch hfree.symm.trans hc

/-- The sender sends what is next in a slot about which nothing is under way. -/
lemma Valid.send (hsender : w.sender k = some (i, b)) (hquiet : w.packets.filterMap (about k) = 0)
    (hx : Concerns about x k (if b then .release else .publish i)) :
    Valid about { w with packets := x ::ₘ w.packets } := by
  obtain ⟨flight, hcarries, hinv⟩ := hw
  have hsound : Sound w.taken w.committed (some (i, b)) (w.receiver k)
      (some (if b then .release else .publish i)) := by
    cases hsender ▸ hinv.sound k with
    | pending fresh known _ => exact .pending fresh known (.inr (.inl rfl))
    | released known held _ => exact .released known held (.inr (.inl rfl))
  refine ⟨_, hcarries.update (hx.filterMap_self hquiet) fun _ hk => hx.filterMap_of_ne hk _,
    hinv.update_quiet (s := some (i, b)) ?_ rfl hsound (fun j c hc => .inl ⟨c, hsender.trans hc⟩)
      ⟨rfl, rfl, rfl⟩ hinv.completedCommitted fun hr => ⟨hr, ?_, hsender ▸ (hinv.clean hr k).2⟩⟩
  · rw [← hsender, update_eq_self]
  · cases b
    · exact nofun
    · exact nofun

/-- The sender sends what is next in several slots about which nothing is under way. -/
lemma Valid.sendAll (packet : κ → ι × Bool → α)
    (hpacket : ∀ k i b, Concerns about (packet k (i, b)) k (if b then .release else .publish i))
    {order : List κ} (hnodup : order.Nodup)
    (hquiet : ∀ k ∈ order, w.packets.filterMap (about k) = 0) :
    Valid about
      { w with
        packets := ofList (order.filterMap fun k => (w.sender k).map (packet k)) +
          w.packets } := by
  induction order with
  | nil =>
    rw [List.filterMap_nil, coe_nil, zero_add]
    exact hw
  | cons k order ih =>
    obtain ⟨hk, hnodup⟩ := List.nodup_cons.mp hnodup
    have hrest := ih hnodup fun k hk => hquiet k (List.mem_cons_of_mem _ hk)
    rw [List.filterMap_cons]
    split
    · exact hrest
    · next x hx =>
      obtain ⟨⟨i, b⟩, hsender, rfl⟩ := map_eq_some_iff.mp hx
      rw [← cons_coe, cons_add]
      refine hrest.send hsender ?_ (hpacket k i b)
      -- the packets sent so far are about other slots
      rw [filterMap_add, hquiet k List.mem_cons_self, add_zero]
      refine eq_zero_of_forall_notMem fun f hf => ?_
      obtain ⟨y, hy, hf⟩ := (mem_filterMap _ _).mp hf
      obtain ⟨k', hk', hy⟩ := List.mem_filterMap.mp (mem_coe.mp hy)
      obtain ⟨⟨j, c⟩, -, rfl⟩ := map_eq_some_iff.mp hy
      have hne : k ≠ k' := fun heq => hk (heq ▸ hk')
      exact nomatch ((hpacket k' j c).2 k hne).symm.trans hf

section

variable (hrest : w.packets = x ::ₘ rest)
include hrest

/-- The receiver takes a message. -/
lemma Valid.receive [DecidableEq ι] (hx : Concerns about x k (.publish i))
    (hy : Concerns about y k .received) :
    Valid about
      { w with
        receiver := Function.update w.receiver k (some i)
        packets := y ::ₘ rest
        taken := if w.receiver k = some i then w.taken else w.taken ++ [i] } := by
  obtain ⟨hsender, hfresh, hiff⟩ := (hw.sound hrest hx).of_publish
  have hnone := hw.quiet_rest hrest hx
  obtain ⟨flight, hcarries, hinv⟩ := hw
  have hknown : w.Knows k i := .inl ⟨_, hsender⟩
  have hmem (j : ι) : j ∈ (if w.receiver k = some i then w.taken else w.taken ++ [i]) ↔
      j ∈ w.taken ∨ j = i := by
    split
    · next hold =>
      refine ⟨.inl, fun hj => hj.elim id ?_⟩
      rintro rfl
      exact hiff.mpr hold
    · rw [List.mem_append, List.mem_singleton]
  have hi := (hmem i).mpr (.inr rfl)
  have hknows (j : ι) (hj : (∃ b, w.sender k = some (j, b)) ∨
      Function.update w.receiver k (some i) k = some j) : w.Knows k j := by
    refine hj.elim .inl fun hj => ?_
    rw [update_self, some.injEq] at hj
    exact hj ▸ hknown
  refine ⟨_, hcarries.update (hy.filterMap_self hnone) fun _ hk => ?_,
    hinv.update (s := some (i, false)) ?_ rfl
      (.pending hfresh (iff_of_true hi rfl) (.inr (.inr (.inl ⟨rfl, rfl⟩))))
      (fun j hj => some.inj hj ▸ ⟨hi, hfresh⟩) (fun j hj => .inl (hknows j hj)) (fun j hj => ?_)
      (fun j => ?_) (fun _ => ⟨.inl, fun h => h.elim id And.left⟩)
      (fun j hj => (hmem j).mpr (.inl (hinv.committedTaken j hj))) hinv.completedCommitted ?_
      hinv.committedNodup fun hr => ⟨hr, nofun, fun j hj => some.inj hj ▸ ⟨false, rfl⟩⟩⟩
  · rw [hrest, hx.filterMap_of_ne hk, hy.filterMap_of_ne hk]
  · rw [← hsender, update_eq_self]
  · exact hj.elim (fun hj => hinv.known k j (hknows j hj)) id
  · refine ⟨fun hj => ((hmem j).mp hj).imp id ?_,
      fun hj => hj.elim (fun h => (hmem j).mpr (.inl h)) And.left⟩
    rintro rfl
    exact ⟨hj, hknown⟩
  · dsimp only
    split
    · exact hinv.takenNodup
    · next hnew =>
      refine List.nodup_append.mpr ⟨hinv.takenNodup, List.nodup_singleton i,
        fun a ha b hb heq => ?_⟩
      rw [List.mem_singleton.mp hb] at heq
      exact hnew (hiff.mp (heq ▸ ha))

/-- The receiver releases a slot. -/
lemma Valid.release (hx : Concerns about x k .release) (hy : Concerns about y k .complete) :
    Valid about
      { w with
        receiver := Function.update w.receiver k none
        packets := y ::ₘ rest
        committed := w.committed ++ (w.receiver k).toList } := by
  obtain ⟨i, hsender, htaken, hheld⟩ := (hw.sound hrest hx).of_release
  have hnone := hw.quiet_rest hrest hx
  obtain ⟨flight, hcarries, hinv⟩ := hw
  have hknown : w.Knows k i := .inl ⟨_, hsender⟩
  -- what is held is committed now; a release of what is committed already commits nothing
  have hmem : i ∈ w.committed ++ (w.receiver k).toList := by
    rcases hheld with ⟨hheld, -⟩ | ⟨-, hdone⟩
    · simp [hheld]
    · exact List.mem_append_left _ hdone
  have hnew (j : ι) (hj : j ∈ (w.receiver k).toList) : j ∉ w.committed ∧ j = i := by
    rcases hheld with ⟨hheld, hfresh⟩ | ⟨hheld, -⟩
    · obtain rfl : j = i := by simpa [hheld] using hj
      exact ⟨hfresh, rfl⟩
    · simp [hheld] at hj
  have hknows (j : ι) (hj : (∃ b, w.sender k = some (j, b)) ∨
      Function.update w.receiver k none k = some j) : w.Knows k j := by
    refine hj.elim .inl fun hj => ?_
    rw [update_self] at hj
    exact nomatch hj
  refine ⟨_, hcarries.update (hy.filterMap_self hnone) fun _ hk => ?_,
    hinv.update (s := some (i, true)) ?_ rfl
      (.released htaken (.inr ⟨rfl, hmem⟩) (.inr (.inr ⟨rfl, rfl⟩)))
      (fun j hj => nomatch hj) (fun j hj => .inl (hknows j hj)) (fun j hj => ?_)
      (fun _ => ⟨.inl, fun h => h.elim id And.left⟩) (fun j => ?_) (fun j hj => ?_)
      (fun j hj => List.mem_append_left _ (hinv.completedCommitted j hj)) hinv.takenNodup ?_
      fun hr => ⟨hr, nofun, nofun⟩⟩
  · rw [hrest, hx.filterMap_of_ne hk, hy.filterMap_of_ne hk]
  · rw [← hsender, update_eq_self]
  · exact hj.elim (fun hj => hinv.known k j (hknows j hj)) id
  · exact ⟨fun hj => (List.mem_append.mp hj).imp id fun hj' => ⟨hj, (hnew j hj').2 ▸ hknown⟩,
      fun hj => hj.elim (List.mem_append_left _) And.left⟩
  · rcases List.mem_append.mp hj with hj | hj
    · exact hinv.committedTaken j hj
    · exact (hnew j hj).2 ▸ htaken
  · refine List.nodup_append.mpr ⟨hinv.committedNodup, ?_, fun a ha b hb heq => ?_⟩
    · cases w.receiver k
      · exact List.nodup_nil
      · exact List.nodup_singleton _
    · exact (hnew b hb).1 (heq ▸ ha)

/-- The receiver refuses a message. -/
lemma Valid.refuse (hx : Concerns about x k (.publish i)) (hy : Concerns about y k .refused) :
    Valid about { w with packets := y ::ₘ rest, refusing := true } := by
  obtain ⟨hsender, hfresh, hiff⟩ := (hw.sound hrest hx).of_publish
  have hnone := hw.quiet_rest hrest hx
  obtain ⟨flight, hcarries, hinv⟩ := hw
  refine ⟨_, hcarries.update (hy.filterMap_self hnone) fun _ hk => ?_,
    hinv.update_quiet (s := some (i, false)) ?_ rfl (.pending hfresh hiff (.inr (.inr (.inr rfl))))
      (fun j c hc => .inl ⟨c, hsender.trans hc⟩) ⟨rfl, rfl, rfl⟩ hinv.completedCommitted nofun⟩
  · rw [hrest, hx.filterMap_of_ne hk, hy.filterMap_of_ne hk]
  · rw [← hsender, update_eq_self]

/-- The sender learns that its message was taken. -/
lemma Valid.received (hx : Concerns about x k .received) (hsender : w.sender k = some (i, b)) :
    Valid about { w with sender := Function.update w.sender k (some (i, true)), packets := rest } := by
  obtain ⟨j, hs, hreceiver, htaken, hfresh⟩ := (hw.sound hrest hx).of_received
  obtain ⟨rfl, rfl⟩ : i = j ∧ b = false := by simpa [hsender] using hs
  have hnone := hw.quiet_rest hrest hx
  obtain ⟨flight, hcarries, hinv⟩ := hw
  refine ⟨_, hcarries.update (g := none) hnone fun _ hk => ?_,
    hinv.update_quiet rfl rfl (.released htaken (.inl ⟨hreceiver, hfresh⟩) (.inl rfl))
      (fun j c hc => ?_)
      ⟨rfl, rfl, rfl⟩ hinv.completedCommitted fun hr => ⟨hr, nofun, fun j hj => ⟨true, ?_⟩⟩⟩
  · rw [hrest, hx.filterMap_of_ne hk]
  · obtain rfl : i = j := congrArg Prod.fst (some.inj hc)
    exact .inr hreceiver
  · rw [some.inj (hreceiver.symm.trans hj)]

/-- The sender learns that its message was refused, and gives it up. -/
lemma Valid.refused (hx : Concerns about x k .refused) :
    Valid about { w with sender := Function.update w.sender k none, packets := rest } := by
  have hnone := hw.quiet_rest hrest hx
  obtain ⟨flight, hcarries, hinv⟩ := hw
  refine ⟨_, hcarries.update (g := none) hnone fun _ hk => ?_, hinv.update_quiet rfl rfl .free nofun
    ⟨rfl, rfl, rfl⟩ hinv.completedCommitted fun hr => ?_⟩
  · rw [hrest, hx.filterMap_of_ne hk]
  · exact absurd (hcarries.flight_eq hrest hx).1 (hinv.clean hr k).1

/-- The sender learns that the slot was released, and is done with the message. -/
lemma Valid.complete (hx : Concerns about x k .complete) (hsender : w.sender k = some (i, b)) :
    Valid about
      { w with
        sender := Function.update w.sender k none
        packets := rest
        completed := w.completed ++ [i] } := by
  obtain ⟨j, hs, hreceiver, hdone⟩ := (hw.sound hrest hx).of_complete
  obtain ⟨rfl, rfl⟩ : i = j ∧ b = true := by simpa [hsender] using hs
  have hnone := hw.quiet_rest hrest hx
  obtain ⟨flight, hcarries, hinv⟩ := hw
  refine ⟨_, hcarries.update (g := none) hnone fun _ hk => ?_, hinv.update_quiet rfl rfl .free nofun
    ⟨rfl, rfl, rfl⟩ (fun j hj => ?_) fun hr => ⟨hr, nofun, fun j hj => ?_⟩⟩
  · rw [hrest, hx.filterMap_of_ne hk]
  · rcases List.mem_append.mp hj with hj | hj
    · exact hinv.completedCommitted j hj
    · exact List.mem_singleton.mp hj ▸ hdone
  · exact nomatch hreceiver.symm.trans hj

end

omit [DecidableEq κ] hw in
/-- Nothing has happened yet. -/
lemma valid_init {w : Wire κ ι α} (hsender : ∀ k, w.sender k = none)
    (hreceiver : ∀ k, w.receiver k = none) (hpackets : ∀ k, w.packets.filterMap (about k) = 0)
    (hlists : w.started = [] ∧ w.taken = [] ∧ w.committed = [] ∧ w.completed = []) :
    w.Valid about := by
  obtain ⟨-, htaken, hcommitted, hcompleted⟩ := hlists
  have hnothing (k : κ) (i : ι) : ¬w.Knows k i := by simp [Knows, hsender k, hreceiver k]
  refine ⟨fun _ => none, hpackets, fun k => ?_, fun k i hi => ?_, fun k _ i hi =>
    (hnothing k i hi).elim,
    fun k i hi => (hnothing k i hi).elim, by simp [htaken], by simp [hcommitted], by simp
      [hcompleted],
    by simp [htaken], by simp [hcommitted], fun _ k => ⟨nofun, by simp [hreceiver k]⟩⟩
  · rw [hsender k]
    exact .free
  · exact (hnothing k i (.inr hi)).elim

end Wire

end Lib
