import Mathlib.Data.Fintype.Card
import Rusquitto.Lib.Slab
import Rusquitto.Server.Tasks

/-!
# The registry of parked connections

`Parking` of `server/shard/parking.rs`: a slab of parked connections with 32-bit generation tags,
and an index from client ids to slots. Of the ring that watches the sockets only the tokens are
modelled. `Registry.Consistent` says that the parts fit together, as long as no two connections of
one client are parked at once.
-/

namespace Rusquitto

open Function Option

/-- A parked connection. Its descriptor is an open one, a non-negative `i32`. -/
structure ParkedConn where
  fd : Fin (2 ^ 31)
  resume : ResumeState
  /-- The keep-alive deadline, as it was when the connection parked. -/
  deadline : Option ℕ

structure Registry where
  slab : Lib.Slab ParkedConn UInt32 := {}
  byClient : HashMap String UInt32 := ∅

variable {i : ℕ} {conn : ParkedConn} {p' : Registry}

namespace Registry

/-- The token of a cancellation's own completion, which stands for no slot. -/
def cancelToken : UInt64 := 0xffffffffffffffff

def token (index tag : UInt32) : UInt64 := index.toUInt64 <<< 32 ||| tag.toUInt64

variable (p : Registry)

/-- Registers a connection, and arms its socket with a token. -/
def park (conn : ParkedConn) : Registry × UInt64 :=
  let (index, slab) := p.slab.insert 0 conn
  ({ slab, byClient := p.byClient.insert conn.resume.clientId index.toUInt32 },
    token index.toUInt32 (slab.tags[index]?.getD 0))

def removeWithoutCancel (index : UInt32) : Option (Registry × ParkedConn) :=
  (p.slab.remove (· + 1) index.toNat).map fun (slab, conn) =>
    ({ slab, byClient := p.byClient.erase conn.resume.clientId }, conn)

/-- Removes the connection of a client; with a generation, only if it parked under that one. -/
def takeByClient (clientId : String) (generation : Option ℕ) : Option (Registry × ParkedConn) :=
  (p.byClient.lookup clientId).bind fun index =>
    match generation with
    | none => p.removeWithoutCancel index
    | some g =>
      (p.slab.at? index.toNat).bind fun entry =>
        if entry.resume.sessionGeneration ≠ g then none else p.removeWithoutCancel index

/-- Resolves a completion token. A stale one resolves to nothing. -/
def takeByToken (userData : UInt64) : Option (Registry × ParkedConn) :=
  if userData = cancelToken then none
  else
    let index := (userData >>> 32).toUInt32
    let tag := userData.toUInt32
    if p.slab.tags[index.toNat]? ≠ some tag then none else p.removeWithoutCancel index

/-- The connections past their deadline. -/
def expired (now : ℕ) : List UInt32 :=
  ((List.range p.slab.slots.length).filter fun i =>
    (p.slab.at? i).any fun conn => conn.deadline.any (· ≤ now)).map Nat.toUInt32

def occupied : List UInt32 :=
  ((List.range p.slab.slots.length).filter fun i => (p.slab.at? i).isSome).map Nat.toUInt32

/-- Removes the connections at some indices. -/
def removeAll (indices : List UInt32) : Registry :=
  indices.foldl (fun p index => ((p.removeWithoutCancel index).map Prod.fst).getD p) p

/-- The parts of the registry fit together. -/
structure Consistent (uses : ℕ → ℕ) : Prop where
  wf : p.slab.Wf (· + 1) 0 uses
  length_le : p.slab.slots.length ≤ 2 ^ 31
  /-- Descriptors are distinct. -/
  fds : ∀ i j conn conn', p.slab.at? i = some conn → p.slab.at? j = some conn' → conn.fd =
    conn'.fd →
    i = j
  /-- The index has the slot of every client, and nothing else. -/
  index : ∀ k (i : UInt32), p.byClient.lookup k = some i ↔
    ∃ conn, p.slab.at? i.toNat = some conn ∧ conn.resume.clientId = k

/-! ### Tokens -/

section Token

variable (index tag : UInt32)

lemma toNat_token : (token index tag).toNat = index.toNat * 2 ^ 32 + tag.toNat := by
  have hi := index.toNat_lt
  have ht := tag.toNat_lt
  unfold token
  rw [UInt64.toNat_or, UInt64.toNat_shiftLeft, UInt32.toNat_toUInt64, UInt32.toNat_toUInt64,
    show (32 : UInt64).toNat % 64 = 32 from rfl, Nat.shiftLeft_eq, Nat.mod_eq_of_lt (by omega),
    Nat.mul_comm, ← Nat.two_pow_add_eq_or_of_lt ht]

lemma index_token : (token index tag >>> 32).toUInt32 = index := by
  have hi := index.toNat_lt
  have ht := tag.toNat_lt
  rw [← UInt32.toNat_inj, UInt64.toNat_toUInt32, UInt64.toNat_shiftRight, toNat_token,
    show (32 : UInt64).toNat % 64 = 32 from rfl, Nat.shiftRight_eq_div_pow]
  omega

lemma tag_token : (token index tag).toUInt32 = tag := by
  have ht := tag.toNat_lt
  rw [← UInt32.toNat_inj, UInt64.toNat_toUInt32, toNat_token]
  omega

lemma token_ne_cancelToken (h : index.toNat < 2 ^ 31) : token index tag ≠ cancelToken := by
  intro heq
  have ht := tag.toNat_lt
  have hnat := congrArg UInt64.toNat heq
  rw [toNat_token, show cancelToken.toNat = 2 ^ 64 - 1 from rfl] at hnat
  omega

end Token

/-- Tags come round again after `2 ^ 32` removals, and not before. -/
lemma iterate_tag (n : ℕ) : (· + 1)^[n] (0 : UInt32) = UInt32.ofNat n := by
  induction n with
  | zero => rfl
  | succ n ih =>
    rw [iterate_succ_apply', ih]
    exact (UInt32.ofNat_add n 1).symm

lemma iterate_tag_inj {m n : ℕ} (hm : m < 2 ^ 32) (hn : n < 2 ^ 32)
    (h : (· + 1)^[m] (0 : UInt32) = (· + 1)^[n] 0) : m = n := by
  rw [iterate_tag, iterate_tag, ← UInt32.toNat_inj, UInt32.toNat_ofNat_of_lt' hm,
    UInt32.toNat_ofNat_of_lt' hn] at h
  exact h

/-! ### The operations keep the registry consistent -/

variable {p} {uses : ℕ → ℕ} {index : UInt32}

lemma Consistent.lt (h : p.Consistent uses) (hat : p.slab.at? i = some conn) : i < 2 ^ 31 :=
  (Lib.Slab.lt_length hat).trans_le h.length_le

lemma toNat_toUInt32 (h : i < 2 ^ 31) : i.toUInt32.toNat = i :=
  UInt32.toNat_ofNat_of_lt' (show i < UInt32.size by simp [UInt32.size]; omega)

section

variable (h : p.Consistent uses) (hfd : ∀ i conn', p.slab.at? i = some conn' → conn'.fd ≠ conn.fd)
include h hfd

/-- A new descriptor is not among those of the registry, so there is room for it. -/
lemma Consistent.length_insert_le :
    (p.slab.insert 0 conn).2.slots.length ≤ 2 ^ 31 ∧ (p.slab.insert 0 conn).1 < 2 ^ 31 := by
  have hlength := h.length_le
  unfold Lib.Slab.insert
  split
  · next i free hfree =>
    have hnone : p.slab.slots[i]? = some none := (h.wf.mem_free i).mp (by simp [hfree])
    obtain ⟨hlt, -⟩ := List.getElem?_eq_some_iff.mp hnone
    exact ⟨by simpa using hlength, by omega⟩
  · next hfree =>
    -- every slot is taken, by a connection with a descriptor of its own
    have hat (i : Fin p.slab.slots.length) : ∃ conn', p.slab.at? i = some conn' := by
      cases hslot : p.slab.slots[i.val]? with
      | none => exact absurd (List.getElem?_eq_none_iff.mp hslot) (by omega)
      | some slot =>
        cases slot with
        | none => exact absurd ((h.wf.mem_free i).mpr hslot) (by simp [hfree])
        | some conn' => exact ⟨conn', Lib.Slab.at?_eq_some.mpr hslot⟩
    choose conns hconns using hat
    have hinj : Injective fun i => (conns i).fd := fun i j heq =>
      Fin.ext (h.fds i j _ _ (hconns i) (hconns j) heq)
    have hcard := Fintype.card_lt_of_injective_of_notMem (fun i => (conns i).fd) hinj
      (b := conn.fd) (by
      rintro ⟨i, heq⟩
      exact hfd i (conns i) (hconns i) heq)
    rw [Fintype.card_fin, Fintype.card_fin] at hcard
    refine ⟨?_, hcard⟩
    rw [List.length_append, List.length_singleton]
    omega

/-- What parking a connection does. -/
lemma Consistent.park
    (hclient : ∀ i conn', p.slab.at? i = some conn' → conn'.resume.clientId ≠
      conn.resume.clientId) :
    ∃ index : UInt32, index.toNat < 2 ^ 31 ∧ p.slab.at? index.toNat = none ∧
      (p.park conn).1.slab.at? = update p.slab.at? index.toNat (some conn) ∧
      (p.park conn).1.byClient = p.byClient.insert conn.resume.clientId index ∧
      (p.park conn).2 = token index (UInt32.ofNat (uses index.toNat)) ∧
      (p.park conn).1.Consistent uses := by
  obtain ⟨hlength, hlt⟩ := h.length_insert_le hfd
  obtain ⟨hnone, hat⟩ := h.wf.at?_insert conn
  have hwf := h.wf.insert conn
  have hindex := toNat_toUInt32 hlt
  have hself : (p.slab.insert 0 conn).2.at? (p.slab.insert 0 conn).1 = some conn := by
    rw [hat, update_self]
  have htag := hwf.tag _ (Lib.Slab.lt_length hself)
  refine ⟨(p.slab.insert 0 conn).1.toUInt32, ?_⟩
  rw [hindex]
  refine ⟨hlt, hnone, hat, rfl, ?_, ?_⟩
  · show token _ ((p.slab.insert 0 conn).2.tags[(p.slab.insert 0 conn).1]?.getD 0) = _
    rw [htag, iterate_tag]
    rfl
  · refine ⟨hwf, hlength, fun i j conn₁ conn₂ hi hj heq => ?_, fun k i => ?_⟩
    · have hi : (p.slab.insert 0 conn).2.at? i = some conn₁ := hi
      have hj : (p.slab.insert 0 conn).2.at? j = some conn₂ := hj
      rw [hat, update_apply] at hi hj
      split at hi <;> split at hj
      · next hi' hj' => rw [hi', hj']
      · obtain rfl := some.inj hi
        exact absurd heq.symm (hfd j conn₂ hj)
      · obtain rfl := some.inj hj
        exact absurd heq (hfd i conn₁ hi)
      · exact h.fds i j conn₁ conn₂ hi hj heq
    · show (p.byClient.insert conn.resume.clientId _).lookup k = some i ↔
        ∃ conn', (p.slab.insert 0 conn).2.at? i.toNat = some conn' ∧ _
      rw [AList.lookup_insert_eq_ite, hat]
      have hiff : i.toNat = (p.slab.insert 0 conn).1 ↔ i = (p.slab.insert 0 conn).1.toUInt32 := by
        rw [← UInt32.toNat_inj, hindex]
      by_cases hk : k = conn.resume.clientId
      · subst hk
        rw [if_pos rfl]
        constructor
        · intro heq
          rw [hiff.mpr (some.inj heq).symm, update_self]
          exact ⟨conn, rfl, rfl⟩
        · rintro ⟨conn', hconn', hclient'⟩
          rw [update_apply] at hconn'
          split at hconn'
          · next heq => exact congrArg some (hiff.mp heq).symm
          · exact absurd hclient' (hclient _ conn' hconn')
      · rw [if_neg hk, h.index k i]
        refine exists_congr fun conn' => and_congr_left fun hclient' => ?_
        rw [update_apply]
        split
        · next heq =>
          rw [heq, hnone]
          constructor
          · exact nofun
          · intro hconn
            obtain rfl := some.inj hconn
            exact absurd hclient'.symm hk
        · rfl

end

lemma removeWithoutCancel_eq_some :
    p.removeWithoutCancel index = some (p', conn) ↔ ∃ slab,
      p.slab.remove (· + 1) index.toNat = some (slab, conn) ∧
        p' = { slab, byClient := p.byClient.erase conn.resume.clientId } := by
  unfold removeWithoutCancel
  constructor
  · intro h
    obtain ⟨⟨slab, conn'⟩, hremove, heq⟩ := map_eq_some_iff.mp h
    obtain ⟨rfl, rfl⟩ := Prod.mk.inj heq
    exact ⟨slab, hremove, rfl⟩
  · rintro ⟨slab, hremove, rfl⟩
    rw [hremove]
    rfl

/-- What removing a connection does. -/
lemma Consistent.remove (h : p.Consistent uses)
    (hremove : p.removeWithoutCancel index = some (p', conn)) : p.slab.at? index.toNat = some conn ∧
      p'.slab.at? = update p.slab.at? index.toNat none ∧
      p'.byClient = p.byClient.erase conn.resume.clientId ∧
      p'.Consistent (update uses index.toNat (uses index.toNat + 1)) := by
  obtain ⟨slab, hslab, rfl⟩ := removeWithoutCancel_eq_some.mp hremove
  obtain ⟨hat, hat'⟩ := Lib.Slab.at?_remove hslab
  refine ⟨hat, hat', rfl, h.wf.remove hslab, ?_, fun i j conn₁ conn₂ hi hj heq => ?_, fun k i => ?_⟩
  · exact (Lib.Slab.length_remove hslab).trans_le h.length_le
  · have hi : slab.at? i = some conn₁ := hi
    have hj : slab.at? j = some conn₂ := hj
    rw [hat', update_apply] at hi hj
    split at hi
    · exact nomatch hi
    · split at hj
      · exact nomatch hj
      · exact h.fds i j conn₁ conn₂ hi hj heq
  · show (p.byClient.erase conn.resume.clientId).lookup k = some i ↔
      ∃ conn', slab.at? i.toNat = some conn' ∧ _
    rw [AList.lookup_erase_eq_ite, hat']
    have hself := (h.index conn.resume.clientId index).mpr ⟨conn, hat, rfl⟩
    by_cases hk : k = conn.resume.clientId
    · -- the client had no other slot
      subst hk
      rw [if_pos rfl]
      refine ⟨fun hnone => (nomatch hnone), fun ⟨conn', hconn', hclient'⟩ => ?_⟩
      rw [update_apply] at hconn'
      split at hconn'
      · exact nomatch hconn'
      · next hne =>
        have hother := (h.index conn.resume.clientId i).mpr ⟨conn', hconn', hclient'⟩
        exact absurd (congrArg UInt32.toNat (some.inj (hother.symm.trans hself))) hne
    · rw [if_neg hk, h.index k i]
      refine exists_congr fun conn' => and_congr_left fun hclient' => ?_
      rw [update_apply]
      split
      · next heq =>
        rw [heq, hat]
        constructor
        · intro hconn
          obtain rfl := some.inj hconn
          exact absurd hclient'.symm hk
        · exact nofun
      · rfl

/-- A token takes the connection it was armed for, as long as no slot is used so often that tags
come round again. -/
lemma Consistent.takeByToken_eq (h : p.Consistent uses) {use : ℕ} (hindex : index.toNat < 2 ^ 31)
    (hissued : use ≤ uses index.toNat) (hfew : uses index.toNat < 2 ^ 32) :
    p.takeByToken (token index (.ofNat use)) =
      if use = uses index.toNat then p.removeWithoutCancel index else none := by
  unfold takeByToken
  rw [if_neg (token_ne_cancelToken index _ hindex)]
  rw [index_token, tag_token]
  by_cases hlt : index.toNat < p.slab.slots.length
  · have htag : p.slab.tags[index.toNat]? = some (.ofNat (uses index.toNat)) := by
      rw [h.wf.tag _ hlt, iterate_tag]
    have hiff : p.slab.tags[index.toNat]? ≠ some (.ofNat use) ↔ use ≠ uses index.toNat := by
      rw [htag]
      refine not_congr ⟨fun heq => ?_, fun heq => by rw [heq]⟩
      refine iterate_tag_inj (by omega) hfew ?_
      rw [iterate_tag, iterate_tag]
      exact (some.inj heq).symm
    by_cases huse : use = uses index.toNat
    · rw [if_neg (fun hne => hiff.mp hne huse), if_pos huse]
    · rw [if_pos (hiff.mpr huse), if_neg huse]
  · -- there is no such slot yet, and nothing to take
    have hnone : p.removeWithoutCancel index = none := by
      cases hremove : p.removeWithoutCancel index with
      | none => rfl
      | some taken =>
        obtain ⟨hat, -⟩ := h.remove hremove
        exact absurd (Lib.Slab.lt_length hat) hlt
    simp [hnone]

lemma takeByClient_eq_some {k : String} {generation : Option ℕ}
    (h : p.takeByClient k generation = some (p', conn)) :
    ∃ index, p.byClient.lookup k = some index ∧ p.removeWithoutCancel index = some (p', conn) ∧
      ∀ g ∈ generation, conn.resume.sessionGeneration = g := by
  obtain ⟨index, hindex, htaken⟩ := bind_eq_some_iff.mp h
  refine ⟨index, hindex, ?_⟩
  cases generation with
  | none => exact ⟨htaken, nofun⟩
  | some g =>
    obtain ⟨entry, hentry, htaken⟩ := bind_eq_some_iff.mp htaken
    obtain ⟨hgen, hremove⟩ := ite_none_left_eq_some.mp htaken
    obtain ⟨slab, hslab, rfl⟩ := removeWithoutCancel_eq_some.mp hremove
    obtain rfl := some.inj (hentry.symm.trans (Lib.Slab.at?_remove hslab).1)
    refine ⟨hremove, fun g' hg' => ?_⟩
    rw [← some.inj hg']
    exact not_not.mp hgen

lemma removeWithoutCancel_of_at? (h : p.slab.at? index.toNat = some conn) :
    ∃ p', p.removeWithoutCancel index = some (p', conn) := by
  unfold removeWithoutCancel Lib.Slab.remove
  rw [h]
  exact ⟨_, rfl⟩

lemma Consistent.takeByClient_eq_none (h : p.Consistent uses) {k : String} {generation : Option ℕ}
    (htaken : p.takeByClient k generation = none) (hat : p.slab.at? i = some conn)
    (hclient : conn.resume.clientId = k) : ∃ g ∈ generation, conn.resume.sessionGeneration ≠ g := by
  have hnat := toNat_toUInt32 (h.lt hat)
  rw [← hnat] at hat
  have hindex := (h.index k i.toUInt32).mpr ⟨conn, hat, hclient⟩
  obtain ⟨p', hremove⟩ := removeWithoutCancel_of_at? hat
  unfold takeByClient at htaken
  rw [hindex, bind_some] at htaken
  cases generation with
  | none => exact nomatch hremove.symm.trans htaken
  | some g =>
    refine ⟨g, rfl, fun heq => ?_⟩
    dsimp only at htaken
    rw [hat, bind_some, if_neg (not_not.mpr heq)] at htaken
    exact nomatch hremove.symm.trans htaken

/-! ### Counting the removals -/

/-- Counts the removals between two states of the registry. -/
def recount (p p' : Registry) (uses : ℕ → ℕ) : ℕ → ℕ := fun i =>
  if (p.slab.at? i).isSome ∧ p'.slab.at? i = none then uses i + 1 else uses i

lemma recount_self (p : Registry) (uses : ℕ → ℕ) : p.recount p uses = uses := by
  funext i
  unfold recount
  rw [if_neg]
  rintro ⟨hsome, hnone⟩
  rw [hnone] at hsome
  exact nomatch hsome

lemma recount_remove {index : ℕ} (hat : p.slab.at? index = some conn)
    (hat' : p'.slab.at? = update p.slab.at? index none) (uses : ℕ → ℕ) :
    p.recount p' uses = update uses index (uses index + 1) := by
  funext i
  unfold recount
  rw [hat', update_apply, update_apply]
  by_cases hi : i = index
  · subst hi
    simp [hat]
  · simp only [if_neg hi]
    rw [if_neg]
    rintro ⟨hsome, hnone⟩
    rw [hnone] at hsome
    exact nomatch hsome

/-- Connections are only removed. -/
def Shrinks (p p' : Registry) : Prop :=
  ∀ i conn, p'.slab.at? i = some conn → p.slab.at? i = some conn

lemma recount_recount {p'' : Registry} (h : p.Shrinks p') (h' : p'.Shrinks p'') (uses : ℕ → ℕ) :
    p'.recount p'' (p.recount p' uses) = p.recount p'' uses := by
  funext i
  unfold recount
  cases hat'' : p''.slab.at? i with
  | some conn =>
    rw [h' i conn hat'']
    simp
  | none =>
    cases hat' : p'.slab.at? i with
    | some conn => simp [h i conn hat']
    | none => simp

lemma Consistent.removeAll (h : p.Consistent uses) (indices : List UInt32) :
    (p.removeAll indices).Consistent (p.recount (p.removeAll indices) uses) ∧
      p.Shrinks (p.removeAll indices) ∧
      ∀ index ∈ indices, (p.removeAll indices).slab.at? index.toNat = none := by
  induction indices generalizing p uses with
  | nil =>
    refine ⟨?_, fun _ _ hat => hat, by simp⟩
    show p.Consistent (p.recount p uses)
    rw [recount_self]
    exact h
  | cons index indices ih =>
    have hall : p.removeAll (index :: indices) =
        (((p.removeWithoutCancel index).map Prod.fst).getD p).removeAll indices := rfl
    rw [hall]
    cases hremove : p.removeWithoutCancel index with
    | none =>
      obtain ⟨hcons, hshrinks, hgone⟩ := ih h
      refine ⟨hcons, hshrinks, fun index' hmem => ?_⟩
      rcases List.mem_cons.mp hmem with rfl | hmem
      · -- it was not there
        cases hat : (p.removeAll indices).slab.at? index'.toNat with
        | none => exact hat
        | some conn =>
          obtain ⟨p', hsome⟩ := removeWithoutCancel_of_at? (hshrinks _ conn hat)
          exact nomatch hremove.symm.trans hsome
      · exact hgone index' hmem
    | some taken =>
      obtain ⟨p', conn⟩ := taken
      obtain ⟨hat, hat', -, hcons'⟩ := h.remove hremove
      rw [← recount_remove hat hat'] at hcons'
      obtain ⟨hcons, hshrinks, hgone⟩ := ih hcons'
      have hfirst : p.Shrinks p' := fun i conn' hconn' => by
        rw [hat', update_apply] at hconn'
        exact (ite_none_left_eq_some.mp hconn').2
      rw [recount_recount hfirst hshrinks] at hcons
      refine ⟨hcons, fun i conn' hconn' => hfirst i conn' (hshrinks i conn' hconn'), ?_⟩
      intro index' hmem
      rcases List.mem_cons.mp hmem with rfl | hmem
      · cases hlast : (p'.removeAll indices).slab.at? index'.toNat with
        | none => exact hlast
        | some conn' =>
          have hself := hshrinks _ conn' hlast
          rw [hat', update_self] at hself
          exact nomatch hself
      · exact hgone index' hmem

/-- At the end everything is removed. -/
lemma Consistent.removeAll_occupied (h : p.Consistent uses) (i : ℕ) :
    (p.removeAll p.occupied).slab.at? i = none := by
  obtain ⟨-, hshrinks, hgone⟩ := h.removeAll p.occupied
  cases hat : (p.removeAll p.occupied).slab.at? i with
  | none => rfl
  | some conn =>
    have hold := hshrinks i conn hat
    have hmem : i.toUInt32 ∈ p.occupied :=
      List.mem_map_of_mem (List.mem_filter.mpr
        ⟨List.mem_range.mpr (Lib.Slab.lt_length hold), by rw [hold]; rfl⟩)
    have hnone := hgone _ hmem
    rw [toNat_toUInt32 (h.lt hold)] at hnone
    exact nomatch hat.symm.trans hnone

end Registry

end Rusquitto
