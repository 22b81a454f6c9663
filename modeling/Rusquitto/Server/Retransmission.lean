import Rusquitto.Server.Sending

/-!
# The order of retransmissions

`resume_delivery` goes through the in-flight table as a hash map is iterated, and then through the
offline queue. The retransmissions are sure to be in the order in which the messages were first sent
only if there is at most one of them (`retransmission_in_order_iff`, `retransmission_reversed`).
-/

namespace Rusquitto

open List

namespace Connection

variable {env : Env} {c : Connection} {a b : UInt16}

/-- The packet ids of the PUBLISH packets, in order. -/
def publishIds (packets : List Reply) : List UInt16 :=
  packets.filterMap fun
    | .publish p => some p.pkid
    | _ => none

/-- The message is in flight, its PUBLISH is not acknowledged, and it can be encoded. -/
def Resendable (env : Env) (c : Connection) (pkid : UInt16) : Prop :=
  ∃ entry bytes, c.inflight.lookup pkid = some entry ∧ entry.state ≠ .qos2Released ∧
    env.wire.write { entry.publish with pkid, dup := true } = .ok bytes

/-- What is written from one state of the output to the other are deliveries of the queue, in its
order. -/
def WritesInOrder (queue : List Delivery) (before after : List Reply) : Prop :=
  ∃ handed packets, handed.Sublist queue ∧ after = before ++ packets ∧
    List.Forall₂ (fun d packet => ∃ c : Connection, packet = .publish (c.onWire d)) handed packets

/-- What `resume_delivery` writes is in order: first PUBLISH packets are retransmitted in the order
`sent`, then deliveries of the queue go out in the queue's order. -/
structure ResumesInOrder (env : Env) (c : Connection) (sent : List UInt16) (flushFails : Option ℕ)
    (queue : List Delivery) : Prop where
  resent : ∃ packets, (c.retransmit env (env.iterOrder c.inflight.keys)).1.outbound =
    c.outbound ++ packets ∧ (publishIds packets).Sublist sent
  queued : WritesInOrder queue (c.retransmit env (env.iterOrder c.inflight.keys)).1.outbound
    (c.resumeDelivery env flushFails queue).1.outbound

/-! ### The queue -/

lemma WritesInOrder.nothing (queue : List Delivery) (out : List Reply) :
    WritesInOrder queue out out :=
  ⟨[], [], nil_sublist _, (append_nil _).symm, .nil⟩

lemma WritesInOrder.append {queue queue' : List Delivery} {out out' out'' : List Reply}
    (h : WritesInOrder queue out out') (h' : WritesInOrder queue' out' out'') :
    WritesInOrder (queue ++ queue') out out'' := by
  obtain ⟨handed, packets, hsub, hout, hwrites⟩ := h
  obtain ⟨handed', packets', hsub', hout', hwrites'⟩ := h'
  refine ⟨handed ++ handed', packets ++ packets', hsub.append hsub', ?_,
    rel_append hwrites hwrites'⟩
  rw [hout', hout, append_assoc]

/-- A delivery writes its packet, or nothing. -/
lemma writesInOrder_deliver (env : Env) (c : Connection) (d : Delivery) :
    WritesInOrder [d] c.outbound (c.deliver env d).1.outbound := by
  unfold deliver
  split
  · cases hsend : c.sendPublish env d with
    | mk c' outcome =>
      rcases (sendPublish_cases hsend).1 with h | ⟨h, -⟩
      · exact ⟨[d], _, .refl _, h, .cons ⟨_, rfl⟩ .nil⟩
      · exact h ▸ .nothing _ _
  · unfold holdBack
    split <;> exact .nothing _ _

lemma writesInOrder_replayAll (env : Env) (queue : List Delivery) (c : Connection) (flushed : ℕ)
    (flushFails : Option ℕ) :
    WritesInOrder queue c.outbound (c.replayAll env flushed flushFails queue).1.outbound := by
  induction queue generalizing c flushed flushFails with
  | nil => exact .nothing _ _
  | cons d rest ih =>
    have hone : WritesInOrder [d] c.outbound (c.replay env d).1.outbound :=
      writesInOrder_deliver env { c with ledger.replayed := c.ledger.replayed + unsent [d] } d
    unfold replayAll andThen
    generalize c.replay env d = r at hone
    obtain ⟨c₁, outcome⟩ := r
    have hstop : WritesInOrder (d :: rest) c.outbound c₁.outbound := hone.append (.nothing rest _)
    cases outcome with
    | error e => exact hstop
    | ok =>
      dsimp only
      split
      · exact hstop
      · exact hone.append (ih _ _ _)

/-- The queue comes after the retransmissions and in its order, whatever happens. -/
lemma writesInOrder_resumeDelivery (env : Env) (c : Connection) (flushFails : Option ℕ)
    (queue : List Delivery) :
    WritesInOrder queue (c.retransmit env (env.iterOrder c.inflight.keys)).1.outbound
      (c.resumeDelivery env flushFails queue).1.outbound := by
  unfold resumeDelivery andThen
  generalize c.retransmit env (env.iterOrder c.inflight.keys) = r
  split
  · change WritesInOrder queue r.1.outbound (flushAndReplay env r.1 flushFails queue).1.outbound
    obtain ⟨e, h⟩ | ⟨flushed, k, h⟩ := flushAndReplay_cases env r.1 flushFails queue
    · rw [h]
      exact .nothing _ _
    · rw [h]
      exact writesInOrder_replayAll env queue r.1 flushed k
  · exact .nothing _ _

/-! ### The retransmissions -/

lemma publishIds_again (c : Connection) (pkids : List UInt16) : publishIds (c.again pkids) =
      pkids.filter fun pkid => (c.inflight.lookup pkid).any (·.state ≠ .qos2Released) := by
  induction pkids with
  | nil => rfl
  | cons pkid pkids ih =>
    cases hentry : c.inflight.lookup pkid with
    | none => simp [again_cons_of_none hentry, hentry, ih]
    | some entry =>
      rw [again_cons_of_some hentry]
      unfold publishIds at ih ⊢
      by_cases hstate : entry.state = .qos2Released
      · simp [hentry, hstate, ih]
      · simp [hentry, hstate, ih]

/-- A message that can be sent again is. -/
lemma retransmit_resendable (h : Resendable env c a) (rest : List UInt16) :
    ∃ publish : Publish, publish.pkid = a ∧
      c.retransmit env (a :: rest) = (c.send (.publish publish)).retransmit env rest := by
  obtain ⟨entry, bytes, hentry, hstate, hbytes⟩ := h
  refine ⟨{ entry.publish with pkid := a, dup := true }, rfl, ?_⟩
  rw [retransmit, hentry]
  dsimp only at hbytes ⊢
  split
  · next hs => exact absurd hs hstate
  · rw [hbytes]
  · rw [hbytes]

/-- Two messages come out in the order of the iteration. -/
lemma sublist_of_resendable {sent rest : List UInt16} {packets : List Reply}
    (hout : (c.retransmit env (a :: b :: rest)).1.outbound = c.outbound ++ packets)
    (hsent : (publishIds packets).Sublist sent) (ha : Resendable env c a)
    (hb : Resendable env c b) : [a, b].Sublist sent := by
  obtain ⟨p, hp, hfirst⟩ := retransmit_resendable ha (b :: rest)
  have hb : Resendable env (c.send (.publish p)) b := hb
  obtain ⟨q, hq, hsecond⟩ := retransmit_resendable hb rest
  obtain ⟨done, _, -, hrest, -⟩ := retransmit_spec env rest
    ((c.send (.publish p)).send (.publish q))
  rw [hfirst, hsecond, hrest] at hout
  simp only [send, append_assoc, append_cancel_left_eq] at hout
  rw [← hout] at hsent
  refine List.Sublist.trans ?_ hsent
  rw [← hp, ← hq]
  exact (nil_sublist _).cons_cons _ |>.cons_cons _

/-- Two elements of a list without repetitions are in one order only. -/
lemma not_sublist_swap {l : List UInt16} (hl : l.Nodup) (hab : [a, b].Sublist l) :
    ¬[b, a].Sublist l := by
  intro hba
  induction l with
  | nil => cases hab
  | cons x l ih =>
    obtain ⟨hx, hl⟩ := nodup_cons.mp hl
    cases hab with
    | cons _ hab =>
      cases hba with
      | cons _ hba => exact ih hl hab hba
      | cons_cons _ _ => exact hx (hab.subset (by simp))
    | cons_cons _ hb =>
      cases hba with
      | cons _ hba => exact hx (hba.subset (by simp))
      | cons_cons _ _ => exact hx (singleton_sublist.mp hb)

/-- Whatever the order in which the in-flight table is iterated, the retransmissions come in the
order `sent` in which the messages were first sent, exactly if at most one message can be sent
again. They come before the queue, which keeps its order, in any case. -/
theorem retransmission_in_order_iff (env : Env) (c : Connection) {sent : List UInt16}
    (hnodup : sent.Nodup) (hsent : ∀ pkid ∈ c.inflight.keys, pkid ∈ sent) (flushFails : Option ℕ)
    (queue : List Delivery) :
    (∀ (iterOrder : List UInt16 → List UInt16) (hperm : ∀ keys, (iterOrder keys).Perm keys),
      ResumesInOrder { env with iterOrder, iterOrder_perm := hperm } c sent flushFails queue) ↔
    ∀ a b, Resendable env c a → Resendable env c b → a = b := by
  constructor
  · intro h a b ha hb
    by_contra hne
    have hkeys {x : UInt16} (hx : Resendable env c x) : x ∈ c.inflight.keys := by
      obtain ⟨entry, _, hentry, -⟩ := hx
      exact AList.mem_keys.mp (AList.lookup_isSome.mp (by rw [hentry]; rfl))
    -- an iteration that starts with `x` and `y`
    have hpair {x y : UInt16} (hxy : x ≠ y) (hx : Resendable env c x) (hy : Resendable env c y) :
        [x, y].Sublist sent := by
      have hy' : y ∈ c.inflight.keys.erase x := (List.mem_erase_of_ne (Ne.symm hxy)).mpr (hkeys hy)
      have hperm : (x :: y :: (c.inflight.keys.erase x).erase y).Perm c.inflight.keys :=
        ((List.perm_cons_erase hy').symm.cons x).trans (List.perm_cons_erase (hkeys hx)).symm
      obtain ⟨packets, hout, hsub⟩ := (h (fun keys => if keys = c.inflight.keys then
        x :: y :: (c.inflight.keys.erase x).erase y else keys) (fun keys => by
          split
          · next heq => exact heq ▸ hperm
          · exact .refl _)).resent
      dsimp only at hout
      rw [if_pos rfl] at hout
      exact sublist_of_resendable hout hsub hx hy
    exact not_sublist_swap hnodup (hpair hne ha hb) (hpair (Ne.symm hne) hb ha)
  · intro h iterOrder hperm
    refine ⟨?_, writesInOrder_resumeDelivery _ c flushFails queue⟩
    obtain ⟨done, rest, hdone, hout, -, hwritten⟩ :=
      retransmit_spec { env with iterOrder, iterOrder_perm := hperm } (iterOrder c.inflight.keys) c
    refine ⟨c.again done, congrArg Connection.outbound hout, ?_⟩
    have hmem (x : UInt16) (hx : x ∈ publishIds (c.again done)) :
        x ∈ c.inflight.keys ∧ Resendable env c x := by
      rw [publishIds_again, List.mem_filter, Option.any_eq_true] at hx
      obtain ⟨hx, entry, hentry, hstate⟩ := hx
      have hstate : entry.state ≠ .qos2Released := of_decide_eq_true hstate
      refine ⟨(hperm _).subset (hdone ▸ List.mem_append_left _ hx), ?_⟩
      obtain ⟨bytes, hbytes⟩ := hwritten { entry.publish with pkid := x, dup := true }
        (List.mem_filterMap.mpr ⟨x, hx, by rw [hentry, Option.map_some, if_neg hstate]⟩)
      exact ⟨entry, bytes, hentry, hstate, hbytes⟩
    have hids : (publishIds (c.again done)).Nodup := by
      rw [publishIds_again]
      have hall := (hperm _).nodup_iff.mpr c.inflight.keys_nodup
      rw [hdone] at hall
      exact (List.nodup_append.mp hall).1.filter _
    -- at most one packet is in any order
    match hl : publishIds (c.again done) with
    | [] => exact List.nil_sublist _
    | [x] => exact List.singleton_sublist.mpr (hsent x (hmem x (by simp [hl])).1)
    | x :: y :: _ =>
      rw [hl] at hids
      have hxy := h x y (hmem x (by simp [hl])).2 (hmem y (by simp [hl])).2
      simp [hxy] at hids

/-- One message in flight is retransmitted in order, before the queue. -/
theorem retransmission_in_order_one :
    let message : Publish := { qos := .atLeastOnce, topic := "t", payload := [], pkid := 7 }
    let c : Connection :=
      { mailboxTx := none, mailboxRx := 0, inflight := AList.singleton 7 ⟨message, .qos1⟩ }
    let queue : List Delivery := [⟨message, .atLeastOnce, false, []⟩,
      ⟨message, .atMostOnce, true, []⟩]
    (c.resumeDelivery Server.openEnv none queue).1.outbound.length = 3 ∧
      ResumesInOrder Server.openEnv c [7] none queue := by
  intro message c queue
  refine ⟨by decide, (retransmission_in_order_iff Server.openEnv c (List.nodup_singleton 7)
    (fun _ h => h) none queue).mpr (fun a b ha hb => ?_) id fun _ => .refl _⟩
  have hkey {x : UInt16} (hx : Resendable Server.openEnv c x) : x = 7 := by
    obtain ⟨entry, _, hentry, -⟩ := hx
    exact List.mem_singleton.mp (AList.mem_keys.mp (AList.lookup_isSome.mp (by rw [hentry]; rfl)))
  rw [hkey ha, hkey hb]

/-- Messages 1 and 2 are sent in this order. The session is resumed, and 2 is retransmitted before
1. -/
theorem retransmission_reversed :
    let d : Delivery := { publish := { qos := .atLeastOnce, topic := "t", payload := [] }
                          qos := .atLeastOnce }
    let fresh : Connection := { mailboxTx := none, mailboxRx := 0 }
    ∃ c, Flow Server.openEnv fresh [d, d] c ∧ publishIds c.outbound = [1, 2] ∧
      publishIds ((fresh.restore c.snapshot).resumeDelivery Server.openEnv none []).1.outbound =
        [2, 1] ∧
      ¬ResumesInOrder Server.openEnv (fresh.restore c.snapshot) [1, 2] none [] := by
  intro d fresh
  refine ⟨_, .step (.deliver d) (.step (.deliver d) .start rfl) rfl, rfl, rfl, fun h => ?_⟩
  obtain ⟨packets, hout, hsub⟩ := h.resent
  obtain rfl : _ = packets := hout
  exact absurd hsub (by decide)

end Connection

end Rusquitto
