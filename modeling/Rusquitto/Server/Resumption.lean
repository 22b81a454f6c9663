import Rusquitto.Server.Handover
import Rusquitto.Server.Outflow
import Rusquitto.Server.Standing

/-!
# What becomes of a backlog that is resumed

`resume_delivery` has taken the session's offline queue over and goes through it with `?`, so an
error drops the rest of the queue with the iterator (`Connection.FailsAfter`). What was handed on
before is kept when the connection closes, in its order (`Progress`). The backlog as a whole is kept
exactly when no message of QoS > 0 is after the error (`failed_resume_keeps_backlog_iff`).
-/

namespace Rusquitto

open List
open Server (heldBy openEnv)

namespace Connection

variable {env : Env} {c c' c'' : Connection}

/-! ### How far the queue is handed on -/

/-- The points at which `resume_delivery` returns an error, with `before` handed on and `after` not:
a retransmission cannot be encoded, a flush fails, or the next delivery cannot be encoded. -/
inductive FailsAfter (env : Env) (c : Connection) (flushFails : Option ℕ)
    (before after : List Delivery) : Prop where
  | retransmission {e : ConnError} (nothing : before = [])
      (fails : (c.retransmit env (env.iterOrder c.inflight.keys)).2 = .error e)
  | flush (point : flushFails = some before.length)
      (fails : (c.resumeDelivery env flushFails before).2 = .error ⟨.broken, "write failed"⟩)
  | encode {d : Delivery} {rest : List Delivery} {c' : Connection} {e : ConnError}
      (next : after = d :: rest) (handed : c.resumeDelivery env flushFails before = (c', .ok ()))
      (fails : (c'.replay env d).2 = .error e)

/-- The deliveries that need an acknowledgement. -/
def needAck (queue : List Delivery) : List Delivery :=
  queue.filter (·.qos ≠ .atMostOnce)

/-- Deliveries are handed on: each message of QoS > 0 is in flight, held back, or dropped on
purpose. The first ones went out as long as the window had room; those after them are held back in
their order, less the oldest if there are too many. -/
structure Progress (c c' : Connection) (done : List Delivery) : Prop where
  window : c'.outboundWindow = c.outboundWindow
  once : ∃ dropped, c'.ledger.dropped = c.ledger.dropped + dropped ∧
    c'.held + dropped = c.held + unsent done
  order : ∃ first later sent, needAck done = first ++ later ∧ (c.hasRoom = false → first = []) ∧
    (later ≠ [] → c'.hasRoom = false) ∧ sent.Sublist first ∧
    unacked c'.inflight = unacked c.inflight + unsent sent ∧
    c'.pendingOutbound <:+ c.pendingOutbound ++ later

lemma Progress.of_eq (hwindow : c'.outboundWindow = c.outboundWindow)
    (hdropped : c'.ledger.dropped = c.ledger.dropped) (hinflight : c'.inflight = c.inflight)
    (hpending : c'.pendingOutbound = c.pendingOutbound) : Progress c c' [] where
  window := hwindow
  once := ⟨0, by rw [hdropped, add_zero], by rw [held, hinflight, hpending, unsent_nil, held]⟩
  order := by
    refine ⟨[], [], [], rfl, fun _ => rfl, fun h => absurd rfl h, .slnil, ?_, ?_⟩
    · rw [hinflight, unsent_nil, add_zero]
    · exact ⟨[], by rw [hpending, append_nil, nil_append]⟩

lemma unsent_needAck (queue : List Delivery) : unsent (needAck queue) = unsent queue := by
  simp [unsent, needAck]

/-! ### One delivery -/

lemma outboundWindow_of_standing (h : c'.standing = c.standing) :
    c'.outboundWindow = c.outboundWindow := by
  have hmax : c'.peerReceiveMax = c.peerReceiveMax := congrArg Standing.peerReceiveMax h
  have hlimits : c'.limits = c.limits := congrArg Standing.limits h
  rw [outboundWindow, hmax, hlimits, outboundWindow]

/-- What one attempt to send did to the accounts, and how it ended. -/
inductive Attempt (c : Connection) (message : Multiset Publish) (r : Connection × Outcome) :
    Prop where
  /-- The message is in flight. -/
  | sent (ok : r.2 = .ok ()) (ledger : r.1.ledger = c.ledger)
      (inflight : unacked r.1.inflight = unacked c.inflight + message)
  /-- The message is larger than the client accepts. -/
  | dropped (ok : r.2 = .ok ())
      (ledger : r.1.ledger = { c.ledger with dropped := c.ledger.dropped + message })
      (inflight : r.1.inflight = c.inflight)
  /-- The message could not be encoded. -/
  | failed {e : ConnError} (error : r.2 = .error e)
      (ledger : r.1.ledger = { c.ledger with failed := c.ledger.failed + message })
      (inflight : r.1.inflight = c.inflight)

lemma attempt_transmit (env : Env) (c : Connection) (message : Publish)
    (stage : Option InflightState) (hfree : stage.isSome → message.pkid ∉ c.inflight) :
    Attempt c (counted message stage) (c.transmit env message stage) := by
  unfold transmit
  generalize c.applyAlias message = aliased
  obtain ⟨aliases, onWire, newlyAliased⟩ := aliased
  dsimp only
  split
  · exact .failed rfl rfl rfl
  · split
    · exact .dropped rfl rfl rfl
    · cases stage with
      | none => exact .sent rfl rfl (add_zero _).symm
      | some state => exact .sent rfl rfl (unacked_insert_of_notMem (hfree rfl) ⟨message, state⟩)

lemma attempt_sendPublish (env : Env) {d : Delivery} (hroom : d.qos = .atMostOnce ∨ c.hasRoom =
    true) :
    Attempt c (unsent [d]) (c.sendPublish env d) := by
  -- QoS > 0: the packet id is new
  have hfresh (state : InflightState) (hne : d.qos ≠ .atMostOnce) :
      Attempt c (unsent [d]) (transmit env { c with nextPkid := c.allocPkid }
        { d.outgoing with pkid := c.allocPkid } (some state)) := by
    have hpkid := (allocPkid_spec (length_lt_of_hasRoom (hroom.resolve_left hne))).1
    have hone : unsent [d] = counted { d.outgoing with pkid := c.allocPkid } (some state) :=
      unsent_of_qos hne
    rw [hone]
    cases attempt_transmit env { c with nextPkid := c.allocPkid }
      { d.outgoing with pkid := c.allocPkid } (some state) fun _ => hpkid with
    | sent ok ledger inflight => exact .sent ok ledger inflight
    | dropped ok ledger inflight => exact .dropped ok ledger inflight
    | failed error ledger inflight => exact .failed error ledger inflight
  unfold sendPublish assignPkid
  cases hd : d.qos with
  | atMostOnce =>
    rw [unsent_of_atMostOnce hd]
    exact attempt_transmit env c { d.outgoing with pkid := 0 } none nofun
  | atLeastOnce => exact hfresh .qos1 (by rw [hd]; exact nofun)
  | exactlyOnce => exact hfresh .qos2Pending (by rw [hd]; exact nofun)

/-- Holding a delivery back takes it on. -/
lemma progress_holdBack (c : Connection) {d : Delivery} (hqos : d.qos ≠ .atMostOnce)
    (hfull : c.hasRoom = false) : Progress c (c.holdBack d) [d] := by
  have hneed : needAck [d] = [] ++ [d] := by simp [needAck, hqos]
  have honce : ∃ dropped, (c.holdBack d).ledger.dropped = c.ledger.dropped + dropped ∧
      (c.holdBack d).held + dropped = c.held + unsent [d] := by
    have hpending : unsent c.pendingOutbound =
        unsent (c.pendingOutbound.take 1) + unsent c.pendingOutbound.tail := by
      rw [← unsent_append, ← drop_one, take_append_drop]
    unfold holdBack
    split
    · refine ⟨unsent (c.pendingOutbound.take 1), rfl, ?_⟩
      simp only [held, unsent_append, hpending]
      abel
    · refine ⟨0, (add_zero _).symm, ?_⟩
      simp only [held, unsent_append, add_zero, add_assoc]
  refine ⟨?_, honce, [], [d], [], hneed, fun _ => rfl, fun _ => ?_, .slnil, ?_, ?_⟩
  · unfold holdBack
    split <;> rfl
  · unfold holdBack
    split <;> exact hfull
  · unfold holdBack
    split <;> exact (add_zero _).symm
  · unfold holdBack
    split
    · refine ⟨c.pendingOutbound.take 1, ?_⟩
      rw [← append_assoc, ← drop_one, take_append_drop]
    · exact suffix_refl _

/-- A delivery that goes through takes the message on, one that fails changes nothing. -/
lemma progress_deliver (env : Env) (c : Connection) (d : Delivery) :
    ((c.deliver env d).2 = .ok () ∧ Progress c (c.deliver env d).1 [d]) ∨
      (∃ e, (c.deliver env d).2 = .error e) ∧ Progress c (c.deliver env d).1 [] := by
  have hwindow := outboundWindow_of_standing (standing_deliver env c d)
  unfold deliver at hwindow ⊢
  split
  · next hroom =>
    rw [if_pos hroom] at hwindow
    have hpending := pendingOutbound_sendPublish env c d
    have hattempt := attempt_sendPublish env hroom
    generalize c.sendPublish env d = r at hwindow hpending hattempt ⊢
    -- what needs an acknowledgement went out because there was room
    have hneed : needAck [d] = [] ∧ unsent [d] = 0 ∨ needAck [d] = [d] ∧ c.hasRoom = true := by
      by_cases hqos : d.qos = .atMostOnce
      · exact .inl ⟨by simp [needAck, hqos], unsent_of_atMostOnce hqos⟩
      · exact .inr ⟨by simp [needAck, hqos], hroom.resolve_left hqos⟩
    have hgoes (sent : List Delivery) (hsent : sent.Sublist (needAck [d]))
        (hinflight : unacked r.1.inflight = unacked c.inflight + unsent sent) :
        ∃ first later sent, needAck [d] = first ++ later ∧ (c.hasRoom = false → first = []) ∧
          (later ≠ [] → r.1.hasRoom = false) ∧ sent.Sublist first ∧
          unacked r.1.inflight = unacked c.inflight + unsent sent ∧
          r.1.pendingOutbound <:+ c.pendingOutbound ++ later := by
      refine ⟨needAck [d], [], sent, (append_nil _).symm, fun hfull => ?_, fun h => absurd rfl h,
        hsent, hinflight, ?_⟩
      · rcases hneed with h | h
        · exact h.1
        · exact absurd (h.2.symm.trans hfull) Bool.noConfusion
      · exact ⟨[], by rw [hpending, append_nil, nil_append]⟩
    cases hattempt with
    | sent ok ledger inflight =>
      refine .inl ⟨ok, hwindow, ⟨0, by rw [ledger, add_zero], ?_⟩,
        hgoes (needAck [d]) (.refl _) (by rw [unsent_needAck, inflight])⟩
      rw [held, held, inflight, hpending]
      abel
    | dropped ok ledger inflight =>
      refine .inl ⟨ok, hwindow, ⟨unsent [d], by rw [ledger], ?_⟩,
        hgoes [] (nil_sublist _) (by rw [inflight, unsent_nil, add_zero])⟩
      rw [held, held, inflight, hpending]
    | failed error ledger inflight =>
      exact .inr ⟨⟨_, error⟩, .of_eq hwindow (by rw [ledger]) inflight hpending⟩
  · next hheld =>
    obtain ⟨hqos, hfull⟩ := not_or.mp hheld
    exact .inl ⟨rfl, c.progress_holdBack hqos (Bool.eq_false_iff.mpr hfull)⟩

/-! ### The whole queue -/

/-- The window is full when enough messages are in flight. -/
lemma hasRoom_eq (c : Connection) :
    c.hasRoom = decide ((unacked c.inflight).card < c.outboundWindow) := by
  rw [hasRoom, unacked, Multiset.coe_card, length_map]

/-- A full window stays full. -/
lemma Progress.full {done : List Delivery} (h : Progress c c' done) (hfull : c.hasRoom = false) :
    c'.hasRoom = false := by
  obtain ⟨_, _, sent, -, -, -, -, hinflight, -⟩ := h.order
  rw [hasRoom_eq, decide_eq_false_iff_not, not_lt] at hfull ⊢
  rw [h.window, hinflight, Multiset.card_add]
  omega

lemma Progress.trans {done done' : List Delivery} (h : Progress c c' done)
    (h' : Progress c' c'' done') : Progress c c'' (done ++ done') := by
  have hneed : needAck (done ++ done') = needAck done ++ needAck done' := filter_append ..
  refine ⟨h'.window.trans h.window, ?_, ?_⟩
  · obtain ⟨dropped, hdropped, hheld⟩ := h.once
    obtain ⟨dropped', hdropped', hheld'⟩ := h'.once
    refine ⟨dropped + dropped', by rw [hdropped', hdropped, add_assoc], ?_⟩
    rw [add_comm dropped, ← add_assoc, hheld', add_right_comm, hheld, unsent_append, add_assoc]
  obtain ⟨first, later, sent, hdone, hroom, hheld, hsent, hinflight, hpending⟩ := h.order
  obtain ⟨first', later', sent', hdone', hroom', hheld', hsent', hinflight', hpending'⟩ := h'.order
  have hqueue : c''.pendingOutbound <:+ c.pendingOutbound ++ (later ++ later') := by
    obtain ⟨old, hold⟩ := hpending
    rw [← append_assoc, ← hold, append_assoc]
    exact hpending'.trans (suffix_append _ _)
  have hflight : unacked c''.inflight = unacked c.inflight + unsent (sent ++ sent') := by
    rw [hinflight', hinflight, unsent_append, add_assoc]
  by_cases hlater : later = []
  · -- everything so far went out
    subst hlater
    refine ⟨first ++ first', later', sent ++ sent', ?_, fun hfull => ?_, hheld',
      hsent.append hsent',
      hflight, hqueue⟩
    · rw [hneed, hdone, hdone', append_nil, append_assoc]
    · rw [hroom hfull, hroom' (h.full hfull)]
      rfl
  · -- the window is full, so nothing goes out any more
    have hfull := hheld hlater
    obtain rfl := hroom' hfull
    obtain rfl := sublist_nil.mp hsent'
    refine ⟨first, later ++ later', sent, ?_, hroom, fun _ => h'.full hfull, hsent, ?_, hqueue⟩
    · rw [hneed, hdone, hdone', nil_append, append_assoc]
    · rw [hflight, append_nil]

lemma flushFull_eq_none {flushed : ℕ} {flushFails : Option ℕ}
    (h : c.flushFull env flushed flushFails = none) : flushFails = some 0 := by
  unfold flushFull at h
  split_ifs at h with hfull hzero
  exact hzero

/-- A flush that is still to fail comes one delivery later. -/
lemma flushFull_eq_some {flushed flushed' n : ℕ} {flushFails : Option ℕ}
    (h : c.flushFull env flushed flushFails = some (flushed', some n)) : flushFails =
      some (n + 1) := by
  have hlater : (flushFails.bind fun k => if k = 0 then none else some (k - 1)) = some n := by
    unfold flushFull at h
    split_ifs at h
    · exact (Prod.mk.inj (Option.some.inj h)).2
    · exact (Prod.mk.inj (Option.some.inj h)).2
  obtain ⟨k, rfl, hk⟩ := Option.bind_eq_some_iff.mp hlater
  split_ifs at hk with hzero
  have hpred := Option.some.inj hk
  exact congrArg some (by omega)

/-- The queue is handed on up to the error, if there is one. -/
lemma progress_replayAll (env : Env) (queue : List Delivery) (c : Connection) (flushed : ℕ)
    (flushFails : Option ℕ) {e : ConnError}
    (h : (c.replayAll env flushed flushFails queue).2 = .error e) : ∃ before after,
      queue = before ++ after ∧ Progress c (c.replayAll env flushed flushFails queue).1 before ∧
      ((∃ n, flushFails = some n ∧ before.length = n + 1 ∧
        (c.replayAll env flushed flushFails before).2 = .error ⟨.broken, "write failed"⟩) ∨
      ∃ d rest c' e, after = d :: rest ∧ c.replayAll env flushed flushFails before = (c', .ok ()) ∧
        (c'.replay env d).2 = .error e) := by
  induction queue generalizing c flushed flushFails with
  | nil => exact nomatch h
  | cons d rest ih =>
    have hone : ((c.replay env d).2 = .ok () ∧ Progress c (c.replay env d).1 [d]) ∨
        (∃ e, (c.replay env d).2 = .error e) ∧ Progress c (c.replay env d).1 [] := by
      have hentered : Progress c { c with ledger.replayed := c.ledger.replayed + unsent [d] } [] :=
        .of_eq rfl rfl rfl rfl
      rcases progress_deliver env { c with ledger.replayed := c.ledger.replayed + unsent [d] }
        d with
        ⟨hok, h⟩ | ⟨herror, h⟩
      · exact .inl ⟨hok, hentered.trans h⟩
      · exact .inr ⟨herror, hentered.trans h⟩
    obtain ⟨r, hr⟩ : ∃ r, c.replay env d = r := ⟨_, rfl⟩
    rw [hr] at hone
    obtain ⟨c₁, outcome⟩ := r
    rcases hone with ⟨rfl, hone⟩ | ⟨⟨e, rfl⟩, hone⟩
    · cases hflush : c₁.flushFull env flushed flushFails with
      | none =>
        have hfails (queue : List Delivery) : c.replayAll env flushed flushFails (d :: queue) =
            (c₁, .error ⟨.broken, "write failed"⟩) := by
          rw [replayAll, hr]
          simp only [andThen, hflush]
        refine ⟨[d], rest, rfl, by rwa [hfails], .inl ⟨0, flushFull_eq_none hflush, rfl, ?_⟩⟩
        rw [hfails]
      | some next =>
        obtain ⟨flushed', flushFails'⟩ := next
        have hgoes (queue : List Delivery) : c.replayAll env flushed flushFails (d :: queue) =
            c₁.replayAll env flushed' flushFails' queue := by
          rw [replayAll, hr]
          simp only [andThen, hflush]
        rw [hgoes] at h ⊢
        obtain ⟨before, after, rfl, hprogress, hpoint⟩ := ih c₁ flushed' flushFails' h
        refine ⟨d :: before, after, rfl, hone.trans hprogress, ?_⟩
        rw [hgoes]
        rcases hpoint with ⟨n, rfl, hlength, hfails⟩ | hencode
        · exact .inl ⟨n + 1, flushFull_eq_some hflush, congrArg (· + 1) hlength, hfails⟩
        · exact .inr hencode
    · refine ⟨[], d :: rest, rfl, ?_, .inr ⟨d, rest, c, e, rfl, rfl, congrArg Prod.snd hr⟩⟩
      rw [replayAll, hr]
      exact hone

/-- So it is by `resumeDelivery`. -/
lemma progress_resumeDelivery (env : Env) (c : Connection) (flushFails : Option ℕ)
    (queue : List Delivery) {e : ConnError} (h : (c.resumeDelivery env flushFails queue).2 =
      .error e) :
    ∃ before after, queue = before ++ after ∧ c.FailsAfter env flushFails before after ∧
      Progress c (c.resumeDelivery env flushFails queue).1 before := by
  have hagain : Progress c (c.retransmit env (env.iterOrder c.inflight.keys)).1 [] := by
    obtain ⟨_, _, -, h, -⟩ := retransmit_spec env (env.iterOrder c.inflight.keys) c
    rw [h]
    exact .of_eq rfl rfl rfl rfl
  obtain ⟨r, hr⟩ : ∃ r, c.retransmit env (env.iterOrder c.inflight.keys) = r := ⟨_, rfl⟩
  rw [hr] at hagain
  obtain ⟨c₁, outcome⟩ := r
  cases outcome with
  | error e =>
    refine ⟨[], queue, rfl, .retransmission rfl (congrArg Prod.snd hr), ?_⟩
    rw [resumeDelivery, hr]
    exact hagain
  | ok =>
    have hresume (queue : List Delivery) :
        c.resumeDelivery env flushFails queue = c₁.flushAndReplay env flushFails queue := by
      rw [resumeDelivery, hr]
      rfl
    rw [hresume] at h ⊢
    cases hflush : c₁.flushFull env 0 flushFails with
    | none =>
      have hfails (queue : List Delivery) : c₁.flushAndReplay env flushFails queue =
          (c₁, .error ⟨.broken, "write failed"⟩) := by
        rw [flushAndReplay, hflush]
      refine ⟨[], queue, rfl, .flush (flushFull_eq_none hflush) ?_, ?_⟩
      · rw [hresume, hfails]
      · rw [hfails]
        exact hagain
    | some next =>
      obtain ⟨flushed, flushFails'⟩ := next
      have hreplay (queue : List Delivery) : c₁.flushAndReplay env flushFails queue =
          c₁.replayAll env flushed flushFails' queue := by
        rw [flushAndReplay, hflush]
      rw [hreplay] at h ⊢
      obtain ⟨before, after, hqueue, hprogress, hpoint⟩ :=
        progress_replayAll env queue c₁ flushed flushFails' h
      refine ⟨before, after, hqueue, ?_, hagain.trans hprogress⟩
      rw [← hreplay, ← hresume] at hpoint
      rcases hpoint with ⟨n, rfl, hlength, hfails⟩ | ⟨d, rest, c', e, hnext, hhanded, hfails⟩
      · exact .flush (hlength ▸ flushFull_eq_some hflush) hfails
      · exact .encode hnext hhanded hfails

lemma needAck_eq_nil {queue : List Delivery} (h : unsent queue = 0) : needAck queue = [] := by
  simpa [unsent, needAck] using h

lemma unsent_eq_zero {queue : List Delivery} :
    unsent queue = 0 ↔ ∀ d ∈ queue, d.qos = .atMostOnce := by
  simp [unsent]

/-! ### After the connection has closed -/

/-- A session record has kept a backlog: what `c` had in flight and held back, the queue it was
handed, and what arrived meanwhile. Every message of QoS > 0 is in the in-flight snapshot or the
queue once, unless it was dropped on purpose, those that were sent first and the later ones in their
order. -/
structure KeepsBacklog (c : Connection) (queue arrived : List Delivery) (dropped : Multiset Publish)
    (session : Session) : Prop where
  once : heldBy session + dropped = c.held + unsent queue + unsent arrived
  order : ∃ first later sent waiting, needAck queue = first ++ later ∧ sent.Sublist first ∧
    unacked (session.snapshot.getD {}).inflight = unacked c.inflight + unsent sent ∧
    session.offlineQueue = waiting ++ arrived ∧ waiting <:+ c.pendingOutbound ++ later

/-- Let a connection's task end with an error of `resume_delivery`, wherever it strikes. The record
that the cleanup leaves behind has kept the backlog if and only if no delivery of QoS > 0 is after
that point. -/
theorem failed_resume_keeps_backlog_iff (env : Env) (c : Connection) (flushFails : Option ℕ)
    (queue : List Delivery) {e : ConnError}
    (herror : (c.resumeDelivery env flushFails queue).2 = .error e) {srv : Server} {id : ℕ}
    {session : Session}
    (hat : srv.taskAt id .ending = some (settle (c.resumeDelivery env flushFails queue)))
    (hname : c.clientId ≠ "") (hs : srv.shard.sessions.lookup c.clientId = some session)
    (hgen : session.generation = c.sessionGeneration) (hexpiry : c.sessionExpiry ≠ 0) :
    ∃ before after, queue = before ++ after ∧ c.FailsAfter env flushFails before after ∧
      ((∃ dropped session',
        (c.resumeDelivery env flushFails queue).1.ledger.dropped = c.ledger.dropped + dropped ∧
        (srv.close id).shard.sessions.lookup c.clientId = some session' ∧
        c.KeepsBacklog queue session.offlineQueue dropped session') ↔
      ∀ d ∈ after, d.qos = .atMostOnce) := by
  obtain ⟨done, rest, hqueue, hpoint, hprogress⟩ := progress_resumeDelivery env c flushFails
    queue herror
  refine ⟨done, rest, hqueue, hpoint, ?_⟩
  rw [← unsent_eq_zero]
  have hidentity := congrArg Standing.identity (standing_resumeDelivery env c flushFails queue)
  have hexpires : (c.resumeDelivery env flushFails queue).1.sessionExpiry = c.sessionExpiry :=
    congrArg Identity.sessionExpiry hidentity
  generalize c.resumeDelivery env flushFails queue = r at hat hprogress hidentity hexpires ⊢
  have hid : r.1.clientId = c.clientId := congrArg Identity.clientId hidentity
  have hgeneration : r.1.sessionGeneration = c.sessionGeneration :=
    congrArg Identity.sessionGeneration hidentity
  obtain ⟨phase, hsettled, -⟩ := Server.exists_settle_eq r
  rw [hsettled] at hat
  obtain ⟨closed, hclosed, -, -, hsnapshot, hoffline⟩ := Server.lookup_close hat (hid ▸ hname)
    (hid ▸ hs) (hgen.trans hgeneration.symm) (hexpires ▸ hexpiry)
  rw [show Connection.clientId _ = c.clientId from hid] at hclosed
  obtain ⟨dropped, hdropped, hmoved⟩ := hprogress.once
  have hheld : heldBy closed = r.1.held + unsent session.offlineQueue := by
    rw [heldBy, hsnapshot, hoffline, Option.getD_some, unsent_append, ← add_assoc]
    rfl
  have htotal : unsent queue = unsent done + unsent rest := by rw [hqueue, unsent_append]
  constructor
  · rintro ⟨dropped', session', hdropped', hlookup, hkept⟩
    obtain rfl := Option.some.inj (hclosed.symm.trans hlookup)
    obtain rfl := add_left_cancel (hdropped.symm.trans hdropped')
    -- what was handed on is all there is
    have hall := hkept.once
    rw [hheld, htotal, add_right_comm, hmoved, ← add_assoc] at hall
    have hsum := (add_right_cancel hall).symm
    rwa [add_eq_left] at hsum
  · intro hnone
    have hneed : needAck queue = needAck done := by
      rw [hqueue, needAck, filter_append]
      exact (congrArg _ (needAck_eq_nil hnone)).trans (append_nil _)
    obtain ⟨first, later, sent, hdone, -, -, hsent, hinflight, hpending⟩ := hprogress.order
    refine ⟨dropped, closed, hdropped, hclosed, ?_, first, later, sent, r.1.pendingOutbound,
      hneed.trans hdone, hsent, ?_, hoffline, hpending⟩
    · rw [hheld, htotal, hnone, add_zero, add_right_comm, hmoved]
    · rw [hsnapshot]
      exact hinflight

/-- A payload that fills the output buffer. -/
@[irreducible]
def bulky : List UInt8 := replicate flushThreshold 7

/-- A QoS 1 message with it. -/
def bulkyPublish : Publish := { topic := "t", qos := .atLeastOnce, payload := bulky }

def bulkyDelivery : Delivery :=
  { publish := bulkyPublish, qos := .atLeastOnce, retain := false, subIds := [] }

lemma exists_write_bulky : ∃ bytes,
    openEnv.wire.write { bulkyPublish with pkid := 1 } = .ok bytes ∧ flushThreshold ≤ bytes.length := by
  have hlength : (Publish.body { bulkyPublish with pkid := 1 }).length = flushThreshold + 6 := by
    have hbody : Publish.body { bulkyPublish with pkid := 1 } = [0, 1, 0x74, 0, 1, 0] ++ bulky := by
      have hfront : mqttStr "t" ++ beBytes 2 1 ++ (varInt 0 ++ []) =
        [0, 1, 0x74, 0, 1, 0] := by decide
      rw [← hfront]
      rfl
    rw [hbody, bulky, length_append, length_replicate, add_comm]
    rfl
  have hthreshold : flushThreshold = 16384 := rfl
  refine ⟨_, (if_neg (by omega)).trans (if_neg (by decide)), ?_⟩
  rw [length_append, hlength]
  omega

/-- A connection that has taken a session over. -/
def takenOver : Connection :=
  { Connection.new 0 0 {} .none with
    clientId := "a", sessionGeneration := 1, sessionExpiry := 100, connected := true }

/-- It has sent the message. -/
def sentBulky : Connection :=
  record
    { takenOver with
      ledger.replayed := 0 + unsent [bulkyDelivery]
      nextPkid := 1
      outbound := [.publish { bulkyPublish with pkid := 1 }]
      messagesSent := 1 }
    { bulkyPublish with pkid := 1 } (some .qos1)

lemma replay_bulky : takenOver.replay openEnv bulkyDelivery = (sentBulky, .ok ()) := by
  obtain ⟨bytes, hwrite, -⟩ := exists_write_bulky
  have hsend : takenOver.replay openEnv bulkyDelivery = transmit openEnv
      { takenOver with ledger.replayed := 0 + unsent [bulkyDelivery], nextPkid := 1 }
      { bulkyPublish with pkid := 1 } (some .qos1) := rfl
  have hplain (c : Connection) (h : c.peerTopicAliasMax = 0) (p : Publish) :
      c.applyAlias p = (c.aliases, p, none) := if_neg (by simp [h])
  rw [hsend, transmit, hplain _ rfl]
  simp only [hwrite]
  rfl

/-- The message fills the buffer, and the flush after it fails. -/
lemma resumeDelivery_bulky (rest : List Delivery) :
    takenOver.resumeDelivery openEnv (some 1) (bulkyDelivery :: rest) =
      (sentBulky, .error ⟨.broken, "write failed"⟩) := by
  have hfull : ¬ sentBulky.buffered openEnv 0 < flushThreshold := by
    obtain ⟨bytes, hwrite, hbytes⟩ := exists_write_bulky
    have hsum : sentBulky.buffered openEnv 0 =
        openEnv.replyLen (.publish { bulkyPublish with pkid := 1 }) + 0 := rfl
    rw [hsum, Env.replyLen, hwrite]
    exact Nat.not_lt.mpr hbytes
  change takenOver.replayAll openEnv 0 (some 0) _ = _
  rw [replayAll, replay_bulky]
  simp only [andThen, flushFull, if_neg hfull, if_true]

/-- The server on which `resumeDelivery` has ended so. -/
def brokenServer (r : Connection × Outcome) : Server :=
  { shard := { sessions := (∅ : HashMap String Session).insert "a" (.fresh 0 1) }
    tasks := Function.update (fun _ => none) 0 (some (settle r)) }

/-- One message is kept if there is no other. -/
theorem failed_resume_keeps_backlog_brokenServer :
    let r := takenOver.resumeDelivery openEnv (some 1) [bulkyDelivery]
    ∃ dropped session', r.1.ledger.dropped = takenOver.ledger.dropped + dropped ∧
      ((brokenServer r).close 0).shard.sessions.lookup "a" = some session' ∧
      takenOver.KeepsBacklog [bulkyDelivery] [] dropped session' := by
  have hresume := resumeDelivery_bulky []
  have hat : (brokenServer (takenOver.resumeDelivery openEnv (some 1) [bulkyDelivery])).taskAt 0
    .ending =
      some (settle (takenOver.resumeDelivery openEnv (some 1) [bulkyDelivery])) := by
    rw [hresume]
    rfl
  obtain ⟨before, after, hqueue, hpoint, hiff⟩ := @failed_resume_keeps_backlog_iff openEnv takenOver
    (some 1) [bulkyDelivery] _ (congrArg Prod.snd hresume) _ 0 (.fresh 0 1) hat (by decide) rfl rfl
    (by decide)
  apply hiff.mpr
  have hlength := congrArg length hqueue
  rw [length_append, length_singleton] at hlength
  have hagain : (takenOver.retransmit openEnv (openEnv.iterOrder takenOver.inflight.keys)).2 =
    .ok () := rfl
  rcases hpoint with ⟨-, hfails⟩ | ⟨hpoint, -⟩ | ⟨rfl, hhanded, hfails⟩
  · rw [hagain] at hfails
    contradiction
  · have hbefore := Option.some.inj hpoint
    rw [length_eq_zero_iff.mp (show after.length = 0 by omega)]
    exact fun _ h => absurd h not_mem_nil
  · -- the message can be encoded
    obtain rfl := length_eq_zero_iff.mp (show before.length = 0 by simp at hlength; omega)
    obtain rfl : takenOver = _ := congrArg Prod.fst hhanded
    obtain ⟨rfl, -⟩ := cons.inj hqueue
    rw [replay_bulky] at hfails
    contradiction

/-- Of two messages the second is in neither place, though nothing was dropped on purpose. -/
theorem failed_flush_loses_backlog :
    let r := takenOver.resumeDelivery openEnv (some 1) [bulkyDelivery, bulkyDelivery]
    (unsent [bulkyDelivery, bulkyDelivery]).card = 2 ∧ r.2 = .error ⟨.broken, "write failed"⟩ ∧
      r.1.ledger.acked = 0 ∧ r.1.ledger.dropped = 0 ∧ r.1.sessionExpiry = 100 ∧
      (((brokenServer r).close 0).shard.sessions.lookup "a").map (fun s => (heldBy s).card) =
        some 1 := by
  rw [resumeDelivery_bulky]
  exact ⟨rfl, rfl, rfl, rfl, rfl, rfl⟩

end Connection

end Rusquitto
