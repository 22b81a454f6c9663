import Rusquitto.Server.Records

/-!
# What becomes of a connection

The counterpart of `Server.Edit` on the side of the tasks: `Server.Heir` lists how a task that is
new, or not what it was, comes about while a server does a piece of work, and `Server.Move.heir`
says that every other task is as before. Parked connections only come from connections that park
(`Server.Move.parked`).
-/

namespace Rusquitto

open Connection Option

namespace Server

variable {env : Env} {srv srv' : Server} {op : ServerOp}

/-- How the task `id` comes to be what it is while `srv` does `op`. -/
inductive Heir (env : Env) (srv : Server) (op : ServerOp) (id : ℕ) : Connection → Prop where
  | accepted (tlsIdentity : TlsIdentity) (hop : op = .accept tlsIdentity) :
    Heir env srv op id (.new id srv.shardId srv.limits tlsIdentity)
  | processed {c : Connection} {p : Packet} {chance : Chance} (hop : op = .packet id p chance)
    (hc : srv.tasks id = some c) (hphase : c.phase = .running) :
    Heir env srv op id (settle ((c.processOne env srv.shard chance p).conn,
      (c.processOne env srv.shard chance p).outcome))
  | received {c : Connection} {d : Delivery} {rest : List Delivery} (hop : op = .receive id)
    (hc : srv.tasks id = some c) (hphase : c.phase = .running)
    (hchannel : srv.shard.channels id = d :: rest) :
    Heir env srv op id (settle (c.receive env d))
  /-- The event loop ends. -/
  | ended {c : Connection} (hc : srv.tasks id = some c) (hphase : c.phase = .running)
    {last : List Reply} (hlast : last = [] ∨ ∃ reason, last = [.disconnect reason])
    {will : Option Publish} (hwill : will = c.will ∨ will = none) :
    Heir env srv op id (ended c last will)
  | claimGoesOn {c : Connection} {remaining : ℕ} {assigned : Bool} (hc : srv.tasks id = some c)
    (hphase : c.phase = .claiming remaining assigned) (left : ℕ) :
    Heir env srv op id { c with phase := .claiming left assigned }
  /-- The claim is answered, or runs out of time. -/
  | claimed {c : Connection} {remaining : ℕ} {assigned : Bool} {chance : Chance}
    {reply : Option MigratedSession} {replies : ℕ → List (Option MigratedSession)}
    (hop : (op = .claimReply id chance ∧ ∃ rest, srv.shard.claimReplies id = reply :: rest) ∨
      op = .claimTimeout id chance ∧ reply = none)
    (hc : srv.tasks id = some c) (hphase : c.phase = .claiming remaining assigned) :
    Heir env srv op id (settle
      ((c.claimed env { srv.shard with claimReplies := replies } chance assigned reply).conn,
        (c.claimed env { srv.shard with claimReplies := replies } chance assigned reply).outcome))
  /-- The session is released and the will is published next. -/
  | willing {c : Connection} {will : Publish} (hop : op = .close id) (hc : srv.tasks id = some c)
    (hphase : c.phase = .ending) (hwill : c.will = some will)
    (howned : srv.shard.Current c.clientId c.sessionGeneration) :
      Heir env srv op id { c.emptied with phase := .willing will }
  /-- The descriptor could not be duplicated: a new task takes the connection up again. -/
  | unparked {id' : ℕ} {c : Connection} (hop : op = .park id' true) (hc : srv.tasks id' = some c)
    (hphase : c.phase = .running) (hready : c.parkReady = true)
    (howned : srv.shard.Current c.clientId c.sessionGeneration) :
    Heir env srv op id (.resume id srv.shardId srv.limits c.intoParts)
  | woken {slot : ℕ} {r : ResumeState} (hop : op = .parkingCmd ∨ op = .ingress slot)
    (hr : srv.parking.slots.lookup slot = some r) :
    Heir env srv op id (.resume id srv.shardId srv.limits r)
  | reattachLost {c : Connection} {chance : Chance} (hop : op = .reattach id chance)
    (hc : srv.tasks id = some c) (hphase : c.phase = .resuming) :
    Heir env srv op id
      { c with mailboxTx := none, will := none, clientId := "", phase := .ending }
  | reattached {c : Connection} {chance : Chance} {shard : ShardState} {snapshot : SessionSnapshot}
    {queued : List Delivery} (hop : op = .reattach id chance) (hc : srv.tasks id = some c)
    (hphase : c.phase = .resuming)
    (hreattach : srv.shard.reattachParked c.clientId c.sessionGeneration id =
      (shard, some (snapshot, queued))) :
    Heir env srv op id (settle
      (({ c with mailboxTx := none, phase := .running }.restore snapshot).resumeDelivery env
        chance.flushFails queued))

/-- A task after one was replaced, or ended. -/
lemma task_update {tasks : ℕ → Option Connection} {id id' : ℕ} {task : Option Connection}
    {c : Connection} (h : Function.update tasks id task id' = some c) :
    tasks id' = some c ∨ id' = id ∧ task = some c := by
  rw [Function.update_apply] at h
  split at h
  · next heq => exact .inr ⟨heq, h⟩
  · exact .inl h

/-- Every task is what it was, or has come about as listed. -/
lemma Move.heir (hmove : Move env srv op srv') {id : ℕ} {c : Connection}
    (h : srv'.tasks id = some c) : srv.tasks id = some c ∨ Heir env srv op id c := by
  -- the tasks that one task's turn leaves
  have hset {id' : ℕ} {task : Option Connection} (h : Function.update srv.tasks id' task id =
    some c)
      (htask : ∀ c', task = some c' → Heir env srv op id' c') :
      srv.tasks id = some c ∨ Heir env srv op id c := by
    rcases task_update h with hold | ⟨rfl, hnew⟩
    · exact .inl hold
    · exact .inr (htask c hnew)
  have hgone {id' : ℕ} (h : Function.update srv.tasks id' none id = some c) :
      srv.tasks id = some c ∨ Heir env srv op id c := hset h fun _ h => by exact nomatch h
  cases hmove with
  | accept tlsIdentity => exact hset h fun _ h => some.inj h ▸ .accepted tlsIdentity rfl
  | packet p chance hc hphase => exact hset h fun _ h => some.inj h ▸ .processed rfl hc hphase
  | receive hc hphase hchannel =>
    exact hset h fun _ h => some.inj h ▸ .received rfl hc hphase hchannel
  | hangUp why last hc hphase hlast =>
    exact hset h fun _ h => some.inj h ▸
      .ended hc hphase (hlast.imp_right fun h => ⟨_, h⟩) (.inl rfl)
  | mailboxClosed hc hphase =>
    exact hset h fun _ h => some.inj h ▸ .ended hc hphase (.inl rfl) (.inl rfl)
  | shutDownNoticed hc hphase =>
    exact hset h fun _ h => some.inj h ▸ .ended hc hphase (.inr ⟨_, rfl⟩) (.inr rfl)
  | claimGoesOn chance hc hphase =>
    exact hset h fun _ h => some.inj h ▸ .claimGoesOn hc hphase _
  | claimReply chance hc hphase hreplies =>
    exact hset h fun _ h => some.inj h ▸ .claimed (.inl ⟨rfl, _, hreplies⟩) hc hphase
  | claimTimeout chance hc hphase =>
    exact hset h fun _ h => some.inj h ▸
      @Heir.claimed env srv _ _ _ _ _ chance none srv.shard.claimReplies (.inr ⟨rfl, rfl⟩) hc hphase
  | closeWill hc hphase _ hclose hwill =>
    exact hset h fun _ h => some.inj h ▸ .willing rfl hc hphase hwill (.of_close hclose)
  | closeNameless | closeQuiet | closeArm | publishWill | parkDisplaced | park => exact hgone h
  | @parkFails id' c' shard hc hphase hready _ hflip =>
    rcases task_update h with hold | ⟨rfl, hnew⟩
    · exact hgone hold
    · exact .inr (some.inj hnew ▸ .unparked rfl hc hphase hready (.of_park hflip))
  | wake hcmds htaken =>
    obtain ⟨slot, hslot⟩ := takeByClient_spec htaken
    exact hset h fun _ h => some.inj h ▸ .woken (.inl rfl) (takeSlot_spec hslot).1
  | ingress htaken =>
    exact hset h fun _ h => some.inj h ▸ .woken (.inr rfl) (takeSlot_spec htaken).1
  | reattachLost chance hc hphase =>
    exact hset h fun _ h => some.inj h ▸ .reattachLost rfl hc hphase
  | reattach chance hc hphase hreattach =>
    exact hset h fun _ h => some.inj h ▸ .reattached rfl hc hphase hreattach
  | idle | elapse | wakeMissed | dismissMissed | dismiss | reapQuiet | reapWill | reapArm | mesh
  | publish | sweep | shed | load | drainWal | shutDown => exact .inl h

/-- Every parked connection was parked before, or parks now. -/
lemma Move.parked (hmove : Move env srv op srv') {slot : ℕ} {r : ResumeState}
    (h : srv'.parking.slots.lookup slot = some r) :
    srv.parking.slots.lookup slot = some r ∨ ∃ id c, op = .park id false ∧ srv.tasks id = some c ∧
      c.phase = .running ∧ c.parkReady = true ∧ r = c.intoParts ∧
      srv.shard.Current c.clientId c.sessionGeneration := by
  have htaken {parking : Parking} {slot' : ℕ} {r' : ResumeState}
      (htaken : srv.parking.takeSlot slot' = some (parking, r'))
      (h : parking.slots.lookup slot = some r) : srv.parking.slots.lookup slot = some r := by
    obtain ⟨-, hslots, -⟩ := takeSlot_spec htaken
    rw [hslots] at h
    rw [AList.lookup_erase_eq_ite] at h
    exact (ite_none_left_eq_some.mp h).2
  cases hmove with
  | park hc hphase hready _ hflip =>
    change (srv.parking.park _).slots.lookup slot = some r at h
    rw [Parking.park, AList.lookup_insert_eq_ite] at h
    split at h
    · exact .inr ⟨_, _, rfl, hc, hphase, hready, (some.inj h).symm, .of_park hflip⟩
    · exact .inl h
  | wake hcmds htaken' | dismiss hcmds htaken' =>
    obtain ⟨slot', hslot⟩ := takeByClient_spec htaken'
    exact .inl (htaken hslot h)
  | ingress htaken' | reapQuiet _ htaken' | reapWill _ htaken' | reapArm _ htaken' =>
    exact .inl (htaken htaken' h)
  | shutDown => exact nomatch h
  | idle | elapse | accept | packet | receive | hangUp | mailboxClosed |
    shutDownNoticed | claimGoesOn
  | claimReply | claimTimeout | closeNameless | closeQuiet | closeWill | closeArm | publishWill
  | parkDisplaced | parkFails | wakeMissed | dismissMissed | reattachLost | reattach |
    mesh | publish
  | sweep | shed | load | drainWal => exact .inl h

/-! ### The configuration -/

/-- The connections run under the configuration of their shard. -/
def Configured (srv : Server) : Prop :=
  ∀ id c, srv.tasks id = some c → c.config = (srv.limits, srv.shardId)

lemma Heir.config {id : ℕ} {c' : Connection} (h : Heir env srv op id c')
    (hconfig : srv.Configured) :
    c'.config = (srv.limits, srv.shardId) := by
  have hsettle (r : Connection × Outcome) : (settle r).config = r.1.config := by
    unfold settle
    split <;> rfl
  have hfrom {c : Connection} (hc : srv.tasks id = some c) (h : c'.config = c.config) :
      c'.config = (srv.limits, srv.shardId) := h.trans (hconfig id c hc)
  cases h with
  | accepted | unparked | woken => rfl
  | processed _ hc => exact hfrom hc ((hsettle _).trans (config_processOne ..))
  | received _ hc =>
    exact hfrom hc
      ((hsettle _).trans (config_of_standing (standing_receive ..)))
  | ended hc | claimGoesOn hc | willing _ hc | reattachLost _ hc => exact hfrom hc rfl
  | claimed _ hc => exact hfrom hc ((hsettle _).trans (config_of_standing (standing_claimed ..)))
  | reattached _ hc =>
    exact hfrom hc
      ((hsettle _).trans (config_of_standing (standing_resumeDelivery ..)))

lemma Move.config_eq (hmove : Move env srv op srv') :
    srv'.limits = srv.limits ∧ srv'.shardId = srv.shardId := by
  cases hmove <;> exact ⟨rfl, rfl⟩

lemma Move.configured (hmove : Move env srv op srv') (h : srv.Configured) : srv'.Configured := by
  intro id c hc
  rw [hmove.config_eq.1, hmove.config_eq.2]
  rcases hmove.heir hc with hold | hheir
  · exact h id c hold
  · exact hheir.config h

lemma Reached.configured {P : Server → ServerOp → Prop} {srv₀ : Server} (h₀ : srv₀.Started)
    (hrun : Reached env P srv₀ srv) : srv.Configured := by
  refine Lib.Reached.inv Configured (fun id c hc => ?_)
    (fun srv op h _ => (move_apply env srv op).configured h) hrun
  exact nomatch (h₀.tasks id).symm.trans hc

end Server

end Rusquitto
