import Rusquitto.Server.Wills

/-!
# What a piece of work can do

`Server.apply` decides by lookups, phases and guards whether a piece of work can be done at all, and
which of its branches is taken. `Server.Move` lists the outcomes with the facts that lead to them,
one constructor for each branch of the source, so that an invariant of runs is a case analysis over
constructors and never unfolds a guard (`Server.move_apply`).
-/

namespace Rusquitto

open Server

namespace Server

variable {env : Env} {srv : Server}

lemma tasks_of_taskAt {id : ℕ} {phase : Phase} {c : Connection}
    (h : srv.taskAt id phase = some c) : srv.tasks id = some c ∧ c.phase = phase := by
  simpa [taskAt, Option.filter_eq_some_iff] using h

/-- The connection at the end of its event loop, without a DISCONNECT or with one. -/
def ended (c : Connection) (last : List Reply) (will : Option Publish) : Connection :=
  { c with will, outbound := c.outbound ++ last, phase := .ending }

/-- What the event loop looks at besides the connection before it parks. -/
structure ParkAllowed (srv : Server) (id : ℕ) : Prop where
  channel : srv.shard.channels id = []
  mailboxOpen : srv.mailboxOpen id = true
  unparkTx : srv.shard.unparkTx.isSome = true
  shutdown : srv.shutdown = false

/-- The teardown of a connection: the shard afterwards, and whether the session was still its own.
-/
abbrev tearDown (srv : Server) (c : Connection) : ShardState × Bool :=
  srv.shard.closeSession srv.now c.clientId c.sessionGeneration c.sessionExpiry c.snapshot
    c.pendingOutbound

/-- A connection asks to park. -/
abbrev flipping (srv : Server) (c : Connection) : ShardState × Bool :=
  srv.shard.parkSession c.clientId c.sessionGeneration { nextPkid := c.nextPkid }

/-- The outcomes of a piece of work. -/
inductive Move (env : Env) (srv : Server) : ServerOp → Server → Prop where
  /-- The work cannot be done now. -/
  | idle (op : ServerOp) (hquiet : srv.fired op = []) : Move env srv op srv
  | elapse (nanos : ℕ) : Move env srv (.elapse nanos) { srv with now := srv.now + nanos }
  | accept (tlsIdentity : TlsIdentity) :
    Move env srv (.accept tlsIdentity)
      (srv.spawn fun id => .new id srv.shardId srv.limits tlsIdentity)
  | packet {id : ℕ} {c : Connection} (p : Packet) (chance : Chance) (hc : srv.tasks id = some c)
    (hphase : c.phase = .running) :
    Move env srv (.packet id p chance) (srv.finishTurn id (c.processOne env srv.shard chance p))
  | receive {id : ℕ} {c : Connection} {d : Delivery} {rest : List Delivery}
    (hc : srv.tasks id = some c) (hphase : c.phase = .running)
    (hchannel : srv.shard.channels id = d :: rest) :
    Move env srv (.receive id) (srv.finishTurn id
      (.ofConn { srv.shard with channels := Function.update srv.shard.channels id rest }
        (c.receive env d)))
  | hangUp {id : ℕ} {c : Connection} (why : HangUp) (last : List Reply) (hc : srv.tasks id = some c)
    (hphase : c.phase = .running) (hlast : last = [] ∨ last = [.disconnect .keepAliveTimeout]) :
    Move env srv (.hangUp id why) (srv.setTask id (some (ended c last c.will)))
  | mailboxClosed {id : ℕ} {c : Connection} (hc : srv.tasks id = some c)
    (hphase : c.phase = .running)
    (hopened : c.mailboxTx = none) (hempty : srv.shard.channels id = [])
    (hclosed : srv.mailboxOpen id = false) (hshutdown : srv.shutdown = false) :
    Move env srv (.mailboxClosed id) (srv.setTask id (some (ended c [] c.will)))
  | shutDownNoticed {id : ℕ} {c : Connection} (hc : srv.tasks id = some c)
    (hphase : c.phase = .running) (hopened : c.mailboxTx = none)
    (hempty : srv.shard.channels id = [])
    (hclosed : srv.mailboxOpen id = false) (hshutdown : srv.shutdown = true) :
    Move env srv (.mailboxClosed id)
      (srv.setTask id (some (ended c [.disconnect .serverShuttingDown] none)))
  /-- A peer does not have the session, and more replies are awaited. -/
  | claimGoesOn {id remaining : ℕ} {c : Connection} {assigned : Bool}
    {rest : List (Option MigratedSession)} (chance : Chance) (hc : srv.tasks id = some c)
    (hphase : c.phase = .claiming remaining assigned)
    (hreplies : srv.shard.claimReplies id = none :: rest) (hmore : 1 < remaining) :
    Move env srv (.claimReply id chance)
      { srv.setTask id (some { c with phase := .claiming (remaining - 1) assigned }) with
        shard := { srv.shard with claimReplies := Function.update srv.shard.claimReplies id rest } }
  | claimReply {id remaining : ℕ} {c : Connection} {assigned : Bool}
    {reply : Option MigratedSession}
    {rest : List (Option MigratedSession)} (chance : Chance) (hc : srv.tasks id = some c)
    (hphase : c.phase = .claiming remaining assigned)
    (hreplies : srv.shard.claimReplies id = reply :: rest) (hlast : reply.isSome ∨ remaining ≤ 1) :
    Move env srv (.claimReply id chance) (srv.finishTurn id
      (c.claimed env
        { srv.shard with claimReplies := Function.update srv.shard.claimReplies id rest } chance
        assigned reply))
  | claimTimeout {id remaining : ℕ} {c : Connection} {assigned : Bool} (chance : Chance)
    (hc : srv.tasks id = some c) (hphase : c.phase = .claiming remaining assigned) :
    Move env srv (.claimTimeout id chance)
      (srv.finishTurn id (c.claimed env srv.shard chance assigned none))
  /-- A connection without a client id has no session to release. -/
  | closeNameless {id : ℕ} {c : Connection} (hc : srv.tasks id = some c)
    (hphase : c.phase = .ending)
    (hname : c.clientId = "") : Move env srv (.close id) (srv.setTask id none)
  /-- The session is released, and there is no will, or it is not this connection's to publish. -/
  | closeQuiet {id : ℕ} {c : Connection} {shard : ShardState} {owned : Bool}
    (hc : srv.tasks id = some c) (hphase : c.phase = .ending) (hname : c.clientId ≠ "")
    (hclose : srv.tearDown c = (shard, owned)) (hwill : c.will = none ∨ owned = false) :
    Move env srv (.close id) { srv.setTask id none with shard }
  /-- The will is published next. -/
  | closeWill {id : ℕ} {c : Connection} {shard : ShardState} {will : Publish}
    (hc : srv.tasks id = some c) (hphase : c.phase = .ending) (hname : c.clientId ≠ "")
    (hclose : srv.tearDown c = (shard, true)) (hwill : c.will = some will)
    (hdelay : min c.willDelay c.sessionExpiry = 0) :
    Move env srv (.close id)
      { srv.setTask id (some { c.emptied with phase := .willing will }) with shard }
  /-- The will waits in the session. -/
  | closeArm {id : ℕ} {c : Connection} {shard : ShardState} {will : Publish}
    (hc : srv.tasks id = some c) (hphase : c.phase = .ending) (hname : c.clientId ≠ "")
    (hclose : srv.tearDown c = (shard, true)) (hwill : c.will = some will)
    (hdelay : min c.willDelay c.sessionExpiry ≠ 0) :
    Move env srv (.close id)
      { srv.setTask id none with
        shard := shard.armWill srv.now c.clientId c.sessionGeneration will
          (min c.willDelay c.sessionExpiry) }
  | publishWill {id : ℕ} {c : Connection} {will : Publish} (chance : Chance)
    (hc : srv.tasks id = some c) (hphase : c.phase = .willing will) :
    Move env srv (.publishWill id chance)
      { srv.setTask id none with
        shard := srv.shard.deliverLocal env.hash will none
        links := srv.links ++ srv.shard.forwards chance.fullLinks will }
  /-- A newer connection has taken the session over: the socket is just closed. -/
  | parkDisplaced {id : ℕ} {c : Connection} {shard : ShardState} (dupFails : Bool)
    (hc : srv.tasks id = some c) (hphase : c.phase = .running) (hready : c.parkReady = true)
    (hguard : srv.ParkAllowed id)
    (hflip : srv.flipping c = (shard, false)) :
    Move env srv (.park id dupFails) { srv.setTask id none with shard }
  /-- The descriptor cannot be duplicated: a new task takes the connection up again. -/
  | parkFails {id : ℕ} {c : Connection} {shard : ShardState} (hc : srv.tasks id = some c)
    (hphase : c.phase = .running) (hready : c.parkReady = true) (hguard : srv.ParkAllowed id)
    (hflip : srv.flipping c = (shard, true)) :
    Move env srv (.park id true)
      ({ srv.setTask id none with shard }.spawn fun id =>
        .resume id srv.shardId srv.limits c.intoParts)
  | park {id : ℕ} {c : Connection} {shard : ShardState} (hc : srv.tasks id = some c)
    (hphase : c.phase = .running) (hready : c.parkReady = true) (hguard : srv.ParkAllowed id)
    (hflip : srv.flipping c = (shard, true)) :
    Move env srv (.park id false)
      { srv.setTask id none with shard, parking := srv.parking.park c.intoParts }
  | wakeMissed {clientId : String} {rest : List UnparkCmd}
    (hcmds : srv.shard.unparkTx = some (.wake clientId :: rest))
    (htaken : srv.parking.takeByClient clientId none = none) :
    Move env srv .parkingCmd { srv with shard := { srv.shard with unparkTx := some rest } }
  | wake {clientId : String} {rest : List UnparkCmd} {parking : Parking} {r : ResumeState}
    (hcmds : srv.shard.unparkTx = some (.wake clientId :: rest))
    (htaken : srv.parking.takeByClient clientId none = some (parking, r)) :
    Move env srv .parkingCmd
      ({ srv with parking, shard := { srv.shard with unparkTx := some rest } }.spawn fun id =>
        .resume id srv.shardId srv.limits r)
  | dismissMissed {clientId : String} {generation : ℕ} {rest : List UnparkCmd}
    (hcmds : srv.shard.unparkTx = some (.close clientId generation :: rest))
    (htaken : srv.parking.takeByClient clientId (some generation) = none) :
    Move env srv .parkingCmd { srv with shard := { srv.shard with unparkTx := some rest } }
  /-- A parked socket is closed for a newer connection. -/
  | dismiss {clientId : String} {generation : ℕ} {rest : List UnparkCmd} {parking : Parking}
    {r : ResumeState} (hcmds : srv.shard.unparkTx = some (.close clientId generation :: rest))
    (htaken : srv.parking.takeByClient clientId (some generation) = some (parking, r)) :
    Move env srv .parkingCmd
      { srv with parking, shard := { srv.shard with unparkTx := some rest } }
  | ingress {slot : ℕ} {parking : Parking} {r : ResumeState}
    (htaken : srv.parking.takeSlot slot = some (parking, r)) :
    Move env srv (.ingress slot)
      ({ srv with parking }.spawn fun id => .resume id srv.shardId srv.limits r)
  | reapQuiet {slot : ℕ} {parking : Parking} {r : ResumeState} {shard : ShardState} {owned : Bool}
    (chance : Chance) (htaken : srv.parking.takeSlot slot = some (parking, r))
    (hsuspend : srv.suspending r = (shard, owned)) (hwill : r.will = none ∨ owned = false) :
    Move env srv (.reap slot chance) { srv with parking, shard }
  | reapWill {slot : ℕ} {parking : Parking} {r : ResumeState} {shard : ShardState} {will : Publish}
    (chance : Chance) (htaken : srv.parking.takeSlot slot = some (parking, r))
    (hsuspend : srv.suspending r =
      (shard, true)) (hwill : r.will = some will) (hdelay : min r.willDelay r.sessionExpiry = 0) :
    Move env srv (.reap slot chance) ({ srv with parking, shard }.broadcast env chance will)
  | reapArm {slot : ℕ} {parking : Parking} {r : ResumeState} {shard : ShardState} {will : Publish}
    (chance : Chance) (htaken : srv.parking.takeSlot slot = some (parking, r))
    (hsuspend : srv.suspending r =
      (shard, true)) (hwill : r.will = some will) (hdelay : min r.willDelay r.sessionExpiry ≠ 0) :
    Move env srv (.reap slot chance)
      { srv with
        parking
        shard := shard.armWill srv.now r.clientId r.sessionGeneration will
          (min r.willDelay r.sessionExpiry) }
  /-- The session was taken over while the connection was waking up. -/
  | reattachLost {id : ℕ} {c : Connection} {shard : ShardState} (chance : Chance)
    (hc : srv.tasks id = some c) (hphase : c.phase = .resuming)
    (hreattach : srv.shard.reattachParked c.clientId c.sessionGeneration id = (shard, none)) :
    Move env srv (.reattach id chance)
      { srv.setTask id (some
          { c with mailboxTx := none, will := none, clientId := "", phase := .ending }) with shard }
  | reattach {id : ℕ} {c : Connection} {shard : ShardState} {snapshot : SessionSnapshot}
    {queued : List Delivery} (chance : Chance) (hc : srv.tasks id = some c)
    (hphase : c.phase = .resuming)
    (hreattach : srv.shard.reattachParked c.clientId c.sessionGeneration id =
      (shard, some (snapshot, queued))) :
    Move env srv (.reattach id chance) (srv.finishTurn id (.ofConn shard
      (({ c with mailboxTx := none, phase := .running }.restore snapshot).resumeDelivery env
        chance.flushFails queued)))
  | mesh (msg : MeshMsg) :
    Move env srv (.mesh msg) { srv with shard := srv.shard.handleMeshMsg env.hash msg }
  | publish (message : Publish) (chance : Chance) :
    Move env srv (.publish message chance) (srv.broadcast env chance message)
  | sweep {links : List (ℕ × Publish)} (chance : Chance)
    (hsweep : srv.sweep env chance = { srv with shard := srv.sweptShard env, links }) :
    Move env srv (.sweep chance) { srv with shard := srv.sweptShard env, links }
  | shed (order : List String) (max : ℕ) :
    Move env srv (.shed order max) { srv with shard := (srv.shard.shedConnections order max).1 }
  | load (sessions : List PersistedSession) :
    Move env srv (.load sessions) { srv with shard := srv.shard.loadSessions sessions srv.now }
  | drainWal : Move env srv .drainWal { srv with shard := srv.shard.drainWal }
  | shutDown : Move env srv .shutDown srv.shutDown

/-! ### Every piece of work has one of these outcomes -/

lemma move_mailboxClosed (env : Env) (srv : Server) (id : ℕ) :
    Move env srv (.mailboxClosed id) (srv.mailboxClosed id) := by
  unfold mailboxClosed
  split
  · exact .idle _ rfl
  · next c hat =>
    obtain ⟨hc, hphase⟩ := tasks_of_taskAt hat
    split
    · next hguard =>
      obtain ⟨hopened, hempty, hclosed⟩ := hguard
      cases hshutdown : srv.shutdown with
      | false =>
        have hmove : Move env srv (.mailboxClosed id) (srv.setTask id (some (ended c [] c.will))) :=
          .mailboxClosed hc hphase hopened hempty hclosed hshutdown
        rw [ended, List.append_nil] at hmove
        exact hmove
      | true => exact .shutDownNoticed hc hphase hopened hempty hclosed hshutdown
    · exact .idle _ rfl

lemma move_claimReply (env : Env) (srv : Server) (id : ℕ) (chance : Chance) :
    Move env srv (.claimReply id chance) (srv.claimReply env id chance) := by
  unfold claimReply
  split
  · next c reply rest hc hreplies =>
    split
    · next remaining assigned hphase =>
      split
      · next hlast => exact .claimReply chance hc hphase hreplies hlast
      · next hmore =>
        rw [not_or, Bool.not_eq_true, Option.isSome_eq_false_iff, Option.isNone_iff_eq_none,
          not_le] at hmore
        rw [hmore.1] at hreplies
        exact .claimGoesOn chance hc hphase hreplies hmore.2
    · exact .idle _ rfl
  · exact .idle _ rfl

lemma filter_eq_none_or {will : Option Publish} {owned : Bool} :
    (will.filter fun _ => owned) = none ↔ will = none ∨ owned = false := by
  cases will <;> simp

section

variable (env : Env) (srv : Server)

lemma move_close (id : ℕ) : Move env srv (.close id) (srv.close id) := by
  unfold close
  split
  · exact .idle _ rfl
  · next c hat =>
    obtain ⟨hc, hphase⟩ := tasks_of_taskAt hat
    split
    · next hname => exact .closeNameless hc hphase hname
    · next hname =>
      split
      next shard owned hclose =>
      split
      · next hnone => exact .closeQuiet hc hphase hname hclose (filter_eq_none_or.mp hnone)
      · next will hsome =>
        obtain ⟨hwill, rfl⟩ := Option.filter_eq_some_iff.mp hsome
        dsimp only
        split
        · next hdelay => exact .closeWill hc hphase hname hclose hwill hdelay
        · next hdelay => exact .closeArm hc hphase hname hclose hwill hdelay

lemma move_park (id : ℕ) (dupFails : Bool) :
    Move env srv (.park id dupFails) (srv.park id dupFails) := by
  unfold park
  split
  · exact .idle _ rfl
  · next c hat =>
    obtain ⟨hc, hphase⟩ := tasks_of_taskAt hat
    split
    · next hguard =>
      obtain ⟨hready, hchannel, hopen, htx, hshutdown⟩ := hguard
      have hguard : srv.ParkAllowed id := ⟨hchannel, hopen, htx, hshutdown⟩
      dsimp only
      split
      · next hflip => exact .parkDisplaced dupFails hc hphase hready hguard (Prod.ext rfl hflip)
      · next hflip =>
        rw [Bool.not_eq_false] at hflip
        cases dupFails with
        | true => exact .parkFails hc hphase hready hguard (Prod.ext rfl hflip)
        | false => exact .park hc hphase hready hguard (Prod.ext rfl hflip)
    · exact .idle _ rfl

lemma move_parkingCmd : Move env srv .parkingCmd srv.parkingCmd := by
  unfold parkingCmd
  split
  · next cmd rest hcmds =>
    dsimp only
    split
    · unfold wake
      split
      · next htaken => exact .wakeMissed hcmds htaken
      · next htaken => exact .wake hcmds htaken
    · split
      · next htaken => exact .dismissMissed hcmds htaken
      · next htaken => exact .dismiss hcmds htaken
  · exact .idle _ rfl

lemma move_reap (slot : ℕ) (chance : Chance) :
    Move env srv (.reap slot chance) (srv.reap env slot chance) := by
  unfold reap
  split
  · next htaken => exact .idle _ (by rw [fired, htaken])
  · next parking r htaken =>
    split
    next shard owned hsuspend =>
    dsimp only
    split
    · next hnone => exact .reapQuiet chance htaken hsuspend (filter_eq_none_or.mp hnone)
    · next will hsome =>
      obtain ⟨hwill, rfl⟩ := Option.filter_eq_some_iff.mp hsome
      split
      · next hdelay => exact .reapWill chance htaken hsuspend hwill hdelay
      · next hdelay => exact .reapArm chance htaken hsuspend hwill hdelay

lemma move_apply (op : ServerOp) : Move env srv op (srv.apply env op) := by
  cases op with
  | elapse nanos => exact .elapse nanos
  | accept tlsIdentity => exact .accept tlsIdentity
  | packet id p chance =>
    simp only [apply, packet]
    split
    · exact .idle _ rfl
    · next hat =>
      obtain ⟨hc, hphase⟩ := tasks_of_taskAt hat
      exact .packet p chance hc hphase
  | receive id =>
    simp only [apply, receive]
    split
    · next hat hchannel =>
      obtain ⟨hc, hphase⟩ := tasks_of_taskAt hat
      exact .receive hc hphase hchannel
    · exact .idle _ rfl
  | hangUp id why =>
    simp only [apply, hangUp]
    split
    · exact .idle _ rfl
    · next c hat =>
      obtain ⟨hc, hphase⟩ := tasks_of_taskAt hat
      split
      · exact .hangUp why _ hc hphase (.inr rfl)
      · have hmove : Move env srv (.hangUp id why) (srv.setTask id (some (ended c [] c.will))) :=
          .hangUp why [] hc hphase (.inl rfl)
        rw [ended, List.append_nil] at hmove
        exact hmove
  | mailboxClosed id => exact move_mailboxClosed env srv id
  | claimReply id chance => exact move_claimReply env srv id chance
  | claimTimeout id chance =>
    simp only [apply, claimTimeout]
    split
    · exact .idle _ rfl
    · next hc =>
      split
      · next hphase => exact .claimTimeout chance hc hphase
      · exact .idle _ rfl
  | close id => exact move_close env srv id
  | publishWill id chance =>
    simp only [apply, publishWill]
    split
    · next hnone => exact .idle _ (by rw [fired, hnone])
    · next c hc =>
      split
      · next hphase => exact .publishWill chance hc hphase
      · next hother =>
        refine .idle _ ?_
        simp only [fired, hc]
  | park id dupFails => exact move_park env srv id dupFails
  | parkingCmd => exact move_parkingCmd env srv
  | ingress slot =>
    simp only [apply, wake]
    split
    · exact .idle _ rfl
    · next htaken => exact .ingress htaken
  | reap slot chance => exact move_reap env srv slot chance
  | reattach id chance =>
    simp only [apply, reattach]
    split
    · exact .idle _ rfl
    · next c hat =>
      obtain ⟨hc, hphase⟩ := tasks_of_taskAt hat
      split
      · next hreattach => exact .reattachLost chance hc hphase hreattach
      · next hreattach => exact .reattach chance hc hphase hreattach
  | mesh msg => exact .mesh msg
  | publish message chance => exact .publish message chance
  | sweep chance =>
    obtain ⟨links, hsweep⟩ := srv.sweep_frame env chance
    show Move env srv _ (srv.sweep env chance)
    rw [hsweep]
    exact .sweep chance hsweep
  | shed order max => exact .shed order max
  | load sessions => exact .load sessions
  | drainWal => exact .drainWal
  | shutDown => exact .shutDown

end

end Server

end Rusquitto
