import Rusquitto.Server.Runs

/-!
# Handing a session's state over

The durable QoS state of a session is in its record, or in the connection that speaks for it. A
CONNECT that resumes the session gets what the record holds, which is everything unless a connection
still speaks for it (`resume_hands_over_iff`). The cleanup of a connection stores all it took charge
of, but not what is left in its mailbox (`disconnect_conserves_iff`).
-/

namespace Rusquitto

/-- The durable QoS state of a session. -/
structure DurableState where
  inflight : HashMap UInt16 InflightMessage
  incomingQos2 : HashMap UInt16 Publish
  nextPkid : UInt16
  /-- The QoS > 0 deliveries not yet sent, oldest first. -/
  unsent : List Delivery

namespace DurableState

/-- The QoS > 0 deliveries of a queue. -/
def acknowledged (queue : List Delivery) : List Delivery :=
  queue.filter (·.qos ≠ .atMostOnce)

/-- A snapshot with a queue. -/
def ofSnapshot (snapshot : SessionSnapshot) (queue : List Delivery) : DurableState where
  inflight := snapshot.inflight
  incomingQos2 := snapshot.incomingQos2
  nextPkid := snapshot.nextPkid
  unsent := acknowledged queue

end DurableState

/-- What a CONNECT that resumes a session receives. -/
def SessionHandle.durable (handle : SessionHandle) : DurableState :=
  .ofSnapshot handle.snapshot handle.offlineQueue

instance (c : Connection) : Decidable c.Holds :=
  decidable_of_iff (c.clientId ≠ "" ∧ 0 < c.sessionGeneration ∧ c.phase.holding = true)
    ⟨fun ⟨h₁, h₂, h₃⟩ => ⟨h₁, h₂, h₃⟩, fun ⟨h₁, h₂, h₃⟩ => ⟨h₁, h₂, h₃⟩⟩

namespace Server

variable {env : Env} {srv : Server} {session : Session}

/-! ### Resuming -/

/-- What a resuming CONNECT receives is what the record holds. -/
lemma handle_openSession {s : ShardState} {k : String} (hs : s.sessions.lookup k = some session)
    (mailbox : ℕ) : (s.openSession k mailbox false).2.resumed = true ∧
      (s.openSession k mailbox false).2.durable =
        .ofSnapshot (session.snapshot.getD {}) session.offlineQueue := by
  rw [Connection.handle_of_resume hs]
  exact ⟨rfl, rfl⟩

/-- A client connects with a lasting session, subscribes to a topic, and is sent a message. -/
def subscribedOps : List ServerOp :=
  [.accept .none,
    .packet 0 (.connect
      { clientId := "a", cleanSession := false,
        properties := some { sessionExpiryInterval := some 100 } }) {},
    .packet 0 (.subscribe { pkid := 1, filters := [{ path := "t", qos := .atLeastOnce }] }) {},
    .mesh (.publish { topic := "t", qos := .atLeastOnce, payload := [7] })]

/-- The message is in the mailbox of the connection. -/
def deliveredServer : Server :=
  Lib.run (fun srv op => srv.apply openEnv op) freshServer subscribedOps

/-- The message is in flight. -/
def inflightServer : Server := deliveredServer.apply openEnv (.receive 0)

lemma inflightServer_reached : Reached openEnv (fun _ _ => True) freshServer inflightServer :=
  (Lib.reached_run freshServer subscribedOps).step (.receive 0) trivial

/-- The session of the client that was sent a message. -/
def inflightSession : Session := { mailbox := some 0, generation := 1 }

/-- The client hangs up. -/
def suspendedServer : Server :=
  Lib.run (fun srv op => srv.apply openEnv op) inflightServer [.hangUp 0 .eof, .close 0]

lemma suspendedServer_reached : Reached openEnv (fun _ _ => True) freshServer suspendedServer :=
  inflightServer_reached.run ⟨trivial, trivial, trivial⟩

/-- The deliveries placed in a connection's mailbox: those it took, and those still there. -/
def placed (srv : Server) (c : Connection) : List Delivery :=
  c.ledger.received ++ srv.shard.channels c.mailboxRx

/-- The QoS > 0 messages a suspended session holds, in its in-flight snapshot or its queue. -/
def heldBy (session : Session) : Multiset Publish :=
  unacked (session.snapshot.getD {}).inflight + unsent session.offlineQueue

/-- The record a connection leaves behind holds what the connection held. -/
lemma lookup_close {id : ℕ} {c : Connection} (hat : srv.taskAt id .ending = some c)
    (hname : c.clientId ≠ "") (hs : srv.shard.sessions.lookup c.clientId = some session)
    (hg : session.generation = c.sessionGeneration) (hexpiry : c.sessionExpiry ≠ 0) :
    ∃ session', (srv.close id).shard.sessions.lookup c.clientId = some session' ∧
      session'.mailbox = none ∧ session'.parked = session.parked ∧
      session'.snapshot = some c.snapshot ∧
      session'.offlineQueue = c.pendingOutbound ++ session.offlineQueue := by
  have hlookup := lookup_closeSession hs hg srv.now c.sessionExpiry c.snapshot c.pendingOutbound
  rw [if_neg hexpiry] at hlookup
  unfold Server.close
  rw [hat]
  dsimp only
  rw [if_neg hname]
  generalize srv.shard.closeSession srv.now c.clientId c.sessionGeneration c.sessionExpiry
    c.snapshot c.pendingOutbound = closed at hlookup ⊢
  split
  · exact ⟨_, hlookup, rfl, rfl, rfl, rfl⟩
  · split
    · exact ⟨_, hlookup, rfl, rfl, rfl, rfl⟩
    · -- a Will armed on the record leaves the state alone
      rw [lookup_armWill, hlookup, Option.map_some]
      exact ⟨_, congrArg some (if_pos hg), rfl, rfl, rfl, rfl⟩

/-- The cleanup of a connection that owns its session lets every message be held by the session,
once each, that the client has not acknowledged and no limit dropped, exactly when nothing with QoS
> 0 is left in the mailbox and no message failed to be encoded. -/
theorem disconnect_conserves_iff (env : Env) {srv₀ srv : Server} (h₀ : srv₀.Started)
    (hrun : Reached env (fun _ _ => True) srv₀ srv) {id : ℕ} {c : Connection} {session : Session}
    (hat : srv.taskAt id .ending = some c) (hname : c.clientId ≠ "")
    (hs : srv.shard.sessions.lookup c.clientId = some session)
    (hg : session.generation = c.sessionGeneration) (hexpiry : c.sessionExpiry ≠ 0) :
    ∃ session', (srv.apply env (.close id)).shard.sessions.lookup c.clientId = some session' ∧
      session'.mailbox = none ∧ session'.parked = false ∧
      (heldBy session' + c.ledger.acked + c.ledger.dropped =
          unsent (srv.placed c) + c.ledger.replayed + unsent session.offlineQueue ↔
        unsent (srv.shard.channels id) = 0 ∧ c.ledger.failed = 0) := by
  have h := Reached.inv h₀ hrun
  obtain ⟨hc, hphase⟩ := tasks_of_taskAt hat
  have hsound := h.sound id c hc
  have hholds : c.Holds :=
    ⟨hname, hg ▸ h.generation_pos _ session hs, by rw [hphase]; rfl⟩
  have hattached := h.attached id c session hc hholds hs hg
  obtain ⟨session', hs', hmailbox, hparked, hsnapshot, hqueue⟩ :=
    lookup_close hat hname hs hg hexpiry
  refine ⟨session', hs', hmailbox, hparked.trans hattached.parked, ?_⟩
  have hbalanced : c.owed = c.settled := hsound.balanced (by simp [hphase])
  have hheld : heldBy session' = c.held + unsent session.offlineQueue := by
    simp only [heldBy, hsnapshot, hqueue, Option.getD_some, unsent_append, Connection.held,
      Connection.snapshot, add_assoc]
  have hplaced : unsent (srv.placed c) = unsent c.ledger.received +
    unsent (srv.shard.channels id) := by
    rw [placed, unsent_append, hsound.mailboxRx]
  -- both sides are what the connection took charge of, up to what was left behind or failed
  have hleft : unsent (srv.placed c) + c.ledger.replayed + unsent session.offlineQueue =
      heldBy session' + c.ledger.acked + c.ledger.dropped +
        (unsent (srv.shard.channels id) + c.ledger.failed) := by
    calc unsent (srv.placed c) + c.ledger.replayed + unsent session.offlineQueue
        = c.owed + unsent (srv.shard.channels id) + unsent session.offlineQueue := by
          rw [hplaced, Connection.owed]
          abel
      _ = c.settled + unsent (srv.shard.channels id) + unsent session.offlineQueue := by
          rw [hbalanced]
      _ = _ := by
          rw [hheld, Connection.settled]
          abel
  rw [hleft, left_eq_add]
  exact add_eq_zero_iff_of_nonneg (Multiset.zero_le _) (Multiset.zero_le _)

/-- The client disconnects while a message waits in its mailbox. -/
def disconnectedServer : Server :=
  deliveredServer.apply openEnv (.packet 0 (.disconnect .normalDisconnection) {})

/-- The message is lost: it was placed in the mailbox, the client never saw it, and the suspended
session does not hold it. -/
theorem disconnect_loses_mailbox : ∃ c session session',
    Reached openEnv (fun _ _ => True) freshServer disconnectedServer ∧
      disconnectedServer.taskAt 0 .ending = some c ∧ c.clientId = "a" ∧ c.sessionExpiry = 100 ∧
      disconnectedServer.shard.sessions.lookup "a" = some session ∧
      session.generation = c.sessionGeneration ∧
      (disconnectedServer.apply openEnv (.close 0)).shard.sessions.lookup "a" = some session' ∧
      Multiset.card (unsent (disconnectedServer.placed c)) = 1 ∧
      c.ledger.acked = 0 ∧ c.ledger.dropped = 0 ∧ heldBy session' = 0 :=
  ⟨_, _, _, (Lib.reached_run freshServer subscribedOps).step _ trivial, rfl, rfl, rfl, rfl, rfl,
    rfl, rfl, rfl, rfl, rfl⟩

/-- The client hangs up with a message in flight. -/
def hungUpServer : Server := inflightServer.apply openEnv (.hangUp 0 .eof)

/-- A message in flight is kept. -/
theorem disconnect_conserves_hungUpServer : ∃ c session',
    hungUpServer.taskAt 0 .ending = some c ∧ Multiset.card (unsent (hungUpServer.placed c)) = 1 ∧
      (hungUpServer.apply openEnv (.close 0)).shard.sessions.lookup c.clientId = some session' ∧
      heldBy session' + c.ledger.acked + c.ledger.dropped =
        unsent (hungUpServer.placed c) + c.ledger.replayed + 0 := by
  have hrun : Reached openEnv (fun _ _ => True) freshServer hungUpServer :=
    inflightServer_reached.step (ServerOp.hangUp 0 .eof) trivial
  have hat : ∃ c, hungUpServer.taskAt 0 .ending = some c ∧ c.clientId = "a" ∧
      c.sessionGeneration = 1 ∧ c.sessionExpiry = 100 ∧ c.ledger.failed = 0 ∧
      Multiset.card (unsent (hungUpServer.placed c)) = 1 := ⟨_, rfl, rfl, rfl, rfl, rfl, rfl⟩
  obtain ⟨c, hat, hclient, hgen, hexpiry, hfailed, hcard⟩ := hat
  have hs : hungUpServer.shard.sessions.lookup c.clientId = some inflightSession := by
    rw [hclient]
    rfl
  obtain ⟨session', hs', -, -, hiff⟩ := disconnect_conserves_iff openEnv freshServer_started
    hrun hat
    (by simp [hclient]) hs hgen.symm (by rw [hexpiry]; decide)
  exact ⟨c, session', hat, hcard, hs', hiff.mpr ⟨rfl, hfailed⟩⟩

end Server

end Rusquitto
