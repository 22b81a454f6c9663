import Mathlib.Data.List.DropRight
import Rusquitto.Server.Pages

/-!
# The queues of absent clients

Routing drops the oldest delivery of a full queue. `close_session` puts the messages a connection
held back in front of the queue without that guard (`closing_overfills`). If whatever is put back
fits, every queue stays within the limit, and what goes is always the oldest
(`queues_stay_within_limit`).
-/

namespace Rusquitto

open ClientView List

/-! ### Pushing into a queue -/

/-- A push into a queue within the limit keeps the newest deliveries. -/
lemma pushBounded_eq_rtake {queue : List Delivery} (h : queue.length ≤ offlineQueueLimit)
    (d : Delivery) : pushBounded queue d = (queue ++ [d]).rtake offlineQueueLimit := by
  unfold pushBounded rtake
  rw [length_append, length_singleton]
  split
  · next hfull =>
    -- one delivery too many: the first one goes
    have hexcess : queue.length + 1 - offlineQueueLimit = 1 := by omega
    rw [hexcess, drop_one, tail_append_of_ne_nil]
    rintro rfl
    exact absurd hfull (by decide)
  · next hroom =>
    have hexcess : queue.length + 1 - offlineQueueLimit = 0 := by omega
    rw [hexcess, drop_zero]

/-- The queue in what a shard keeps about a client, if it has a session. -/
def ClientView.queue (v : ClientView) : Option (List Delivery) :=
  v.session.map (·.offlineQueue)

namespace Server

variable {env : Env} {srv₀ srv srv' : Server} {op : ServerOp} {k : String} {v v' : ClientView}

/-- The queue of a client, if it has a session. -/
def queueOf (srv : Server) (k : String) : Option (List Delivery) :=
  (srv.shard.sessions.lookup k).map (·.offlineQueue)

/-- What a closing connection puts back fits into the queue, and so does what is loaded. -/
def Fits (srv : Server) : ServerOp → Prop
  | .close id => ∀ c session, srv.tasks id = some c → c.phase = .ending →
    srv.shard.sessions.lookup c.clientId = some session → session.generation = c.sessionGeneration →
    c.sessionExpiry ≠ 0 →
    c.pendingOutbound.length + session.offlineQueue.length ≤ offlineQueueLimit
  | .load sessions => ∀ ps ∈ sessions, ps.session.offline.length ≤ offlineQueueLimit
  | _ => True

/-- A connection of the client takes its session over in `op`. -/
def Takes (srv : Server) (op : ServerOp) (k : String) : Prop :=
  ∃ id c chance, srv.tasks id = some c ∧
    ((∃ connect, op = .packet id (.connect connect) chance ∧
      c.connectingId srv.shard chance connect = k) ∨ op = .reattach id chance ∧ c.clientId = k)

/-- One change of a client's queue while `srv` does `op`. -/
inductive QueueMove (srv : Server) (op : ServerOp) (k : String) :
    Option (List Delivery) → Option (List Delivery) → Prop where
  /-- A delivery is appended, and the oldest ones go if there are too many. -/
  | push (queue : List Delivery) (d : Delivery) :
    QueueMove srv op k (some queue) (some ((queue ++ [d]).rtake offlineQueueLimit))
  /-- A closing connection puts back what it held back, and nothing goes. -/
  | putBack {id : ℕ} {c : Connection} (hop : op = .close id) (hc : srv.tasks id = some c)
    (hname : c.clientId = k) (queue : List Delivery) :
    QueueMove srv op k (some queue) (some (c.pendingOutbound ++ queue))
  /-- A connection takes the whole queue with the session, or starts it anew. -/
  | handOver (htakes : srv.Takes op k) (queue : Option (List Delivery)) :
    QueueMove srv op k queue (some [])
  /-- The session ends. -/
  | finish (queue : List Delivery) : QueueMove srv op k (some queue) none

/-- A queue within the limit, if there is one. -/
def Within (queue : Option (List Delivery)) : Prop :=
  ∀ list, queue = some list → list.length ≤ offlineQueueLimit

/-- One delivery leaves the queue alone, or is pushed. -/
lemma queue_delivered (v : ClientView) (d : Delivery) : (v.delivered d).queue = v.queue ∨
      ∃ queue, v.queue = some queue ∧ (v.delivered d).queue = some (pushBounded queue d) := by
  have hchange := v.change_delivered d
  generalize v.delivered d = v' at hchange ⊢
  cases hchange with
  | stays => exact .inl rfl
  | ends _ hover => exact hover.elim
  | @turns session hs =>
    refine .inr ⟨session.offlineQueue, ?_, rfl⟩
    rw [queue, hs]
    rfl

/-- An operation that does not look at the queue keeps it or ends it with the record. -/
lemma queue_change {gone guard : Session → Prop} {f : Session → Session}
    (h : v.Change gone guard f v') (hf : ∀ session, (f session).offlineQueue =
      session.offlineQueue) :
    v'.queue = v.queue ∨ v'.queue = none := by
  cases h with
  | stays => exact .inl rfl
  | ends => exact .inr rfl
  | turns hs =>
    refine .inl ?_
    rw [queue, queue, hs, Option.map_some, Option.map_some, hf]

/-- Deliveries are pushed one after the other. -/
lemma queue_received (srv : Server) (op : ServerOp) (k : String) (hv : Within v.queue)
    (h : ShardState.Receives v v') :
    Relation.ReflTransGen (srv.QueueMove op k) v.queue v'.queue ∧ Within v'.queue := by
  obtain ⟨deliveries, rfl⟩ := h
  induction deliveries generalizing v with
  | nil => exact ⟨.refl, hv⟩
  | cons d deliveries ih =>
    have hone : Relation.ReflTransGen (srv.QueueMove op k) v.queue (v.delivered d).queue ∧
        Within (v.delivered d).queue := by
      rcases queue_delivered v d with hsame | ⟨queue, hqueue, hpushed⟩
      · rw [hsame]
        exact ⟨.refl, hv⟩
      · have hle := hv queue hqueue
        rw [hpushed, hqueue]
        refine ⟨.single ?_, fun list hlist => ?_⟩
        · rw [pushBounded_eq_rtake hle]
          exact .push queue d
        · cases hlist
          rw [pushBounded_eq_rtake hle, rtake, length_drop]
          omega
    exact ⟨hone.1.trans (ih hone.2).1, (ih hone.2).2⟩

/-- What an edit does to the queue: nothing, or one of the listed moves, or a load. -/
lemma Edit.queue_cases (h : srv.Edit op k v v') :
    v'.queue = v.queue ∨ v'.queue = none ∨ ShardState.Receives v v' ∨
      srv.Takes op k ∧ v'.queue = some [] ∨
      (∃ id c session, op = .close id ∧ srv.tasks id = some c ∧ c.phase = .ending ∧ c.clientId = k ∧
        srv.shard.sessions.lookup k = some session ∧ session.generation = c.sessionGeneration ∧
        c.sessionExpiry ≠ 0 ∧ v.queue = some session.offlineQueue ∧
        v'.queue = some (c.pendingOutbound ++ session.offlineQueue)) ∨
      ∃ sessions, op = .load sessions ∧ ∃ ps ∈ sessions, v'.queue = some ps.session.offline := by
  cases h with
  | received hreceived => exact .inr (.inr (.inl hreceived))
  | marked | subscribed | unsubscribed | installed => exact .inl rfl
  | opened hop hc _ _ hname =>
    refine .inr (.inr (.inr (.inl ⟨⟨_, _, _, hc, .inl ⟨_, hop, hname⟩⟩, ?_⟩)))
    unfold ClientView.opened
    split
    · rfl
    · split <;> rfl
  | @closed id c hop hc hphase hname hfirst =>
    have hchange := v.change_closed srv.now c.sessionGeneration c.sessionExpiry c.snapshot
      c.pendingOutbound
    generalize v.closed _ _ _ _ _ = v' at hchange ⊢
    cases hchange with
    | stays => exact .inl rfl
    | ends => exact .inr (.inl rfl)
    | @turns session hs hguard =>
      refine .inr (.inr (.inr (.inr (.inl ⟨id, c, session, hop, hc, hphase, hname, ?_, hguard.1,
        hguard.2, ?_, rfl⟩))))
      · rw [← ShardState.session_view, ← hfirst, hs]
      · rw [queue, hs]
        rfl
  | @reattached id c chance hop hc hname =>
    have hchange := v.change_reattached c.sessionGeneration id
    generalize v.reattached _ _ = v' at hchange ⊢
    cases hchange with
    | stays => exact .inl rfl
    | ends _ hover => exact hover.elim
    | turns => exact .inr (.inr (.inr (.inl ⟨⟨_, _, _, hc, .inr ⟨hop, hname⟩⟩, rfl⟩)))
  | parked => exact (queue_change (v.change_parked ..) fun _ => rfl).imp_right .inl
  | suspended => exact (queue_change (v.change_suspended ..) fun _ => rfl).imp_right .inl
  | willArmed => exact (queue_change (v.change_willArmed ..) fun _ => rfl).imp_right .inl
  | swept =>
    refine (queue_change (v.change_swept _) fun session => ?_).imp_right .inl
    unfold Session.fireWill
    split <;> rfl
  | claimed => exact (queue_change v.change_claimed fun _ => rfl).imp_right .inl
  | shed => exact (queue_change v.change_shed fun _ => rfl).imp_right .inl
  | loaded hop hps => exact .inr (.inr (.inr (.inr (.inr ⟨_, hop, _, hps, rfl⟩))))

/-- An edit keeps a queue within the limit. -/
lemma Edit.within (h : srv.Edit op k v v') (hop : srv.Fits op) (hv : Within v.queue) :
    Within v'.queue := by
  rcases h.queue_cases with hsame | hnone | hreceived | ⟨-, hnil⟩ |
    ⟨id, c, session, rfl, hc, hphase, rfl, hs, hgeneration, hexpiry, -, hqueue⟩ |
    ⟨sessions, rfl, ps, hps, hqueue⟩
  · rwa [hsame]
  · rw [hnone]
    exact nofun
  · exact (queue_received srv op k hv hreceived).2
  · rw [hnil]
    rintro _ ⟨⟩
    exact Nat.zero_le _
  · rw [hqueue]
    rintro _ ⟨⟩
    rw [length_append]
    exact hop c session hc hphase hs hgeneration hexpiry
  · rw [hqueue]
    rintro _ ⟨⟩
    exact hop ps hps

/-- An edit changes a queue within the limit as listed. -/
lemma Edit.queueMoves (h : srv.Edit op k v v') (hload : ∀ sessions, op ≠ .load sessions)
    (hv : Within v.queue) : Relation.ReflTransGen (srv.QueueMove op k) v.queue v'.queue := by
  rcases h.queue_cases with hsame | hnone | hreceived | ⟨hop, hnil⟩ |
    ⟨id, c, session, hop, hc, -, hname, -, -, -, hbefore, hqueue⟩ | ⟨sessions, hop, -⟩
  · rw [hsame]
  · rw [hnone]
    cases v.queue with
    | none => exact .refl
    | some queue => exact .single (.finish queue)
  · exact (queue_received srv op k hv hreceived).1
  · rw [hnil]
    exact .single (.handOver hop _)
  · rw [hqueue, hbefore]
    exact .single (.putBack hop hc hname _)
  · exact absurd hop (hload sessions)

/-- One piece of work keeps the queues within the limit. -/
lemma Move.within (hmove : Move env srv op srv') (hop : srv.Fits op)
    (h : ∀ k, Within (srv.queueOf k)) (k : String) : Within (srv'.queueOf k) := by
  have hchain {v' : ClientView}
    (hedits : Relation.ReflTransGen (srv.Edit op k) (srv.shard.view k) v') :
      Within v'.queue := by
    induction hedits with
    | refl => exact h k
    | tail _ hedit ih => exact hedit.within hop ih
  exact hchain (hmove.edits k)

lemma Move.queueMoves (hmove : Move env srv op srv') (hop : srv.Fits op)
    (hload : ∀ sessions, op ≠ .load sessions) (h : ∀ k, Within (srv.queueOf k)) (k : String) :
    Relation.ReflTransGen (srv.QueueMove op k) (srv.queueOf k) (srv'.queueOf k) := by
  have hchain {v' : ClientView}
    (hedits : Relation.ReflTransGen (srv.Edit op k) (srv.shard.view k) v') :
      Within v'.queue ∧
        Relation.ReflTransGen (srv.QueueMove op k) (srv.shard.view k).queue v'.queue := by
    induction hedits with
    | refl => exact ⟨h k, .refl⟩
    | tail _ hedit ih => exact ⟨hedit.within hop ih.1, ih.2.trans (hedit.queueMoves hload ih.1)⟩
  exact (hchain (hmove.edits k)).2

/-- In every run in which what is put back by closing connections and what is loaded fits, every
queue is within the limit; and each further piece of work changes a queue by appends that keep the
newest deliveries, returns in front of it, and hand-overs of the whole. -/
theorem queues_stay_within_limit (h₀ : ∀ k, Within (srv₀.queueOf k))
    (hrun : Reached env Fits srv₀ srv) : (∀ k session, srv.shard.sessions.lookup k = some session →
      session.offlineQueue.length ≤ offlineQueueLimit) ∧
    ∀ op, srv.Fits op → (∀ sessions, op ≠ .load sessions) → ∀ k,
      Relation.ReflTransGen (srv.QueueMove op k) (srv.queueOf k)
        ((srv.apply env op).queueOf k) := by
  have hwithin : ∀ k, Within (srv.queueOf k) :=
    Lib.Reached.inv (fun srv => ∀ k, Within (srv.queueOf k)) h₀
      (fun srv op h hop => (move_apply env srv op).within hop h) hrun
  refine ⟨fun k session hs => hwithin k _ ?_, fun op hop hload =>
    (move_apply env srv op).queueMoves hop hload hwithin⟩
  rw [queueOf, hs]
  rfl

/-- A delivery of the topic `t`. -/
def heldMessage : Delivery where
  publish := { topic := "t", qos := .atLeastOnce, payload := [7] }
  qos := .atLeastOnce
  retain := false
  subIds := []

/-- A session with one message in flight and a queue of `n` deliveries. -/
def queuedSession (n : ℕ) : PersistedSession where
  clientId := "a"
  expirySecs := 60
  session :=
    { subscriptions := [{ filter := "t", qos := .atLeastOnce }]
      inflight := (∅ : HashMap UInt16 InflightMessage).insert 1 ⟨heldMessage.publish, .qos1⟩
      incomingQos2 := ∅
      nextPkid := 1
      offline := replicate n heldMessage }

/-- The client of such a session connects with a Receive Maximum of one, so that the whole queue is
held back, one more message arrives, and the connection is lost. -/
def crowdedServer (n : ℕ) : Server :=
  Lib.run (fun srv op => srv.apply openEnv op) freshServer
    [.load [queuedSession n], .accept .none,
      .packet 0 (.connect
        { clientId := "a", cleanSession := false,
          properties := some { sessionExpiryInterval := some 100, receiveMaximum := some 1 } }) {},
      .mesh (.publish { topic := "t", qos := .atLeastOnce, payload := [7] }), .receive 0,
      .hangUp 0 .eof]

/-- A short backlog comes back as the queue. -/
theorem queues_stay_within_limit_crowded :
    (((crowdedServer 2).apply openEnv (.close 0)).queueOf "a").map length = some 3 ∧
      ∀ k session, ((crowdedServer 2).apply openEnv (.close 0)).shard.sessions.lookup k =
        some session →
        session.offlineQueue.length ≤ offlineQueueLimit := by
  have hloaded : ∀ ps ∈ [queuedSession 2], ps.session.offline.length ≤
    offlineQueueLimit := by decide
  have hcrowded : Reached openEnv Fits freshServer (crowdedServer 2) :=
    Lib.Reached.start.run ⟨hloaded, trivial, trivial, trivial, trivial, trivial, trivial⟩
  have hclose : (crowdedServer 2).Fits (.close 0) := by
    intro c session hc _ hs _ _
    have hfits : ((crowdedServer 2).tasks 0).all fun c =>
        ((crowdedServer 2).shard.sessions.lookup c.clientId).all fun session =>
          c.pendingOutbound.length + session.offlineQueue.length ≤ offlineQueueLimit := by decide
    rw [hc, Option.all_some, hs, Option.all_some] at hfits
    exact of_decide_eq_true hfits
  have hempty (k : String) : Within (freshServer.queueOf k) := by
    have hnone : freshServer.queueOf k = none := rfl
    rw [hnone]
    exact nofun
  exact ⟨by decide, (queues_stay_within_limit hempty (hcrowded.step _ hclose)).1⟩

/-- With a full queue and one more message, the queue that the connection leaves behind is longer
than the limit. -/
theorem closing_overfills : Reached openEnv (fun _ _ => True) freshServer
      ((crowdedServer offlineQueueLimit).apply openEnv (.close 0)) ∧
    ((queuedSession offlineQueueLimit).session.offline.length = offlineQueueLimit) ∧
    (((crowdedServer offlineQueueLimit).apply openEnv (.close 0)).queueOf "a").map length =
      some (offlineQueueLimit + 1) :=
  ⟨(Lib.reached_run freshServer _).step _ trivial, length_replicate, by decide +kernel⟩

end Server

end Rusquitto
