import Rusquitto.Server.Records

/-!
# What a piece of work asks of the shard

Messages are routed by `deliverLocal` and by nothing else. `ShardState.Calls` takes a change of a
shard apart into the calls it was made by, with the messages that were routed on the way.
`Server.routed` names those messages for every piece of work, and `Server.routes_apply` says that it
names all of them.
-/

namespace Rusquitto

open ShardState Connection List

variable {shard : ShardState} {id : ℕ} {chance : Chance}

namespace ShardState

/-- A call that routes no message. -/
inductive Quiet (s : ShardState) : ShardState → Prop where
  | subscribe (filter c : String) (opts : SubOptions) : Quiet s (s.subscribe filter c opts).1
  | unsubscribe (filter c : String) (group : Option String) :
    Quiet s (s.unsubscribe filter c group).1
  | assignId (n : ℕ) : Quiet s { s with nextAssignedId := n }
  | openSession (c : String) (mailbox : ℕ) (cleanStart : Bool) :
    Quiet s (s.openSession c mailbox cleanStart).1
  | broadcastClaim (c : String) (resume : Bool) : Quiet s (s.broadcastClaim c resume)
  | registerClaim (c : String) (channel : ℕ) : Quiet s (s.registerClaim c channel)
  | unregisterClaim (c : String) : Quiet s (s.unregisterClaim c)
  | installMigrated (c : String) (migrated : MigratedSession) :
    Quiet s (s.installMigrated c migrated).1
  | closeSession (now : ℕ) (c : String) (generation : ℕ) (expirySecs : UInt32)
    (snapshot : SessionSnapshot) (pending : List Delivery) :
    Quiet s (s.closeSession now c generation expirySecs snapshot pending).1
  | armWill (now : ℕ) (c : String) (generation : ℕ) (will : Publish) (delaySecs : UInt32) :
    Quiet s (s.armWill now c generation will delaySecs)
  | parkSession (c : String) (generation : ℕ) (snapshot : SessionSnapshot) :
    Quiet s (s.parkSession c generation snapshot).1
  | suspendParked (now : ℕ) (c : String) (generation : ℕ) (expirySecs : UInt32) :
    Quiet s (s.suspendParked now c generation expirySecs).1
  | reattachParked (c : String) (generation mailbox : ℕ) :
    Quiet s (s.reattachParked c generation mailbox).1
  | onControl (control : SessionControl) : Quiet s (s.onControl control)
  | applySharedEvent (event : SharedEvent) : Quiet s (s.applySharedEvent event)
  | sweepExpired (now : ℕ) : Quiet s (s.sweepExpired now).1
  | shedConnections (order : List String) (max : ℕ) : Quiet s (s.shedConnections order max).1
  | shutdownConnections : Quiet s s.shutdownConnections
  | loadSessions (sessions : List PersistedSession) (now : ℕ) :
    Quiet s (s.loadSessions sessions now)
  | drainWal : Quiet s s.drainWal
  /-- A message is taken from a mailbox. -/
  | receive {id : ℕ} {d : Delivery} {rest : List Delivery} (h : s.channels id = d :: rest) :
    Quiet s { s with channels := Function.update s.channels id rest }
  | receiveReply {id : ℕ} {reply : Option MigratedSession} {rest : List (Option MigratedSession)}
    (h : s.claimReplies id = reply :: rest) :
    Quiet s { s with claimReplies := Function.update s.claimReplies id rest }
  /-- The parking task takes a command. -/
  | takeCmd {cmd : UnparkCmd} {rest : List UnparkCmd} (h : s.unparkTx = some (cmd :: rest)) :
    Quiet s { s with unparkTx := some rest }

/-- A change of the shard, taken apart into calls. The messages are those that were routed, in
order. -/
inductive Calls (hash : ContentHash) : ShardState → List Publish → ShardState → Prop where
  | done (s : ShardState) : Calls hash s [] s
  | quiet {s s' s'' : ShardState} {routed : List Publish} (hcall : Quiet s s')
    (hrest : Calls hash s' routed s'') : Calls hash s routed s''
  | deliverLocal {s s' : ShardState} {routed : List Publish} (message : Publish)
    (publisher : Option String)
    (hrest : Calls hash (s.deliverLocal hash message publisher) routed s') :
    Calls hash s (message :: routed) s'

variable {hash : ContentHash} {s s' s'' : ShardState} {routed routed' : List Publish}

lemma Quiet.calls (h : Quiet s s') : Calls hash s [] s' := .quiet h (.done s')

lemma calls_deliverLocal (s : ShardState) (message : Publish) (publisher : Option String) :
    Calls hash s [message] (s.deliverLocal hash message publisher) := .deliverLocal message
      publisher (.done _)

lemma Calls.trans (h : Calls hash s routed s') (h' : Calls hash s' routed' s'') :
    Calls hash s (routed ++ routed') s'' := by
  induction h with
  | done => exact h'
  | quiet hcall _ ih => exact .quiet hcall (ih h')
  | deliverLocal message publisher _ ih => exact .deliverLocal message publisher (ih h')

/-- Calls that route nothing, before others. -/
lemma Calls.after (h : Calls hash s [] s') (h' : Calls hash s' routed s'') :
    Calls hash s routed s'' :=
  h.trans h'

lemma Calls.then_quiet (h : Calls hash s routed s') (h' : Quiet s' s'') :
    Calls hash s routed s'' := by
  have hquiet : Calls hash s' [] s'' := h'.calls
  have hboth := h.trans hquiet
  rwa [append_nil] at hboth

/-- A relation that every call respects is respected by all of them together. -/
lemma Calls.rel {R : ShardState → ShardState → Prop} (h : Calls hash s routed s')
    (hrefl : ∀ s, R s s)
    (htrans : ∀ {s s' s''}, R s s' → R s' s'' → R s s'') (hquiet : ∀ {s s'}, Quiet s s' → R s s')
    (hdeliver : ∀ s message publisher, R s (s.deliverLocal hash message publisher)) : R s s' := by
  induction h with
  | done s => exact hrefl s
  | quiet hcall _ ih => exact htrans (hquiet hcall) ih
  | deliverLocal message publisher _ ih => exact htrans (hdeliver _ message publisher) ih

lemma posts_loadSessions (s : ShardState) (sessions : List PersistedSession) (now : ℕ) :
    ∃ n, s.nextGeneration ≤ n ∧
      Posts { s with nextGeneration := n } (s.loadSessions sessions now) [] := by
  induction sessions generalizing s with
  | nil => exact ⟨_, le_rfl, .refl s⟩
  | cons ps sessions ih =>
    obtain ⟨n, hn, hposts⟩ := ih (s.loadSession now ps)
    have hone : Posts { s with nextGeneration := n }
      { s.loadSession now ps with nextGeneration := n } [] :=
      .books rfl
    exact ⟨n, (Nat.le_succ _).trans hn, hone.after hposts⟩

/-- A call that routes nothing leaves the retained messages and the mesh alone, and sends no
publish: counters and channels apart, it is an operation on the books. -/
lemma Quiet.posts (h : Quiet s s') : s.nextGeneration ≤ s'.nextGeneration ∧
    ∃ sent, Posts { s with nextGeneration := s'.nextGeneration, pendingClaims := s'.pendingClaims,
                           nextAssignedId := s'.nextAssignedId, channels := s'.channels,
                           claimReplies := s'.claimReplies } s' sent := by
  have hfrom {s' : ShardState} {n : ℕ} {sent : List (ℕ × SessionControl)}
    (hn : s.nextGeneration ≤ n)
      (h : Posts { s with nextGeneration := n } s' sent) : s.nextGeneration ≤ s'.nextGeneration ∧
        ∃ sent, Posts { s with nextGeneration := s'.nextGeneration, pendingClaims := s'.pendingClaims,
                               nextAssignedId := s'.nextAssignedId, channels := s'.channels,
                               claimReplies := s'.claimReplies } s' sent := by
    obtain ⟨sessions, trie, wal, unparkTx, sharedRemote, msgs, rfl, hsent⟩ := h
    exact ⟨hn, sent, sessions, trie, wal, unparkTx, sharedRemote, msgs, rfl, hsent⟩
  cases h with
  | subscribe filter c opts => exact hfrom le_rfl (s.posts_subscribe filter c opts)
  | unsubscribe filter c group => exact hfrom le_rfl (s.posts_unsubscribe filter c group)
  | openSession c mailbox cleanStart =>
    exact hfrom (Nat.le_succ _) (s.posts_openSession c mailbox cleanStart)
  | broadcastClaim c resume => exact hfrom le_rfl (s.posts_broadcastClaim c resume)
  | installMigrated c migrated => exact hfrom le_rfl (s.posts_installMigrated c migrated)
  | closeSession => exact hfrom le_rfl (posts_closeSession ..)
  | armWill => exact hfrom le_rfl (posts_armWill ..)
  | parkSession => exact hfrom le_rfl (posts_parkSession ..)
  | suspendParked => exact hfrom le_rfl (posts_suspendParked ..)
  | reattachParked => exact hfrom le_rfl (posts_reattachParked ..)
  | onControl control =>
    cases control with
    | claim c requester resume => exact hfrom le_rfl (s.posts_handleClaim c requester resume)
    | handoff c session =>
      simp only [ShardState.onControl]
      split
      · exact hfrom le_rfl (.refl s)
      · exact ⟨le_rfl, _, .books rfl⟩
  | applySharedEvent event => exact hfrom le_rfl (s.posts_applySharedEvent event)
  | sweepExpired now => exact hfrom le_rfl (s.posts_sweepExpired now)
  | shedConnections order max => exact hfrom le_rfl (s.posts_shedConnections order max)
  | loadSessions sessions now =>
    obtain ⟨n, hn, hposts⟩ := s.posts_loadSessions sessions now
    exact hfrom hn hposts
  | shutdownConnections | drainWal | takeCmd | assignId | registerClaim | unregisterClaim | receive
  | receiveReply => exact ⟨le_rfl, _, .books rfl⟩

lemma Calls.nextGeneration_le (h : Calls hash s routed s') : s.nextGeneration ≤ s'.nextGeneration :=
  h.rel (R := fun s s' => s.nextGeneration ≤ s'.nextGeneration) (fun _ => le_rfl) .trans
    (·.posts.1) fun s message publisher =>
      (s.calm_deliverLocal hash message publisher).nextGeneration.ge

lemma calls_subscribing (hash : ContentHash) : SubscribeClosed fun s s' => Calls hash s [] s' where
  refl := .done
  trans := .trans
  subscribe _ filter c opts := (Quiet.subscribe filter c opts).calls
  unsubscribe _ filter c group := (Quiet.unsubscribe filter c group).calls

end ShardState

open ShardState (Calls Quiet)

namespace Connection

variable (env : Env) (c : Connection)

/-- The messages that a packet of a connected client routes: a PUBLISH that passes both checks, and
what a PUBREL releases. -/
def routes : Packet → List Publish
  | .publish publish =>
    match (c.resolveAlias publish).2 with
    | .error _ => []
    | .ok publish =>
      if validPublishTopic publish.topic = true ∧
          env.auth.authorizePublish c.username publish.topic = true ∧ publish.qos ≠
            .exactlyOnce then
        [{ publish with pkid := 0, dup := false }]
      else []
  | .pubRel pkid => (c.incomingQos2.lookup pkid).toList
  | _ => []

variable {env c}

lemma username_resolveAlias (publish : Publish) :
    (c.resolveAlias publish).1.username = c.username := by
  obtain ⟨_, _, h⟩ := c.resolveAlias_frame publish
  rw [h]

/-- The turn routes the given messages. When no link is full it forwards them to every peer. -/
structure Routes (env : Env) (shard : ShardState) (chance : Chance) (routed : List Publish)
    (turn : Turn) : Prop where
  calls : Calls env.hash shard routed turn.shard
  forwards : ∀ e ∈ turn.forwards, e.2 ∈ routed
  sent : chance.fullLinks = [] → (shard.meshPeers = 0 → shard.peers = []) →
    turn.forwards = routed.flatMap fun message => shard.peers.map (·, message)

lemma routes_ofConn (shard : ShardState) (chance : Chance) (r : Connection × Outcome) :
    Routes env shard chance [] (.ofConn shard r) :=
  ⟨.done shard, nofun, fun _ _ => rfl⟩

lemma mem_forwards {full : List ℕ} {message : Publish} {e : ℕ × Publish}
    (h : e ∈ shard.forwards full message) : e.2 = message := by
  unfold forwards at h
  split at h
  · exact nomatch h
  · split at h
    · obtain ⟨_, -, rfl⟩ := mem_map.mp h
      rfl
    · exact nomatch h

lemma forwards_eq (hmesh : shard.meshPeers = 0 → shard.peers = []) (message : Publish) :
    shard.forwards [] message = shard.peers.map (·, message) := by
  unfold forwards
  cases hm : shard.mesh with
  | none => simp [peers, hm]
  | some mesh =>
    dsimp only
    split
    · simp [peers, hm]
    · next hzero => rw [hmesh (Nat.eq_zero_of_not_pos hzero)]; rfl

section

variable (c : Connection) (shard : ShardState) (chance : Chance)

lemma routes_fanOut (message : Publish) (publisher : Option String) :
    Routes env shard chance [message] (c.fanOut env shard chance message publisher) := by
  refine ⟨calls_deliverLocal shard message publisher, fun _ he =>
    mem_singleton.mpr (mem_forwards he), fun hfull hmesh => ?_⟩
  rw [flatMap_singleton, ← forwards_eq hmesh, ← hfull]
  rfl

lemma routes_acceptPublish (publish : Publish) :
    Routes env shard chance (if publish.qos ≠
      .exactlyOnce then [{ publish with pkid := 0, dup := false }] else [])
      (c.acceptPublish env shard chance publish) := by
  unfold acceptPublish
  generalize ({ publish with pkid := 0, dup := false } : Publish) = message
  have hroutes : Routes env shard chance [message]
    (c.fanOut env shard chance message (some c.clientId)) :=
    routes_fanOut c shard chance message (some c.clientId)
  cases publish.qos with
  | atMostOnce => exact hroutes
  | atLeastOnce => exact ⟨hroutes.calls, hroutes.forwards, hroutes.sent⟩
  | exactlyOnce => exact routes_ofConn shard chance _

lemma routes_handlePublish (publish : Publish) :
    Routes env shard chance (c.routes env (.publish publish))
      (c.handlePublish env shard chance publish) := by
  have husername := c.username_resolveAlias publish
  dsimp only [handlePublish, routes]
  generalize c.resolveAlias publish = resolved at husername ⊢
  obtain ⟨c', result⟩ := resolved
  cases result with
  | error e => exact routes_ofConn shard chance _
  | ok publish =>
    dsimp only at husername ⊢
    rw [husername]
    -- the guards of the source, in its order
    cases hvalid : validPublishTopic publish.topic with
    | false => exact routes_ofConn shard chance _
    | true =>
      cases hauth : env.auth.authorizePublish c.username publish.topic with
      | false => exact routes_ofConn shard chance _
      | true =>
        simp only [true_and, Bool.true_eq_false, if_false]
        exact routes_acceptPublish c' shard chance publish

lemma routes_handlePubrel (pkid : UInt16) :
    Routes env shard chance (c.routes env (.pubRel pkid))
      (c.handlePubrel env shard chance pkid) := by
  dsimp only [handlePubrel, routes]
  cases c.incomingQos2.lookup pkid with
  | none => exact routes_ofConn shard chance _
  | some message =>
    have hroutes : Routes env shard chance [message] _ :=
      routes_fanOut { c with incomingQos2 := c.incomingQos2.erase pkid } shard chance message
        (some c.clientId)
    exact ⟨hroutes.calls, hroutes.forwards, hroutes.sent⟩

/-- A packet of a connected client routes these messages. -/
lemma routes_dispatch (packet : Packet) :
    Routes env shard chance (c.routes env packet) (c.dispatch env shard chance packet) := by
  cases packet with
  | publish publish => exact routes_handlePublish c shard chance publish
  | pubRel pkid => exact routes_handlePubrel c shard chance pkid
  | subscribe subscribe =>
    exact ⟨closed_handleSubscribe (calls_subscribing env.hash) c shard subscribe,
      nofun, fun _ _ => rfl⟩
  | unsubscribe unsubscribe =>
    exact ⟨closed_handleUnsubscribe (calls_subscribing env.hash) c shard unsubscribe,
      nofun, fun _ _ => rfl⟩
  | connect | pingReq | disconnect | pubAck | pubRec | pubComp | serverOnly =>
    exact routes_ofConn shard chance _

lemma calls_openHandle (cleanStart assigned : Bool) :
    Calls env.hash shard [] (c.openHandle env shard chance cleanStart assigned).shard :=
  shard_openHandle env c shard chance cleanStart assigned
    (Quiet.openSession c.clientId c.mailboxRx cleanStart).calls
    (fun _ h => h.then_quiet (.registerClaim _ _)) fun _ _ h => h.then_quiet (.broadcastClaim _ _)

lemma forwards_openHandle (cleanStart assigned : Bool) :
    (c.openHandle env shard chance cleanStart assigned).forwards = [] := by
  unfold openHandle
  dsimp only
  split
  · rfl
  · split
    · rfl
    · unfold claimRemoteSession
      split <;> rfl

/-- The messages that a packet routes, whatever the state of the connection. -/
lemma routes_processOne (packet : Packet) :
    Routes env shard chance (if c.connected then c.routes env packet else [])
      (c.processOne env shard chance packet) := by
  have hanswer := answer_processOne env c shard chance packet
  generalize c.processOne env shard chance packet = turn at hanswer
  cases hanswer with
  | served hconnected hturn =>
    rw [if_pos hconnected, hturn]
    exact routes_dispatch c shard chance packet
  | @refused _ _ n _ hconnected _ hturn =>
    rw [if_neg (by rw [hconnected]; exact Bool.false_ne_true), hturn]
    exact ⟨(Quiet.assignId n).calls, nofun, fun _ _ => rfl⟩
  | @opened c₁ n connect hconnected _ _ _ hturn =>
    rw [if_neg (by rw [hconnected]; exact Bool.false_ne_true), hturn]
    have hnone : (c₁.openHandle env { shard with nextAssignedId := n } chance connect.cleanSession
        (connect.clientId = "")).forwards = [] := forwards_openHandle c₁ _ chance _ _
    exact ⟨(Quiet.assignId n).calls.after (calls_openHandle c₁ _ chance _ _),
      fun e he => absurd (hnone ▸ he) not_mem_nil, fun _ _ => hnone⟩

section

variable (assigned : Bool) (found : Option MigratedSession)

lemma calls_claimed :
    Calls env.hash shard [] (c.claimed env shard chance assigned found).shard := by
  have hunregister : Calls env.hash shard [] (shard.unregisterClaim c.clientId) :=
    (Quiet.unregisterClaim c.clientId).calls
  unfold claimed
  split
  · exact hunregister
  · exact hunregister.then_quiet (.installMigrated _ _)

lemma forwards_claimed : (c.claimed env shard chance assigned found).forwards = [] := by
  cases found <;> rfl

end

end

end Connection

/-- Work that starts on the shard itself: nothing arrives from a peer or from disk. -/
def ServerOp.Local : ServerOp → Prop
  | .mesh _ | .load _ => False
  | _ => True

/-- The mesh links a piece of work finds full. -/
def ServerOp.fullLinks : ServerOp → List ℕ
  | .packet _ _ chance | .claimReply _ chance | .claimTimeout _ chance | .publishWill _ chance
  | .reap _ chance | .reattach _ chance | .publish _ chance | .sweep chance => chance.fullLinks
  | _ => []

namespace Server

variable {env : Env} {srv srv' : Server} {op : ServerOp}

/-- The messages that a piece of work routes. -/
def routed (env : Env) (srv : Server) (op : ServerOp) : List Publish :=
  match op with
  | .packet id p _ =>
    match srv.taskAt id .running with
    | none => []
    | some c => if c.connected then c.routes env p else []
  | .mesh (.publish message) => [message]
  | .publish message _ => [message]
  | op => (srv.fired op).map Prod.snd

/-- A piece of work routes these messages on its own shard, and forwards no others. When it starts
there and no link is full it forwards them to every peer. -/
structure Routes (env : Env) (srv : Server) (op : ServerOp) (srv' : Server) : Prop where
  calls : Calls env.hash srv.shard (srv.routed env op) srv'.shard
  forwards : ∀ e ∈ srv'.links, e ∈ srv.links ∨ e.2 ∈ srv.routed env op
  links : op.Local → op.fullLinks = [] → (srv.shard.meshPeers = 0 → srv.shard.peers = []) →
    srv'.links = srv.links ++
      (srv.routed env op).flatMap fun message => srv.shard.peers.map (·, message)

lemma routes_silent (hrouted : srv.routed env op = [])
    (hcalls : Calls env.hash srv.shard [] srv'.shard)
    (hlinks : srv'.links = srv.links) : Routes env srv op srv' :=
  ⟨hrouted ▸ hcalls, fun _ he => .inl (hlinks ▸ he),
    fun _ _ _ => by rw [hrouted, hlinks, flatMap_nil, append_nil]⟩

lemma routes_turn {turn : Turn} (hchance : chance.fullLinks = op.fullLinks)
    (h : Connection.Routes env srv.shard chance (srv.routed env op) turn) :
    Routes env srv op (srv.finishTurn id turn) :=
  ⟨h.calls, fun e he => (mem_append.mp he).imp_right (h.forwards e),
    fun _ hfull hmesh => congrArg (srv.links ++ ·) (h.sent (hchance.trans hfull) hmesh)⟩

lemma links_broadcast (env : Env) (srv : Server) (hfull : chance.fullLinks = [])
    (message : Publish) :
    (srv.broadcast env chance message).links = srv.links ++ srv.shard.peers.map (·, message) := by
  simp only [broadcast, hfull, peers]
  cases srv.shard.mesh <;> simp

lemma mem_links_broadcast {message : Publish} {e : ℕ × Publish}
    (he : e ∈ (srv.broadcast env chance message).links) : e ∈ srv.links ∨ e.2 = message := by
  refine (mem_append.mp he).imp_right fun he => ?_
  split at he
  · exact nomatch he
  · obtain ⟨_, -, rfl⟩ := mem_map.mp he
    rfl

lemma routes_broadcasts (env : Env) (chance : Chance) (wills : List Publish) (srv : Server) :
    Calls env.hash srv.shard wills
        (wills.foldl (fun srv will => srv.broadcast env chance will) srv).shard ∧
      (∀ e ∈ (wills.foldl (fun srv will => srv.broadcast env chance will) srv).links,
        e ∈ srv.links ∨ e.2 ∈ wills) ∧ (chance.fullLinks = [] →
        (wills.foldl (fun srv will => srv.broadcast env chance will) srv).links =
          srv.links ++ wills.flatMap fun will => srv.shard.peers.map (·, will)) := by
  induction wills generalizing srv with
  | nil => exact ⟨.done _, fun _ => .inl, fun _ => (append_nil _).symm⟩
  | cons will wills ih =>
    obtain ⟨hcalls, hforwards, hlinks⟩ := ih (srv.broadcast env chance will)
    have hpeers : (srv.broadcast env chance will).shard.peers = srv.shard.peers :=
      congrArg (fun mesh => (mesh.map Mesh.peers).getD [])
        (srv.shard.calm_deliverLocal env.hash will none).posts.mesh
    refine ⟨.deliverLocal will none hcalls, fun e he => ?_, fun hfull => ?_⟩
    · rcases hforwards e he with he | he
      · exact (mem_links_broadcast he).imp_right (mem_cons.mpr ∘ Or.inl)
      · exact .inr (mem_cons_of_mem _ he)
    rw [foldl_cons, hlinks hfull, links_broadcast env srv hfull, hpeers, flatMap_cons,
      append_assoc]

lemma calls_suspended (hash : ContentHash) (now : ℕ) (l : List (Σ _ : ℕ, ResumeState))
    (s : ShardState) :
    Calls hash s [] (l.foldl (fun s e =>
      (s.suspendParked now e.2.clientId e.2.sessionGeneration e.2.sessionExpiry).1) s) := by
  induction l generalizing s with
  | nil => exact .done s
  | cons e l ih => exact .quiet (.suspendParked _ _ _ _) (ih _)

lemma routed_packet {c : Connection} (p : Packet) (chance : Chance) (hc : srv.tasks id = some c)
    (hphase : c.phase = .running) :
    srv.routed env (.packet id p chance) = if c.connected then c.routes env p else [] := by
  have hat : srv.taskAt id .running = some c := by simp [taskAt, hc, hphase]
  simp only [routed, hat]

lemma routes_packet {c : Connection} (p : Packet) (chance : Chance) (hc : srv.tasks id = some c)
    (hphase : c.phase = .running) :
    Routes env srv (.packet id p chance)
      (srv.finishTurn id (c.processOne env srv.shard chance p)) := by
  refine routes_turn rfl ?_
  rw [routed_packet p chance hc hphase]
  exact routes_processOne c srv.shard chance p

lemma routes_mesh (srv : Server) (msg : MeshMsg) :
    Routes env srv (.mesh msg) { srv with shard := srv.shard.handleMeshMsg env.hash msg } := by
  refine ⟨?_, fun _ => .inl, fun hlocal => hlocal.elim⟩
  cases msg with
  | publish message => exact calls_deliverLocal _ _ _
  | control control => exact (Quiet.onControl control).calls
  | shared event => exact (Quiet.applySharedEvent event).calls

lemma routes_publish (srv : Server) (message : Publish) (chance : Chance) :
    Routes env srv (.publish message chance) (srv.broadcast env chance message) :=
  ⟨calls_deliverLocal _ _ _,
    fun _ he => (mem_links_broadcast he).imp_right mem_singleton.mpr, fun _ hfull _ => by
    rw [links_broadcast env srv hfull message]
    exact congrArg _ (flatMap_singleton ..).symm⟩

lemma routed_reap {slot : ℕ} {parking : Parking} {r : ResumeState} {owned : Bool}
    (chance : Chance) (htaken : srv.parking.takeSlot slot = some (parking, r))
    (hsuspend : srv.suspending r = (shard, owned)) : srv.routed env (.reap slot chance) =
      if owned ∧ min r.willDelay r.sessionExpiry = 0 then r.will.toList else [] := by
  show (srv.fired (.reap slot chance)).map Prod.snd = _
  rw [fired_reap chance htaken, hsuspend]
  split <;> simp [Function.comp_def]

/-- What a piece of work routes, outcome by outcome: but for packets, peers' messages and the
broker's own, nothing is routed but wills. -/
lemma Move.routes (hmove : Move env srv op srv')
    (hop : srv.routed env op = (srv.fired op).map Prod.snd) : Routes env srv op srv' := by
  have hcall {α : Type} {r : ShardState × α} {shard : ShardState} {a : α} (heq : r = (shard, a))
      (h : Quiet srv.shard r.1) : Calls env.hash srv.shard [] shard := by
    rw [heq] at h
    exact h.calls
  cases hmove with
  | idle op hquiet => exact routes_silent (by rw [hop, hquiet]; rfl) (.done _) rfl
  | elapse | accept | hangUp | mailboxClosed | shutDownNoticed | closeNameless | ingress =>
    exact routes_silent rfl (.done _) rfl
  | packet p chance hc hphase => exact routes_packet p chance hc hphase
  | receive _ _ hchannel =>
    exact routes_silent rfl (Quiet.receive hchannel).calls (append_nil _)
  | claimGoesOn _ _ _ hreplies => exact routes_silent rfl (Quiet.receiveReply hreplies).calls rfl
  | claimReply _ _ _ hreplies =>
    refine routes_silent rfl
      ((Quiet.receiveReply hreplies).calls.after (calls_claimed ..)) ?_
    rw [finishTurn, forwards_claimed, append_nil]
  | claimTimeout =>
    refine routes_silent rfl (calls_claimed ..) ?_
    rw [finishTurn, forwards_claimed, append_nil]
  | closeQuiet _ _ _ h | closeWill _ _ _ h =>
    exact routes_silent rfl (hcall h (.closeSession ..)) rfl
  | closeArm _ _ _ h =>
    exact routes_silent rfl ((hcall h (.closeSession ..)).then_quiet (.armWill ..)) rfl
  | @publishWill id c will chance hc hphase =>
    have hrouted : srv.routed env (.publishWill id chance) = [will] := by
      simp only [routed, fired, hc, hphase, map]
    have hroutes : Connection.Routes env srv.shard chance [will] _ :=
      routes_fanOut c srv.shard chance will none
    refine ⟨hrouted ▸ hroutes.calls, fun e he => ?_, fun _ hfull hmesh =>
      hrouted ▸ congrArg (srv.links ++ ·) (hroutes.sent hfull hmesh)⟩
    exact (mem_append.mp he).imp_right fun he => hrouted ▸ hroutes.forwards e he
  | parkDisplaced _ _ _ _ _ h | parkFails _ _ _ _ h | park _ _ _ _ h =>
    exact routes_silent rfl (hcall h (.parkSession ..)) rfl
  | wakeMissed hcmds | wake hcmds | dismissMissed hcmds | dismiss hcmds =>
    exact routes_silent rfl (Quiet.takeCmd hcmds).calls rfl
  | reapQuiet chance htaken hsuspend hwill =>
    refine routes_silent ?_ (hcall hsuspend (.suspendParked ..)) rfl
    rw [routed_reap chance htaken hsuspend]
    rcases hwill with hwill | rfl
    · rw [hwill, Option.toList_none, ite_self]
    · exact if_neg fun h => Bool.false_ne_true h.1
  | @reapWill slot parking r shard will chance htaken hsuspend hwill hdelay =>
    have hrouted : srv.routed env (.reap slot chance) = [will] := by
      rw [routed_reap chance htaken hsuspend, hwill, if_pos ⟨rfl, hdelay⟩, Option.toList_some]
    have hmesh : shard.mesh = srv.shard.mesh := by
      obtain rfl : _ = shard := congrArg Prod.fst hsuspend
      exact (calm_suspendParked ..).posts.mesh
    refine ⟨?_, fun e he => ?_, fun _ hfull _ => ?_⟩
    · rw [hrouted]
      exact (hcall hsuspend (.suspendParked ..)).after (calls_deliverLocal _ _ _)
    · rw [hrouted]
      exact (mem_links_broadcast he).imp_right mem_singleton.mpr
    · rw [hrouted, links_broadcast env _ hfull, peers, hmesh, flatMap_singleton]
      rfl
  | reapArm chance htaken hsuspend hwill hdelay =>
    refine routes_silent ?_ ((hcall hsuspend (.suspendParked ..)).then_quiet (.armWill ..)) rfl
    rw [routed_reap chance htaken hsuspend]
    exact if_neg fun h => hdelay h.2
  | reattachLost _ _ _ h => exact routes_silent rfl (hcall h (.reattachParked ..)) rfl
  | reattach _ _ _ h => exact routes_silent rfl (hcall h (.reattachParked ..)) (append_nil _)
  | mesh msg => exact routes_mesh srv msg
  | publish message chance => exact routes_publish srv message chance
  | sweep chance hsweep =>
    rw [← hsweep, Server.sweep]
    obtain ⟨hcalls, hforwards, hlinks⟩ := routes_broadcasts env chance
      (srv.shard.sweepExpired srv.now).2
      { srv with shard := (srv.shard.sweepExpired srv.now).1 }
    have hrouted : srv.routed env (.sweep chance) = (srv.shard.sweepExpired srv.now).2 :=
      (srv.shard.sweepExpired_wills srv.now).symm
    refine ⟨?_, fun e he => ?_, fun _ hfull _ => ?_⟩
    · rw [hrouted]
      exact (Quiet.sweepExpired srv.now).calls.after hcalls
    · rw [hrouted]
      exact hforwards e he
    · rw [hrouted, hlinks hfull, peers, (srv.shard.calm_sweepExpired srv.now).posts.mesh]
      rfl
  | shed order max => exact routes_silent rfl (Quiet.shedConnections _ _).calls rfl
  | load sessions => exact routes_silent rfl (Quiet.loadSessions _ _).calls rfl
  | drainWal => exact routes_silent rfl Quiet.drainWal.calls rfl
  | shutDown =>
    exact routes_silent rfl (Quiet.shutdownConnections.calls.after (calls_suspended ..)) rfl

section

variable (env : Env) (srv : Server) (op : ServerOp)

/-- Every piece of work routes exactly the messages that `routed` names. -/
lemma routes_apply : Routes env srv op (srv.apply env op) := by
  cases op with
  | packet id p chance =>
    cases hat : srv.taskAt id .running with
    | none =>
      have hrouted : srv.routed env (.packet id p chance) = [] := by simp only [routed, hat]
      exact (move_apply env srv _).routes hrouted
    | some c =>
      obtain ⟨hc, hphase⟩ := tasks_of_taskAt hat
      have hroutes : Routes env srv (.packet id p chance)
          (srv.finishTurn id (c.processOne env srv.shard chance p)) :=
        routes_packet p chance hc hphase
      simpa only [apply, Server.packet, hat] using hroutes
  | mesh msg => exact routes_mesh srv msg
  | publish message chance => exact routes_publish srv message chance
  | _ => exact (move_apply env srv _).routes rfl

lemma nextGeneration_le_apply :
    srv.shard.nextGeneration ≤ (srv.apply env op).shard.nextGeneration :=
  (routes_apply env srv op).calls.nextGeneration_le

end

end Server

end Rusquitto
