import Mathlib.Logic.Relation
import Rusquitto.Server.Displaced
import Rusquitto.Server.Records

/-!
# What a piece of work writes about a client

`Server.Edit` lists every change to what is kept about one client, with the task or the parked
connection that makes it, and `Server.Move.edits` says that a piece of work makes no others. An
invariant of what is kept about a client is then proved edit by edit.
-/

namespace Rusquitto

open ShardState Connection

variable {id : ℕ} {c : Connection} {chance : Chance}

/-! ### Subscriptions of one client -/

/-- One more subscription: an entry on the same filter and group is replaced. -/
def Subscribed (clientId : String) (subs : List FlatSub) (filter : String) (opts : SubOptions)
    (subs' : List FlatSub) : Prop :=
  subs'.Perm (subs.filter (fun sub => sub.key ≠ (filter, opts.shareGroup)) ++
    [(opts.subscription clientId).flat filter])

/-- The subscriptions of a session that came from elsewhere are armed one by one. -/
inductive Rearmed (clientId : String) : List FlatSub → List FlatSub → List FlatSub → Prop where
  | nil (subs : List FlatSub) : Rearmed clientId subs [] subs
  | cons {subs subs' subs'' rest : List FlatSub} {sub : FlatSub}
    (hsub : Subscribed clientId subs sub.filter (rearmOptions sub) subs')
    (hrest : Rearmed clientId subs' rest subs'') : Rearmed clientId subs (sub :: rest) subs''

lemma rearmed_rearm (trie : TopicTrie) (clientId : String) (subs : List FlatSub) :
    Rearmed clientId (trie.clientSubscriptions clientId) subs
      ((rearm trie clientId subs).clientSubscriptions clientId) := by
  induction subs generalizing trie with
  | nil => exact .nil _
  | cons sub subs ih =>
    exact .cons (trie.clientSubscriptions_insert_self_perm sub.filter clientId _) (ih _)

namespace ShardState

/-- The record a persisted session is installed as. -/
def loadedRecord (now generation : ℕ) (ps : PersistedSession) : Session where
  expiresAt := expiryDeadline now ps.expirySecs
  generation := generation
  snapshot := some
    { inflight := ps.session.inflight
      incomingQos2 := ps.session.incomingQos2
      nextPkid := ps.session.nextPkid }
  offlineQueue := ps.session.offline

lemma view_loadSession (s : ShardState) (now : ℕ) (ps : PersistedSession) (k : String) :
    (s.loadSession now ps).view k =
      if k = ps.clientId then
        { s.view k with
          session := some (loadedRecord now (s.nextGeneration + 1) ps)
          subs := (rearm s.trie k ps.session.subscriptions).clientSubscriptions k }
      else s.view k := by
  split
  · next hk =>
    subst hk
    ext1
    · exact AList.lookup_insert s.sessions
    · rfl
    · rfl
  · next hk =>
    ext1
    · exact AList.lookup_insert_ne hk
    · exact clientSubscriptions_rearm_of_ne s.trie hk _
    · rfl

end ShardState

/-- What follows the opening of a session changes nothing about any client. -/
lemma Connection.view_openHandle (env : Env) (c : Connection) (shard : ShardState) (chance : Chance)
    (cleanStart assigned : Bool) (k : String) :
    (c.openHandle env shard chance cleanStart assigned).shard.view k = if k = c.clientId then
        (shard.view k).opened c.mailboxRx (shard.nextGeneration + 1) cleanStart
      else shard.view k := by
  rw [← view_openSession]
  refine shard_openHandle env c shard chance cleanStart assigned rfl (fun _ h => h) fun _ _ h => ?_
  exact (view_broadcastClaim ..).trans h

namespace Server

variable {env : Env} {srv srv' : Server} {op : ServerOp}

/-- A connection whose session is still its own has this will, or a parked connection. -/
def Wills (srv : Server) (will : Publish) : Prop :=
  (∃ id c, srv.tasks id = some c ∧ c.will = some will ∧
    srv.shard.Current c.clientId c.sessionGeneration) ∨
  ∃ slot r, srv.parking.slots.lookup slot = some r ∧ r.will = some will

/-- One change to what the shard keeps about the client `k`, made while `srv` does `op`. Where
`hfirst` says so, nothing was changed before it. -/
inductive Edit (srv : Server) (op : ServerOp) (k : String) (v : ClientView) : ClientView →
    Prop where
  | received {v' : ClientView} (h : Receives v v') : Edit srv op k v v'
  | marked (wal : Option (Option Mark)) : Edit srv op k v { v with wal }
  | opened {id : ℕ} {c : Connection} {connect : Connect} {chance : Chance}
    (hop : op = .packet id (.connect connect) chance) (hc : srv.tasks id = some c)
    (hphase : c.phase = .running) (hconnected : c.connected = false)
    (hname : c.connectingId srv.shard chance connect = k) (hfirst : v = srv.shard.view k) :
    Edit srv op k v (v.opened c.mailboxRx (srv.shard.nextGeneration + 1) connect.cleanSession)
  | closed {id : ℕ} {c : Connection} (hop : op = .close id) (hc : srv.tasks id = some c)
    (hphase : c.phase = .ending) (hname : c.clientId = k) (hfirst : v = srv.shard.view k) :
    Edit srv op k v
      (v.closed srv.now c.sessionGeneration c.sessionExpiry c.snapshot c.pendingOutbound)
  | parked {id : ℕ} {c : Connection} {dupFails : Bool} (hop : op = .park id dupFails)
    (hc : srv.tasks id = some c) (hready : c.parkReady = true) (hname : c.clientId = k)
    (hfirst : v = srv.shard.view k) :
    Edit srv op k v (v.parked c.sessionGeneration { nextPkid := c.nextPkid })
  | reattached {id : ℕ} {c : Connection} {chance : Chance} (hop : op = .reattach id chance)
    (hc : srv.tasks id = some c) (hname : c.clientId = k) (hfirst : v = srv.shard.view k) :
    Edit srv op k v (v.reattached c.sessionGeneration id)
  | suspended {slot : ℕ} {r : ResumeState} (hop : op = .shutDown ∨ ∃ chance, op = .reap slot chance)
    (hr : srv.parking.slots.lookup slot = some r) (hname : r.clientId = k) :
    Edit srv op k v (v.suspended srv.now r.sessionGeneration r.sessionExpiry)
  | willArmed (generation : ℕ) (will : Publish) (delaySecs : UInt32) (horigin : srv.Wills will) :
    Edit srv op k v (v.willArmed srv.now generation will delaySecs)
  | swept {chance : Chance} (hop : op = .sweep chance) (hfirst : v = srv.shard.view k) :
    Edit srv op k v (v.swept srv.now)
  | claimed {requester : ℕ} {resume : Bool}
    (hop : op = .mesh (.control (.claim k requester resume))) (hfirst : v = srv.shard.view k) :
    Edit srv op k v v.claimed
  | shed (hop : op = .shutDown ∨ ∃ order max, op = .shed order max) : Edit srv op k v v.shed
  /-- A filter of a SUBSCRIBE is armed. -/
  | subscribed {id : ℕ} {c : Connection} {subscribe : Subscribe} {chance : Chance}
    (hop : op = .packet id (.subscribe subscribe) chance) (hc : srv.tasks id = some c)
    (hconnected : c.connected = true) (hname : c.clientId = k) {filter : String} {opts : SubOptions}
    {subs : List FlatSub} (hsubs : Subscribed k v.subs filter opts subs) :
    Edit srv op k v { v with subs }
  /-- A filter of an UNSUBSCRIBE, or one above the quota, is disarmed. -/
  | unsubscribed {id : ℕ} {c : Connection} {packet : Packet} {chance : Chance}
    (hop : op = .packet id packet chance) (hc : srv.tasks id = some c)
    (hpacket : (∃ subscribe, packet = .subscribe subscribe) ∨ ∃ unsubscribe, packet =
      .unsubscribe unsubscribe)
    (hconnected : c.connected = true) (hname : c.clientId = k) (key : String × Option String) :
    Edit srv op k v { v with subs := v.subs.filter fun sub => sub.key ≠ key }
  /-- The claimant installs a session that a peer handed over. -/
  | installed {id remaining : ℕ} {c : Connection} {assigned : Bool} {chance : Chance}
    {migrated : MigratedSession} {rest : List (Option MigratedSession)}
    (hop : op = .claimReply id chance) (hc : srv.tasks id = some c)
    (hphase : c.phase = .claiming remaining assigned) (hname : c.clientId = k)
    (hreply : srv.shard.claimReplies id = some migrated :: rest) {subs : List FlatSub}
    (hsubs : Rearmed k v.subs migrated.subscriptions subs) : Edit srv op k v { v with subs }
  | loaded {sessions : List PersistedSession} {ps : PersistedSession} (hop : op = .load sessions)
    (hps : ps ∈ sessions) (hname : ps.clientId = k) {generation : ℕ} {subs : List FlatSub}
    (hsubs : Rearmed k v.subs ps.session.subscriptions subs) :
    Edit srv op k v
      { v with session := some (loadedRecord srv.now generation ps), subs }

/-- A shard goes from one state to another by edits of what it keeps about each client. -/
def Edits (srv : Server) (op : ServerOp) (s s' : ShardState) : Prop :=
  ∀ k, Relation.ReflTransGen (srv.Edit op k) (s.view k) (s'.view k)

namespace Edits

variable {s s' s'' : ShardState}

lemma of_same (h : ∀ k, s'.view k = s.view k) : srv.Edits op s s' :=
  fun k => (h k).symm ▸ .refl

lemma refl (s : ShardState) : srv.Edits op s s := of_same fun _ => rfl

lemma trans (h : srv.Edits op s s') (h' : srv.Edits op s' s'') : srv.Edits op s s'' :=
  fun k => (h k).trans (h' k)

/-- An operation that edits one client. -/
lemma of_view {c : String} {v : String → ClientView}
    (hview : ∀ k, s'.view k = if k = c then v k else s.view k)
    (hedit : srv.Edit op c (s.view c) (v c)) : srv.Edits op s s' := by
  intro k
  rw [hview k]
  split
  · next hk => exact .single (hk ▸ hedit)
  · exact .refl

/-- An operation that edits every client. -/
lemma of_all (h : ∀ k, srv.Edit op k (s.view k) (s'.view k)) : srv.Edits op s s' :=
  fun k => .single (h k)

lemma deliverLocal (s : ShardState) (hash : ContentHash) (publish : Publish)
    (publisher : Option String) : srv.Edits op s (s.deliverLocal hash publish publisher) :=
  of_all fun k => .received (receives_deliverLocal s hash publish publisher k)

lemma armWill (s : ShardState) (c : String) (generation : ℕ) {will : Publish} (delaySecs : UInt32)
    (horigin : srv.Wills will) : srv.Edits op s (s.armWill srv.now c generation will delaySecs) :=
  of_view (s.view_armWill srv.now c · generation will delaySecs) (.willArmed _ _ _ horigin)

lemma broadcast (srv₁ : Server) (chance : Chance) (message : Publish) :
    srv.Edits op srv₁.shard (srv₁.broadcast env chance message).shard :=
  deliverLocal srv₁.shard env.hash message none

/-- Subscribing and unsubscribing edit the client that asks for it. -/
lemma subscribing {subscribe : Subscribe} (hop : op = .packet id (.subscribe subscribe) chance)
    (hc : srv.tasks id = some c) (hconnected : c.connected = true) :
    ClientClosed c.clientId (srv.Edits op) where
  refl := refl
  trans := trans
  subscribe s filter opts := by
    intro k
    rw [view_subscribe]
    split
    · next hk =>
      subst hk
      exact .single (.subscribed hop hc hconnected rfl
        (s.trie.clientSubscriptions_insert_self_perm filter c.clientId opts))
    · exact .refl
  unsubscribe s filter group := by
    intro k
    rw [view_unsubscribe]
    split
    · next hk =>
      subst hk
      rw [TopicTrie.clientSubscriptions_remove_self]
      exact .single (.unsubscribed hop hc (.inl ⟨_, rfl⟩) hconnected rfl (filter, group))
    · exact .refl

lemma unsubscribing {unsubscribe : Unsubscribe}
    (hop : op = .packet id (.unsubscribe unsubscribe) chance) (hc : srv.tasks id = some c)
    (hconnected : c.connected = true) (s : ShardState) :
    srv.Edits op s (c.handleUnsubscribe s unsubscribe).shard := by
  have hone (filter : String) (group : Option String) (s : ShardState) :
      srv.Edits op s (s.unsubscribe filter c.clientId group).1 := by
    intro k
    rw [view_unsubscribe]
    split
    · next hk =>
      subst hk
      rw [TopicTrie.clientSubscriptions_remove_self]
      exact .single (.unsubscribed hop hc (.inr ⟨_, rfl⟩) hconnected rfl (filter, group))
    · exact .refl
  have hall (filters : List String) (acc : Connection × ShardState)
      (hname : acc.1.clientId = c.clientId) :
      srv.Edits op acc.2 (filters.foldl unsubscribeOne acc).2 := by
    induction filters generalizing acc with
    | nil => exact refl _
    | cons filter filters ih =>
      refine trans ?_ (ih (unsubscribeOne acc filter) hname)
      unfold unsubscribeOne
      rw [hname]
      exact hone _ _ _
  exact hall unsubscribe.filters (c, s) rfl

/-- A packet of a connection that is past its handshake. -/
lemma dispatch {packet : Packet} (hop : op = .packet id packet chance)
    (hc : srv.tasks id = some c) (hconnected : c.connected = true) (s : ShardState) :
    srv.Edits op s (c.dispatch env s chance packet).shard := by
  have hrouted {s' : ShardState} (h : s' = s ∨
      ∃ message publisher, s' = s.deliverLocal env.hash message publisher) : srv.Edits op s s' := by
    rcases h with rfl | ⟨message, publisher, rfl⟩
    · exact refl _
    · exact deliverLocal s env.hash message publisher
  cases packet with
  | publish publish => exact hrouted (shard_handlePublish env c s chance publish)
  | pubRel pkid => exact hrouted (shard_handlePubrel env c s chance pkid)
  | subscribe subscribe =>
    exact client_handleSubscribe (subscribing hop hc hconnected) s subscribe
  | unsubscribe unsubscribe => exact unsubscribing hop hc hconnected s
  | connect | pingReq | disconnect | pubAck | pubRec | pubComp | serverOnly => exact refl s

/-- A CONNECT that is let in. -/
lemma openHandle {c₁ : Connection} {connect : Connect}
    (hop : op = .packet id (.connect connect) chance) (hc : srv.tasks id = some c)
    (hphase : c.phase = .running) (hconnected : c.connected = false) (hvet : c.Vetted c₁)
    (hid : c₁.clientId = c.connectingId srv.shard chance connect) (n : ℕ) (assigned : Bool) :
    srv.Edits op srv.shard (c₁.openHandle env { srv.shard with nextAssignedId := n } chance
      connect.cleanSession assigned).shard := by
  have hrx : c₁.mailboxRx = c.mailboxRx := by
    obtain ⟨_, _, _, _, _, _, _, _, rfl⟩ := hvet
    rfl
  refine of_view (fun k => view_openHandle env c₁ { srv.shard with nextAssignedId := n }
    chance connect.cleanSession assigned k) ?_
  rw [hrx]
  exact .opened hop hc hphase hconnected hid.symm rfl

lemma load {sessions : List PersistedSession} (hop : op = .load sessions) (s : ShardState) :
    srv.Edits op s (s.loadSessions sessions srv.now) := by
  have hall (list : List PersistedSession) (hlist : ∀ ps ∈ list, ps ∈ sessions) (s : ShardState) :
      srv.Edits op s (s.loadSessions list srv.now) := by
    induction list generalizing s with
    | nil => exact refl s
    | cons ps list ih =>
      obtain ⟨hps, hlist⟩ := List.forall_mem_cons.mp hlist
      refine trans (fun k => ?_) (ih hlist (s.loadSession srv.now ps))
      rw [view_loadSession]
      split
      · next hk => exact .single (.loaded hop hps hk.symm (rearmed_rearm s.trie k _))
      · exact .refl
  exact hall sessions (fun _ h => h) s

/-- The shutdown suspends what is parked. -/
lemma suspendAll (hop : op = .shutDown) {entries : List ((_ : ℕ) × ResumeState)}
    (hentries : ∀ e ∈ entries, e ∈ srv.parking.slots.entries) (s : ShardState) :
    srv.Edits op s (entries.foldl (fun s e =>
      (s.suspendParked srv.now e.2.clientId e.2.sessionGeneration e.2.sessionExpiry).1) s) := by
  induction entries generalizing s with
  | nil => exact refl s
  | cons e entries ih =>
    obtain ⟨he, hentries⟩ := List.forall_mem_cons.mp hentries
    have hone : srv.Edits op s
        (s.suspendParked srv.now e.2.clientId e.2.sessionGeneration e.2.sessionExpiry).1 :=
      of_view (s.view_suspendParked srv.now _ · _ _)
        (.suspended (.inl hop) (AList.mem_lookup_iff.mpr he) rfl)
    exact hone.trans (ih hentries _)

end Edits

/-- A message from a peer. -/
lemma edits_handleMeshMsg (env : Env) (srv : Server) (msg : MeshMsg) :
    srv.Edits (.mesh msg) srv.shard (srv.shard.handleMeshMsg env.hash msg) := by
  cases msg with
  | publish publish => exact .deliverLocal _ env.hash publish none
  | control control =>
    cases control with
    | claim clientId requester resume =>
      exact .of_view (srv.shard.view_handleClaim clientId · requester resume) (.claimed rfl rfl)
    | handoff clientId session =>
      refine .of_same fun k => ?_
      simp only [handleMeshMsg, onControl]
      split <;> rfl
  | shared event =>
    refine .of_same fun k => ?_
    cases event with
    | join => rfl
    | leave =>
      simp only [handleMeshMsg, applySharedEvent]
      split <;> rfl

/-- A piece of work makes no other changes. -/
lemma Move.edits (hmove : Move env srv op srv') : srv.Edits op srv.shard srv'.shard := by
  -- the operation on the shard, where the move names its result
  have hclose {id : ℕ} {c : Connection} {shard : ShardState} {owned : Bool} (hop : op = .close id)
      (hc : srv.tasks id = some c) (hphase : c.phase = .ending)
      (h : srv.tearDown c = (shard, owned)) : srv.Edits op srv.shard shard := by
    obtain rfl : _ = shard := congrArg Prod.fst h
    exact .of_view (srv.shard.view_closeSession srv.now _ · _ _ _ _) (.closed hop hc hphase rfl rfl)
  have hpark {id : ℕ} {c : Connection} {shard : ShardState} {dupFails flipped : Bool}
      (hop : op = .park id dupFails) (hc : srv.tasks id = some c) (hready : c.parkReady = true)
      (h : srv.flipping c = (shard, flipped)) : srv.Edits op srv.shard shard := by
    obtain rfl : _ = shard := congrArg Prod.fst h
    exact .of_view (srv.shard.view_parkSession _ · _ _) (.parked hop hc hready rfl rfl)
  have hreattach {id : ℕ} {c : Connection} {shard : ShardState} {chance : Chance}
      {resumed : Option (SessionSnapshot × List Delivery)} (hop : op = .reattach id chance)
      (hc : srv.tasks id = some c)
      (h : srv.shard.reattachParked c.clientId c.sessionGeneration id = (shard, resumed)) :
      srv.Edits op srv.shard shard := by
    obtain rfl : _ = shard := congrArg Prod.fst h
    exact .of_view (srv.shard.view_reattachParked _ · _ _) (.reattached hop hc rfl rfl)
  have hsuspend {slot : ℕ} {r : ResumeState} {parking : Parking} {shard : ShardState}
    {chance : Chance}
      {owned : Bool} (hop : op = .reap slot chance)
      (htaken : srv.parking.takeSlot slot = some (parking, r))
      (h : srv.suspending r = (shard, owned)) : srv.Edits op srv.shard shard := by
    obtain rfl : _ = shard := congrArg Prod.fst h
    exact .of_view (srv.shard.view_suspendParked srv.now _ · _ _)
      (.suspended (.inr ⟨_, hop⟩) (takeSlot_spec htaken).1 rfl)
  cases hmove with
  | packet p chance hc hphase =>
    change srv.Edits _ srv.shard (processOne env _ srv.shard chance p).shard
    cases answer_processOne env _ srv.shard chance p with
    | served hconnected hturn =>
      rw [hturn]
      exact .dispatch rfl hc hconnected srv.shard
    | refused _ _ hturn _ =>
      rw [hturn]
      exact .of_same fun _ => rfl
    | opened hconnected hpacket hvet _ hturn hid =>
      rw [hturn]
      exact .openHandle (hpacket ▸ rfl) hc hphase hconnected hvet hid _ _
  | claimReply chance hc hphase hreplies hlast =>
    rename_i id remaining c assigned reply rest
    cases reply with
    | none => exact .of_same fun _ => rfl
    | some migrated =>
      intro k
      change Relation.ReflTransGen _ _ ((((unregisterClaim _ c.clientId).installMigrated
        c.clientId migrated).1).view k)
      rw [view_installMigrated]
      split
      · next hk =>
        subst hk
        exact .single (.installed rfl hc hphase rfl hreplies (rearmed_rearm srv.shard.trie _ _))
      · exact .refl
  | closeQuiet hc hphase _ h _ => exact hclose rfl hc hphase h
  | closeWill hc hphase _ h _ _ => exact hclose rfl hc hphase h
  | closeArm hc hphase _ h hwill =>
    exact (hclose rfl hc hphase h).trans (.armWill _ _ _ _ (.inl ⟨_, _, hc, hwill, .of_close h⟩))
  | publishWill => exact .deliverLocal _ _ _ _
  | parkDisplaced _ hc _ hready _ h => exact hpark rfl hc hready h
  | parkFails hc _ hready _ h => exact hpark rfl hc hready h
  | park hc _ hready _ h => exact hpark rfl hc hready h
  | reapQuiet _ htaken h _ => exact hsuspend rfl htaken h
  | reapWill _ htaken h _ _ => exact (hsuspend rfl htaken h).trans (.deliverLocal _ _ _ _)
  | reapArm _ htaken h hwill =>
    exact (hsuspend rfl htaken h).trans
      (.armWill _ _ _ _ (.inr ⟨_, _, (takeSlot_spec htaken).1, hwill⟩))
  | reattachLost _ hc _ h => exact hreattach rfl hc h
  | reattach _ hc _ h => exact hreattach rfl hc h
  | mesh msg => exact edits_handleMeshMsg env srv msg
  | publish message chance => exact .broadcast _ _ _
  | sweep chance =>
    refine Edits.trans (.of_all fun k => ?_) (Lib.foldl_rel Edits.refl Edits.trans
      (fun s will => .deliverLocal s env.hash will none) _ _)
    rw [view_sweepExpired]
    exact .swept rfl rfl
  | shed order max =>
    intro k
    rcases view_shedConnections srv.shard order max k with h | h
    · exact h ▸ .refl
    · exact h ▸ .single (.shed (.inr ⟨_, _, rfl⟩))
  | load sessions => exact .load rfl srv.shard
  | drainWal => exact .of_all fun k => .marked _
  | shutDown =>
    refine Edits.trans (.of_all fun k => ?_) (.suspendAll rfl (fun _ h => h) _)
    rw [view_shutdownConnections]
    exact .shed (.inl rfl)
  | claimTimeout => exact .of_same fun _ => rfl
  | idle | elapse | accept | receive | hangUp | mailboxClosed | shutDownNoticed | claimGoesOn
  | closeNameless | wakeMissed | wake | dismissMissed | dismiss | ingress =>
    exact .of_same fun _ => rfl

/-- Work that neither opens a session nor touches subscriptions other than by ending a session. -/
def Neutral : ServerOp → Prop
  | .packet _ (.connect _) _ | .packet _ (.subscribe _) _ | .packet _ (.unsubscribe _) _ => False
  | .claimReply .. | .load _ => False
  | _ => True

lemma Edit.lasts {k : String} {v v' : ClientView} (h : srv.Edit op k v v')
    (hop : Neutral op) : v.Lasts v' := by
  cases h with
  | received hreceived => exact ClientView.lasts_receives hreceived
  | marked => exact .refl v
  | closed => exact v.lasts_closed ..
  | parked => exact v.lasts_parked ..
  | reattached => exact v.lasts_reattached ..
  | suspended => exact v.lasts_suspended ..
  | willArmed => exact v.lasts_willArmed ..
  | swept => exact v.lasts_swept ..
  | claimed => exact v.lasts_claimed
  | shed => exact v.lasts_shed
  | opened heq | subscribed heq | installed heq | loaded heq =>
    subst heq
    exact hop.elim
  | unsubscribed heq _ hpacket =>
    subst heq
    rcases hpacket with ⟨_, rfl⟩ | ⟨_, rfl⟩ <;> exact hop.elim

lemma Move.lasts (hmove : Move env srv op srv') (hop : Neutral op) (k : String) :
    (srv.shard.view k).Lasts (srv'.shard.view k) := by
  have hchain {v' : ClientView}
    (hedits : Relation.ReflTransGen (srv.Edit op k) (srv.shard.view k) v') :
      (srv.shard.view k).Lasts v' := by
    induction hedits with
    | refl => exact .refl _
    | tail _ hedit ih => exact ih.trans (hedit.lasts hop)
  exact hchain (hmove.edits k)

end Server

end Rusquitto
