import Rusquitto.Server.Handover

/-!
# Connections nobody has let in

`handle_connect` stores the client id of a CONNECT before it checks the credentials, and the cleanup
of a refused connection calls `close_session` with it. But the connection has generation zero, and
every session record a positive one, so it leaves no trace (`refused_connection_changes_nothing`).
-/

namespace Rusquitto

open Option Function

variable {task : Option Connection} {op : ServerOp}

/-- The connection a piece of work is done by. -/
def ServerOp.connection : ServerOp → Option ℕ
  | .packet id .. | .receive id | .hangUp id _ | .mailboxClosed id | .claimReply id _
  | .claimTimeout id _ | .close id | .publishWill id _ | .park id _ | .reattach id _ => some id
  | _ => none

namespace Server

variable {env : Env} {srv : Server}

/-! ### Work of other connections -/

/-- Work of at most one connection: the tasks of all others are as they were. -/
structure Leaves (worker : Option ℕ) (srv srv' : Server) : Prop where
  tasks : ∀ id, id < srv.nextChannel → worker ≠ some id → srv'.tasks id = srv.tasks id
  nextChannel : srv.nextChannel ≤ srv'.nextChannel

section Leaves

variable {srv' : Server} {worker : Option ℕ}

lemma Leaves.of_eq (htasks : srv'.tasks = srv.tasks) (hnext : srv'.nextChannel = srv.nextChannel) :
    Leaves worker srv srv' :=
  ⟨fun id _ _ => congrFun htasks id, hnext.ge⟩

/-- The connection's own task is replaced. -/
lemma Leaves.own {id : ℕ} (htasks : srv'.tasks = update srv.tasks id task)
    (hnext : srv'.nextChannel = srv.nextChannel) : Leaves (some id) srv srv' := by
  refine ⟨fun id' _ hne => ?_, hnext.ge⟩
  rw [htasks, update_of_ne fun h => hne (congrArg some h.symm)]

/-- A new task starts. -/
lemma Leaves.spawned (htasks : srv'.tasks = update srv.tasks srv.nextChannel task)
    (hnext : srv'.nextChannel = srv.nextChannel + 1) : Leaves worker srv srv' := by
  refine ⟨fun id' hlt _ => ?_, by omega⟩
  rw [htasks, update_of_ne hlt.ne]

lemma Leaves.trans {srv'' : Server} (h : Leaves worker srv srv') (h' : Leaves worker srv' srv'') :
    Leaves worker srv srv'' where
  tasks id hlt hne := (h'.tasks id (hlt.trans_le h.nextChannel) hne).trans (h.tasks id hlt hne)
  nextChannel := h.nextChannel.trans h'.nextChannel

/-- A piece of work changes no task but that of the connection it belongs to. -/
lemma Move.leaves (h : Move env srv op srv') : Leaves op.connection srv srv' := by
  cases h with
  | idle => exact .of_eq rfl rfl
  | elapse | mesh | publish | shed | load | drainWal | shutDown => exact .of_eq rfl rfl
  | packet | receive | hangUp | mailboxClosed | shutDownNoticed => exact .own rfl rfl
  | claimGoesOn | claimReply | claimTimeout => exact .own rfl rfl
  | closeNameless | closeQuiet | closeWill | closeArm | publishWill => exact .own rfl rfl
  | parkDisplaced | park | reattachLost | reattach => exact .own rfl rfl
  | accept | wake | ingress => exact .spawned rfl rfl
  | @parkFails id _ shard =>
    have hgone : Leaves (some id) srv { srv.setTask id none with shard } := .own rfl rfl
    exact hgone.trans (.spawned rfl rfl)
  | wakeMissed | dismissMissed | dismiss | reapQuiet | reapWill | reapArm | sweep =>
    exact .of_eq rfl rfl

end Leaves

/-! ### A connection that is not let in -/

end Server

/-- A CONNECT that the broker refuses: a client id it does not accept, or credentials it does not.
-/
def Connect.Refused (env : Env) (tls : TlsIdentity) (connect : Connect) : Prop :=
  (connect.clientId ≠ "" ∧ Connection.validClientId connect.clientId = false) ∨
    ∃ code, Connection.authenticate env tls connect.login = .error code

/-- Every CONNECT of the given connection is refused. -/
def ServerOp.Refused (env : Env) (tls : TlsIdentity) (id : ℕ) : ServerOp → Prop
  | .packet id' (.connect connect) _ => id' = id → connect.Refused env tls
  | _ => True

namespace Connection

/-- A connection on which no CONNECT was accepted: in its event loop, or at its end. -/
structure Stranger (tls : TlsIdentity) (c : Connection) : Prop where
  tlsIdentity : c.tlsIdentity = tls
  connected : c.connected = false
  generation : c.sessionGeneration = 0
  phase : c.phase = .running ∨ c.phase = .ending

variable {env : Env} {tls : TlsIdentity} {c : Connection}

/-- What a refused packet does to a shard and a stranger: a client id may be spent. -/
structure Snubs (tls : TlsIdentity) (shard : ShardState) (turn : Turn) : Prop where
  shard : ∃ n, shard.nextAssignedId ≤ n ∧ turn.shard = { shard with nextAssignedId := n }
  forwards : turn.forwards = []
  conn : (settle (turn.conn, turn.outcome)).Stranger tls

lemma Stranger.snubs_rejectConnect {c' : Connection} (h : c'.Stranger tls) (shard : ShardState)
    (code : ConnectReturnCode) : Snubs tls shard (.ofConn shard (c'.rejectConnect code)) :=
  ⟨⟨_, le_rfl, rfl⟩, rfl, ⟨h.tlsIdentity, h.connected, h.generation, .inr rfl⟩⟩

section

variable (h : c.Stranger tls) (shard : ShardState) (chance : Chance)
include h

lemma Stranger.snubs_acceptConnect {connect : Connect} {code : ConnectReturnCode}
    (hauth : authenticate env tls connect.login = .error code) :
    Snubs tls shard (c.acceptConnect env shard chance connect) := by
  have hwill : (c.stashWill connect.lastWill).Stranger tls := by
    unfold stashWill
    split
    · exact h
    · exact ⟨h.tlsIdentity, h.connected, h.generation, h.phase⟩
  unfold acceptConnect
  dsimp only
  rw [hwill.tlsIdentity, hauth]
  exact hwill.snubs_rejectConnect shard code

lemma Stranger.snubs_handleConnect {connect : Connect} (hrefused : connect.Refused env tls) :
    Snubs tls shard (c.handleConnect env shard chance connect) := by
  have hnegotiated (clientId : String) :
      ({ c.negotiate connect.properties with clientId } : Connection).Stranger tls :=
    ⟨h.tlsIdentity, h.connected, h.generation, h.phase⟩
  unfold handleConnect
  split
  · -- a client id is assigned before the credentials are looked at
    next hempty =>
    obtain ⟨code, hauth⟩ := hrefused.resolve_left fun hid => hid.1 hempty
    obtain ⟨⟨n, hle, hshard⟩, hforwards, hconn⟩ := (hnegotiated _).snubs_acceptConnect
      { shard with nextAssignedId := shard.nextAssignedId + 1 } chance hauth
    exact ⟨⟨n, (Nat.le_succ _).trans hle, hshard⟩, hforwards, hconn⟩
  · split
    · exact (hnegotiated c.clientId).snubs_rejectConnect shard _
    · next hvalid =>
      obtain ⟨code, hauth⟩ := hrefused.resolve_left fun hid => hvalid hid.2
      exact (hnegotiated _).snubs_acceptConnect shard chance hauth

end

lemma Stranger.snubs_processOne (env : Env) (h : c.Stranger tls) (shard : ShardState)
    (chance : Chance) (packet : Packet)
    (hrefused : ∀ connect, packet = .connect connect → connect.Refused env tls) :
    Snubs tls shard (c.processOne env shard chance packet) := by
  unfold processOne
  rw [if_neg (by simp [h.connected])]
  split
  · exact h.snubs_handleConnect shard chance (hrefused _ rfl)
  · exact ⟨⟨_, le_rfl, rfl⟩, rfl, ⟨h.tlsIdentity, h.connected, h.generation, .inr rfl⟩⟩

end Connection

namespace Server

variable {env : Env} {srv srv' : Server} {tls : TlsIdentity} {id : ℕ} {c : Connection}

/-- Nothing has changed but the counter of assigned client ids. In particular nothing was delivered,
sent to another shard or parked. -/
structure Untouched (srv srv' : Server) : Prop where
  shard : ∃ n, srv.shard.nextAssignedId ≤ n ∧ srv'.shard = { srv.shard with nextAssignedId := n }
  links : srv'.links = srv.links
  parking : srv'.parking = srv.parking

lemma Untouched.of_eq (hshard : srv'.shard = srv.shard) (hlinks : srv'.links = srv.links)
    (hparking : srv'.parking = srv.parking) : Untouched srv srv' :=
  ⟨⟨srv.shard.nextAssignedId, le_rfl, hshard⟩, hlinks, hparking⟩

lemma Untouched.refl (srv : Server) : Untouched srv srv := .of_eq rfl rfl rfl

lemma Untouched.trans {srv'' : Server} (h : Untouched srv srv') (h' : Untouched srv' srv'') :
    Untouched srv srv'' := by
  obtain ⟨n, hle, hshard⟩ := h.shard
  obtain ⟨n', hle', hshard'⟩ := h'.shard
  rw [hshard] at hle' hshard'
  exact ⟨⟨n', hle.trans hle', hshard'⟩, h'.links.trans h.links, h'.parking.trans h.parking⟩

/-- The task is a stranger's, or gone. -/
def Estranged (tls : TlsIdentity) (id : ℕ) (srv : Server) : Prop :=
  ∀ c, srv.tasks id = some c → c.Stranger tls

lemma Estranged.setTask (h : ∀ c, task = some c → c.Stranger tls)
    (htasks : srv'.tasks = update srv.tasks id task) : srv'.Estranged tls id := by
  intro c hc
  rw [htasks, update_self] at hc
  exact h c hc

lemma Estranged.gone (htasks : srv'.tasks = update srv.tasks id none) : srv'.Estranged tls id := by
  refine .setTask (fun c hc => ?_) htasks
  exact nomatch hc

lemma Estranged.phase (h : srv.Estranged tls id) (hc : srv.tasks id = some c) :
    c.phase = .running ∨ c.phase = .ending := (h c hc).phase

/-- The cleanup of a stranger finds no session of its generation, whatever client id it was given.
-/
lemma Inv.close_of_stranger (hinv : srv.Inv) (h : c.Stranger tls) :
    srv.tearDown c = (srv.shard, false) := by
  refine closeSession_of_stranger (fun session hs => ?_) ..
  rw [h.generation]
  exact (hinv.generation_pos _ session hs).ne'

/-- A stranger's own work. -/
lemma Inv.untouched (hinv : srv.Inv) (h : srv.Estranged tls id) (hop : op.connection = some id)
    (hrefused : op.Refused env tls id) (hmove : Move env srv op srv') :
    Untouched srv srv' ∧ srv'.Estranged tls id := by
  cases hmove with
  | idle => exact ⟨.refl srv, h⟩
  | elapse | accept | mesh | publish | shed | load | drainWal | shutDown => exact nomatch hop
  | wakeMissed | wake | dismissMissed | dismiss | ingress => exact nomatch hop
  | reapQuiet | reapWill | reapArm | sweep => exact nomatch hop
  | packet p chance hc =>
    obtain rfl := some.inj hop
    obtain ⟨⟨n, hle, hshard⟩, hforwards, hconn⟩ :=
      (h _ hc).snubs_processOne env srv.shard chance p fun connect heq => by
        subst heq
        exact hrefused rfl
    refine ⟨⟨⟨n, hle, hshard⟩, ?_, rfl⟩, .setTask (fun c hc => ?_) rfl⟩
    · rw [finishTurn, hforwards]
      exact List.append_nil _
    · exact some.inj hc ▸ hconn
  | receive hc hphase hchannel =>
    obtain rfl := some.inj hop
    -- nothing is ever placed in its mailbox
    rcases (hinv.quiet _ (by rw [hchannel]; exact List.cons_ne_nil _ _)).2 _ hc with hopen | hopen
    · rw [(h _ hc).connected] at hopen
      exact nomatch hopen
    · exact absurd hphase hopen
  | hangUp _ _ hc | mailboxClosed hc | shutDownNoticed hc =>
    obtain rfl := some.inj hop
    refine ⟨.of_eq rfl rfl rfl, .setTask (fun c' hc' => ?_) rfl⟩
    rw [← some.inj hc']
    exact ⟨(h _ hc).tlsIdentity, (h _ hc).connected, (h _ hc).generation, .inr rfl⟩
  | claimGoesOn _ hc hphase | claimReply _ hc hphase | claimTimeout _ hc hphase
  | publishWill _ hc hphase | reattachLost _ hc hphase | reattach _ hc hphase =>
    obtain rfl := some.inj hop
    rcases h.phase hc with hp | hp <;> exact nomatch hp.symm.trans hphase
  | closeNameless => obtain rfl := some.inj hop; exact ⟨.of_eq rfl rfl rfl, .gone rfl⟩
  | closeQuiet hc _ _ hclose =>
    obtain rfl := some.inj hop
    obtain ⟨rfl, -⟩ := Prod.mk.inj ((hinv.close_of_stranger (h _ hc)).symm.trans hclose)
    exact ⟨.of_eq rfl rfl rfl, .gone rfl⟩
  | closeWill hc _ _ hclose | closeArm hc _ _ hclose =>
    obtain rfl := some.inj hop
    exact nomatch (Prod.mk.inj ((hinv.close_of_stranger (h _ hc)).symm.trans hclose)).2
  | parkDisplaced _ hc _ hready | parkFails hc _ hready | park hc _ hready =>
    obtain rfl := some.inj hop
    simp [Connection.parkReady, (h _ hc).connected] at hready

/-- Whoever works, the stranger stays one. -/
lemma Inv.estranged (hinv : srv.Inv) (h : srv.Estranged tls id) (hlt : id < srv.nextChannel)
    (hrefused : op.Refused env tls id) : (srv.apply env op).Estranged tls id := by
  by_cases hop : op.connection = some id
  · exact (hinv.untouched h hop hrefused (move_apply env srv op)).2
  · intro c hc
    rw [(move_apply env srv op).leaves.tasks id hlt hop] at hc
    exact h c hc

/-- A connection on which no CONNECT is accepted changes nothing: from its accept on, whatever work
of others lies in between, each piece of work of the connection, its cleanup included, leaves the
shard, the links to other shards and the parked connections as they are, but for the counter of
assigned ids. -/
theorem refused_connection_changes_nothing (env : Env) {srv₀ srv : Server} (h₀ : srv₀.Started)
    (hrun : Reached env (fun _ _ => True) srv₀ srv) (tls : TlsIdentity) (ops : List ServerOp)
    (hrefused : ∀ op ∈ ops, op.Refused env tls srv.nextChannel) :
    (∀ before op after, ops = before ++ op :: after → op.connection = some srv.nextChannel →
      Untouched (Lib.run (fun s op => s.apply env op) (srv.apply env (.accept tls)) before)
        ((Lib.run (fun s op => s.apply env op) (srv.apply env (.accept tls)) before).apply env
          op)) ∧
    ((∀ op ∈ ops, op.connection = some srv.nextChannel) →
      Untouched srv (Lib.run (fun s op => s.apply env op) (srv.apply env (.accept tls)) ops)) := by
  have hinv := Reached.inv h₀ hrun
  obtain ⟨id, hid⟩ : ∃ id, id = srv.nextChannel := ⟨_, rfl⟩
  rw [← hid] at hrefused ⊢
  -- the new connection is a stranger
  have hstart : (srv.apply env (.accept tls)).Inv ∧ (srv.apply env (.accept tls)).Estranged tls id ∧
      id < (srv.apply env (.accept tls)).nextChannel := by
    refine ⟨hinv.apply _, fun c hc => ?_, hid ▸ Nat.lt_succ_self _⟩
    have hnew : (srv.apply env (.accept tls)).tasks id =
        some (.new id srv.shardId srv.limits tls) := by
      rw [hid]
      exact update_self ..
    rw [hnew, some.injEq] at hc
    subst hc
    exact ⟨rfl, rfl, rfl, .inl rfl⟩
  have hkept (ops : List ServerOp) (s : Server) (hops : ∀ op ∈ ops, op.Refused env tls id)
      (hs : s.Inv ∧ s.Estranged tls id ∧ id < s.nextChannel) :
      (Lib.run (fun s op => s.apply env op) s ops).Inv ∧
        (Lib.run (fun s op => s.apply env op) s ops).Estranged tls id := by
    induction ops generalizing s with
    | nil => exact ⟨hs.1, hs.2.1⟩
    | cons op ops ih =>
      obtain ⟨hop, hops⟩ := List.forall_mem_cons.mp hops
      exact ih _ hops ⟨hs.1.apply op, hs.1.estranged hs.2.1 hs.2.2 hop,
        hs.2.2.trans_le (move_apply env s op).leaves.nextChannel⟩
  refine ⟨fun before op after hsplit hop => ?_, fun hown => ?_⟩
  · rw [hsplit, List.forall_mem_append, List.forall_mem_cons] at hrefused
    obtain ⟨hinv', hstranger⟩ := hkept before _ hrefused.1 hstart
    exact (hinv'.untouched hstranger hop hrefused.2.1 (move_apply ..)).1
  · have haccepted : Untouched srv (srv.apply env (.accept tls)) := .of_eq rfl rfl rfl
    refine haccepted.trans ?_
    generalize srv.apply env (.accept tls) = s at hstart
    clear haccepted hkept
    induction ops generalizing s with
    | nil => exact .refl s
    | cons op ops ih =>
      obtain ⟨hop, hrefused⟩ := List.forall_mem_cons.mp hrefused
      obtain ⟨hconnection, hown⟩ := List.forall_mem_cons.mp hown
      obtain ⟨huntouched, hstranger⟩ := hstart.1.untouched hstart.2.1 hconnection hop
        (move_apply ..)
      exact huntouched.trans (ih hrefused hown _ ⟨hstart.1.apply op, hstranger,
        hstart.2.2.trans_le (move_apply env s op).leaves.nextChannel⟩)

/-- Somebody the broker does not know tries to connect as the client with the suspended session, and
is hung up on. -/
def strangerOps : List ServerOp :=
  [.packet 1 (.connect
      { clientId := "a", cleanSession := true, login := some { username := "mallory", password := "" },
        lastWill := some { topic := "t", message := [], qos := .atMostOnce } }) {},
    .close 1]

theorem refused_connection_changes_nothing_suspended : suspendedServer.nextChannel = 1 ∧
    (∀ op ∈ strangerOps, op.Refused openEnv .none 1) ∧
    Untouched suspendedServer (Lib.run (fun s op => s.apply openEnv op)
      (suspendedServer.apply openEnv (.accept .none)) strangerOps) := by
  have hrefused : ∀ op ∈ strangerOps, op.Refused openEnv .none 1 := by
    intro op hop
    simp only [strangerOps, List.mem_cons, List.not_mem_nil, or_false] at hop
    obtain rfl | rfl := hop
    · exact fun _ => .inr ⟨.badUserNamePassword, rfl⟩
    · trivial
  have hown : ∀ op ∈ strangerOps, op.connection = some 1 := by
    intro op hop
    simp only [strangerOps, List.mem_cons, List.not_mem_nil, or_false] at hop
    obtain rfl | rfl := hop <;> rfl
  exact ⟨rfl, hrefused, (refused_connection_changes_nothing openEnv freshServer_started
    suspendedServer_reached .none strangerOps hrefused).2 hown⟩

end Server

end Rusquitto
