import Rusquitto.Server.Standing

/-!
# Who touches a session record

`Session.outline` is a record's mode (its mailbox, or parked, or its deadline), generation, snapshot
and will; the rest is the queue, which any publish may change. The outline of a record changes by
few operations, and each names its client. `Connection.Answer` says what may come of a packet: the
connection serves it, or it turns the client away, or it opens the session.
-/

namespace Rusquitto

open ShardState Session Option

/-- What a session record says, apart from the messages that queue in it. -/
structure Session.Outline where
  mailbox : Option ℕ
  generation : ℕ
  parked : Bool
  expiresAt : Option ℕ
  pendingWill : Option (Publish × ℕ)
  snapshot : Option SessionSnapshot

def Session.outline (session : Session) : Outline where
  mailbox := session.mailbox
  generation := session.generation
  parked := session.parked
  expiresAt := session.expiresAt
  pendingWill := session.pendingWill
  snapshot := session.snapshot

namespace Session.Outline

/-- The record of a session that was just opened. -/
def live (mailbox generation : ℕ) : Outline where
  mailbox := some mailbox
  generation
  parked := false
  expiresAt := none
  pendingWill := none
  snapshot := none

/-- The record of a session that was just loaded. -/
def loaded (now generation : ℕ) (ps : PersistedSession) : Outline where
  mailbox := none
  generation
  parked := false
  expiresAt := expiryDeadline now ps.expirySecs
  pendingWill := none
  snapshot := some
    { inflight := ps.session.inflight
      incomingQos2 := ps.session.incomingQos2
      nextPkid := ps.session.nextPkid }

/-- The record after its connection has closed. -/
def close (o : Outline) (now : ℕ) (expirySecs : UInt32) (snapshot : SessionSnapshot) : Outline :=
  { o with mailbox := none, snapshot := some snapshot, expiresAt := expiryDeadline now expirySecs }

/-- The record after its parked connection has closed. -/
def suspend (o : Outline) (now : ℕ) (expirySecs : UInt32) : Outline :=
  { o with parked := false, expiresAt := expiryDeadline now expirySecs }

def park (o : Outline) (snapshot : SessionSnapshot) : Outline :=
  { o with mailbox := none, parked := true, expiresAt := none, snapshot := some snapshot }

def reattach (o : Outline) (mailbox : ℕ) : Outline :=
  { o with mailbox := some mailbox, parked := false, snapshot := none }

def armWill (o : Outline) (will : Publish) (deadline : ℕ) : Outline :=
  { o with pendingWill := some (will, deadline) }

/-- The record, or nothing when the session ends with its connection. -/
def unlessEnded (o : Outline) (expirySecs : UInt32) : Option Outline :=
  if expirySecs = 0 then none else some o

/-- Whether a session without a mailbox has passed its deadline. -/
def expired (o : Outline) (now : ℕ) : Bool :=
  o.mailbox.isNone && o.expiresAt.any (· ≤ now)

/-- The record after a due will is taken. -/
def fireWill (o : Outline) (now : ℕ) : Outline :=
  if o.pendingWill.any (·.2 ≤ now) then { o with pendingWill := none } else o

lemma eq_of_unlessEnded {o o' : Outline} {expirySecs : UInt32}
    (h : o.unlessEnded expirySecs = some o') : o' = o :=
  (some.inj (ite_none_left_eq_some.mp h).2).symm

/-- A session that keeps a will goes on. -/
lemma unlessEnded_of_min {o : Outline} {willDelay expirySecs : UInt32}
    (h : min willDelay expirySecs ≠ 0) : o.unlessEnded expirySecs = some o := by
  refine if_neg fun hzero => h ?_
  rw [hzero]
  show (if willDelay ≤ 0 then willDelay else 0) = 0
  split
  · next hle => exact UInt32.le_zero_iff.mp hle
  · rfl

end Session.Outline

lemma Session.outline_fireWill (session : Session) (now : ℕ) :
    (session.fireWill now).outline = session.outline.fireWill now := by
  have hdue : session.outline.pendingWill.any (·.2 ≤ now) = session.willDue now := rfl
  rw [fireWill, Outline.fireWill, hdue]
  split <;> rfl

open Session (Outline)

namespace ShardState

/-- Every session record has the outline it had. -/
def SameRecords (s s' : ShardState) : Prop :=
  ∀ k, (s'.sessions.lookup k).map outline = (s.sessions.lookup k).map outline

variable {s s' s'' : ShardState} {k : String}

lemma SameRecords.refl (s : ShardState) : SameRecords s s := fun _ => rfl

lemma SameRecords.trans (h : SameRecords s s') (h' : SameRecords s' s'') : SameRecords s s'' :=
  fun k => (h' k).trans (h k)

lemma SameRecords.of_eq (h : s'.sessions = s.sessions) : SameRecords s s' := fun k => by rw [h]

lemma SameRecords.of_view (h : ∀ k, (s'.view k).session = (s.view k).session) : SameRecords s s' :=
  fun k => congrArg (Option.map outline) (h k)

/-- A publish changes queues only. -/
lemma sameRecords_deliverLocal (s : ShardState) (hash : ContentHash) (publish : Publish)
    (publisher : Option String) : SameRecords s (s.deliverLocal hash publish publisher) :=
  fun k => (s.receives_deliverLocal hash publish publisher k).session_map outline
    fun _ _ _ => rfl

lemma sameRecords_closed (hash : ContentHash) : Closed hash SameRecords where
  refl := .refl
  trans := .trans
  deliverLocal s := s.sameRecords_deliverLocal hash
  subscribe s filter c opts := .of_view fun k => by
    rw [view_subscribe]
    split <;> rfl
  unsubscribe s filter c group := .of_view fun k => by
    rw [view_unsubscribe]
    split <;> rfl

lemma sameRecords_installMigrated (s : ShardState) (clientId : String)
    (migrated : MigratedSession) : SameRecords s (s.installMigrated clientId migrated).1 :=
  .of_view fun k => by
    unfold installMigrated
    rw [view_announce]
    rfl

/-- Only a claim touches a record from another shard. -/
lemma sameRecords_handleMeshMsg (s : ShardState) (hash : ContentHash) {msg : MeshMsg}
    (h : ∀ clientId requester resume, msg ≠ .control (.claim clientId requester resume)) :
    SameRecords s (s.handleMeshMsg hash msg) := by
  cases msg with
  | publish publish => exact s.sameRecords_deliverLocal hash publish none
  | control control =>
    cases control with
    | claim clientId requester resume => exact absurd rfl (h clientId requester resume)
    | handoff clientId session =>
      refine .of_eq ?_
      simp only [handleMeshMsg, onControl]
      split <;> rfl
  | shared event =>
    refine .of_eq ?_
    cases event with
    | join => rfl
    | leave =>
      simp only [handleMeshMsg, applySharedEvent]
      split <;> rfl

/-! ### Operations that rewrite the record of one client -/

/-- The record of one client is rewritten, and all others have the outline they had. -/
def Rewrites (s s' : ShardState) (c : String) (o : Option Outline) : Prop :=
  ∀ k, (s'.sessions.lookup k).map outline =
    if k = c then o else (s.sessions.lookup k).map outline

variable {c : String} {o : Option Outline} {generation mailbox now : ℕ} {expirySecs : UInt32}
  {snapshot : SessionSnapshot}

lemma Rewrites.of_view (h : ∀ k, (s'.view k).session.map outline =
    if k = c then o else (s.view k).session.map outline) : Rewrites s s' c o := h

lemma Rewrites.trans_same (h : Rewrites s s' c o) (h' : SameRecords s' s'') :
    Rewrites s s'' c o :=
  fun k => (h' k).trans (h k)

lemma Rewrites.trans {o' : Option Outline} (h : Rewrites s s' c o) (h' : Rewrites s' s'' c o') :
    Rewrites s s'' c o' := by
  intro k
  rw [h' k, h k]
  split <;> rfl

section

variable (s : ShardState) (c : String)

lemma rewrites_insert (session : Session) :
    Rewrites s { s with sessions := s.sessions.insert c session } c (some session.outline) := by
  intro k
  rw [AList.lookup_insert_eq_ite]
  split <;> rfl

lemma rewrites_openSession (mailbox : ℕ) (cleanStart : Bool) :
    Rewrites s (s.openSession c mailbox cleanStart).1 c
      (some (.live mailbox (s.nextGeneration + 1))) :=
  .of_view fun k => by
    rw [view_openSession]
    split
    · unfold ClientView.opened
      split
      · rfl
      · split <;> rfl
    · rfl

lemma rewrites_handleClaim (requester : ℕ) (resume : Bool) :
    Rewrites s (s.handleClaim c requester resume) c none :=
  .of_view fun k => by
    rw [view_handleClaim]
    split
    · unfold ClientView.claimed
      split
      · next hnone => rw [hnone]; rfl
      · rfl
    · rfl

end

lemma rewrites_loadSession (s : ShardState) (now : ℕ) (ps : PersistedSession) :
    Rewrites s (s.loadSession now ps) ps.clientId
      (some (.loaded now (s.nextGeneration + 1) ps)) := by
  intro k
  rw [loadSession, AList.lookup_insert_eq_ite]
  split <;> rfl

lemma Rewrites.of_ended {session : Session} (h : ∀ k, s'.sessions.lookup k =
    if k = c then if expirySecs = 0 then none else some session else s.sessions.lookup k) :
    Rewrites s s' c (session.outline.unlessEnded expirySecs) := by
  intro k
  rw [h, Outline.unlessEnded]
  split
  · split <;> rfl
  · rfl

/-- Whether a closing connection still owned its session. -/
lemma closeSession_eq {pending : List Delivery} {owned : Bool}
    (h : s.closeSession now c generation expirySecs snapshot pending = (s', owned)) :
    (owned = false ∧ s' = s ∧
      ∀ session, s.sessions.lookup c = some session → session.generation ≠ generation) ∨
    (owned = true ∧ ∃ session, s.sessions.lookup c = some session ∧ session.generation =
      generation ∧
      Rewrites s s' c ((session.outline.close now expirySecs snapshot).unlessEnded expirySecs)) :=
  (closeSession_cases h).imp_right fun ⟨howned, session, hs, hgen, hlookup⟩ =>
    ⟨howned, session, hs, hgen, .of_ended hlookup⟩

/-- Whether the session of a parked connection that closes was still parked. -/
lemma suspendParked_eq {owned : Bool}
    (h : s.suspendParked now c generation expirySecs = (s', owned)) :
    (owned = false ∧ s' = s ∧ ∀ session, s.sessions.lookup c = some session →
      session.generation = generation → session.parked = false) ∨
    (owned = true ∧ ∃ session, s.sessions.lookup c = some session ∧
      session.generation = generation ∧ session.parked = true ∧
      Rewrites s s' c ((session.outline.suspend now expirySecs).unlessEnded expirySecs)) := by
  obtain ⟨howned, heq, hnot⟩ | ⟨howned, session, hs, hown, hlookup⟩ := suspendParked_cases h
  · exact .inl ⟨howned, heq, fun session hs hgen =>
      (hnot session hs).resolve_left (not_not.mpr hgen)⟩
  · rw [not_or, not_not, Bool.not_eq_false] at hown
    exact .inr ⟨howned, session, hs, hown.1, hown.2, .of_ended hlookup⟩

lemma parkSession_eq_true (h : s.parkSession c generation snapshot = (s', true)) :
    ∃ session, s.sessions.lookup c = some session ∧ session.generation = generation ∧
      session.mailbox.isSome = true ∧ Rewrites s s' c (some (session.outline.park snapshot)) := by
  obtain ⟨heq, -⟩ | ⟨session, hs, hown, heq⟩ := parkSession_cases h
  · cases heq
  · rw [not_or, not_not, ← ne_eq, ← isSome_iff_ne_none] at hown
    cases heq
    exact ⟨session, hs, hown.1, hown.2, s.rewrites_insert c (session.park snapshot)⟩

/-- The session of the client is of this generation. -/
def Current (s : ShardState) (c : String) (generation : ℕ) : Prop :=
  ∃ session, s.sessions.lookup c = some session ∧ session.generation = generation

lemma Current.of_close {pending : List Delivery}
    (h : s.closeSession now c generation expirySecs snapshot pending = (s', true)) :
    s.Current c generation := by
  rcases closeSession_eq h with ⟨hnot, -⟩ | ⟨-, session, hs, hgen, -⟩
  · exact nomatch hnot
  · exact ⟨session, hs, hgen⟩

lemma Current.of_park (h : s.parkSession c generation snapshot = (s', true)) :
    s.Current c generation := by
  obtain ⟨session, hs, hgen, -⟩ := parkSession_eq_true h
  exact ⟨session, hs, hgen⟩

lemma parkSession_eq_false (h : s.parkSession c generation snapshot = (s', false)) :
    s' = s ∧ ∀ session, s.sessions.lookup c = some session → session.generation = generation →
      session.mailbox = none := by
  obtain ⟨heq, hnot⟩ | ⟨_, -, -, heq⟩ := parkSession_cases h <;> cases heq
  exact ⟨rfl, fun session hs hgen => (hnot session hs).resolve_left (not_not.mpr hgen)⟩

lemma reattachParked_eq_none (h : s.reattachParked c generation mailbox = (s', none)) :
    s' = s ∧ ∀ session, s.sessions.lookup c = some session → session.generation = generation →
      session.parked = false := by
  obtain ⟨heq, hnot⟩ | ⟨_, -, -, heq⟩ := reattachParked_cases h <;> cases heq
  exact ⟨rfl, fun session hs hgen => (hnot session hs).resolve_left (not_not.mpr hgen)⟩

lemma reattachParked_eq_some {resumed : SessionSnapshot × List Delivery}
    (h : s.reattachParked c generation mailbox = (s', some resumed)) :
    ∃ session, s.sessions.lookup c = some session ∧ session.generation = generation ∧
      session.parked = true ∧ Rewrites s s' c (some (session.outline.reattach mailbox)) := by
  obtain ⟨heq, -⟩ | ⟨session, hs, hown, heq⟩ := reattachParked_cases h
  · cases heq
  · rw [not_or, not_not, Bool.not_eq_false] at hown
    cases heq
    exact ⟨session, hs, hown.1, hown.2, s.rewrites_insert c (session.reattach mailbox)⟩

lemma rewrites_armWill {session : Session} (hs : s.sessions.lookup c = some session) (now : ℕ)
    (will : Publish) (delaySecs : UInt32) :
    Rewrites s (s.armWill now c session.generation will delaySecs) c
      (some (session.outline.armWill will (afterSecs now delaySecs))) := by
  simp only [armWill, hs, if_pos]
  exact s.rewrites_insert c (session.armWill will (afterSecs now delaySecs))

/-- A record that was rewritten gets a will. -/
lemma Rewrites.trans_armWill {o : Outline} (h : Rewrites s s' c (some o)) {generation : ℕ}
    (hgen : o.generation = generation) (now : ℕ) (will : Publish) (delaySecs : UInt32) :
    Rewrites s (s'.armWill now c generation will delaySecs) c
      (some (o.armWill will (afterSecs now delaySecs))) := by
  have hc := h c
  rw [if_pos rfl] at hc
  obtain ⟨session, hs, rfl⟩ := map_eq_some_iff.mp hc
  obtain rfl : session.generation = generation := hgen
  exact h.trans (rewrites_armWill hs now will delaySecs)

end ShardState

namespace Connection

variable (env : Env) (c : Connection) (shard : ShardState) (chance : Chance)

/-- What may come of a packet. -/
inductive Answer (packet : Packet) (turn : Turn) : Prop where
  /-- The connection is past its handshake. -/
  | served (hconnected : c.connected = true) (hturn : turn = c.dispatch env shard chance packet)
  /-- The client is turned away. -/
  | refused {c₁ c₂ : Connection} {nextAssignedId : ℕ} {e : ConnError}
    (hconnected : c.connected = false) (hvet : Vetted c c₁)
    (hturn : turn = .ofConn { shard with nextAssignedId } (c₂, .error e))
    (hstanding : c₂.standing = c₁.standing)
  /-- The client is let in. -/
  | opened {c₁ : Connection} {nextAssignedId : ℕ} {connect : Connect}
    (hconnected : c.connected = false) (hpacket : packet = .connect connect) (hvet : Vetted c c₁)
    (hname : c₁.clientId ≠ "")
    (hturn : turn = c₁.openHandle env { shard with nextAssignedId } chance connect.cleanSession
      (connect.clientId = "")) (hid : c₁.clientId = c.connectingId shard chance connect)

lemma answer_processOne (packet : Packet) :
    Answer env c shard chance packet (c.processOne env shard chance packet) := by
  unfold processOne
  cases hconnected : c.connected with
  | true => exact .served hconnected rfl
  | false =>
    rw [if_neg Bool.false_ne_true]
    split
    · next connect =>
      obtain ⟨c₁, n, hvet, ⟨code, heq⟩ | ⟨hid, heq⟩⟩ :=
        handleConnect_named env c shard chance connect
      · exact .refused hconnected hvet heq rfl
      · refine .opened hconnected rfl hvet ?_ heq hid
        rw [hid]
        exact connectingId_ne_empty c shard chance connect
    · exact .refused hconnected ⟨_, _, _, _, _, _, _, _, rfl⟩ rfl rfl

/-- Only a CONNECT that is let in gives the connection a session of its own. -/
lemma generation_processOne (packet : Packet) :
    (c.processOne env shard chance packet).conn.sessionGeneration = c.sessionGeneration ∨
      c.connected = false ∧
        (c.processOne env shard chance packet).conn.sessionGeneration =
          shard.nextGeneration + 1 := by
  have hanswer := answer_processOne env c shard chance packet
  generalize c.processOne env shard chance packet = turn at hanswer
  cases hanswer with
  | served hconnected hturn =>
    obtain ⟨_, _, _, _, -, hst⟩ := standing_dispatch env c shard chance packet
    exact .inl (hturn ▸ congrArg (fun st => st.identity.sessionGeneration) hst)
  | refused hconnected hvet hturn hst =>
    obtain ⟨_, _, _, _, _, _, _, _, rfl⟩ := hvet
    exact .inl (hturn ▸ congrArg (fun st => st.identity.sessionGeneration) hst)
  | @opened c₁ n connect hconnected hpacket hvet hname hturn hid =>
    obtain ⟨_, _, -, hst⟩ := standing_openHandle env c₁ { shard with nextAssignedId := n } chance
      connect.cleanSession (connect.clientId = "")
    exact .inr ⟨hconnected, hturn ▸ congrArg (fun st => st.identity.sessionGeneration) hst⟩

lemma sameRecords_openHandle (cleanStart assigned : Bool) :
    SameRecords (shard.openSession c.clientId c.mailboxRx cleanStart).1
      (c.openHandle env shard chance cleanStart assigned).shard :=
  shard_openHandle env c shard chance cleanStart assigned (.refl _)
    (fun _ h => h.trans (.of_eq rfl))
    fun _ _ h => h.trans (.of_view fun k => by rw [view_broadcastClaim])

lemma rewrites_openHandle (cleanStart assigned : Bool) :
    Rewrites shard (c.openHandle env shard chance cleanStart assigned).shard c.clientId
      (some (.live c.mailboxRx (shard.nextGeneration + 1))) :=
  (shard.rewrites_openSession c.clientId c.mailboxRx cleanStart).trans_same
    (sameRecords_openHandle env c shard chance cleanStart assigned)

lemma sameRecords_claimed (assigned : Bool) (found : Option MigratedSession) :
    SameRecords shard (c.claimed env shard chance assigned found).shard := by
  unfold claimed
  split
  · exact .of_eq rfl
  · exact (SameRecords.of_eq rfl).trans (sameRecords_installMigrated _ _ _)

end Connection

end Rusquitto
