import Rusquitto.Broker.Announcing

/-!
# Claims and hand-offs

What each operation of a shard does to the cross-shard half of its state: which session-control
messages it puts in the outbox, and that it leaves the mesh, the claims it is waiting on, the
replies to them and the mailboxes alone (`Posts`). Membership announcements share the outbox and are
not counted here.
-/

namespace Rusquitto

open List

/-- What a claim is answered with: the session, unless it is on line or not to be resumed. -/
def ClientView.handedOver (v : ClientView) (resume : Bool) : Option MigratedSession :=
  v.session.bind fun session =>
    if session.mailbox = none ∧ resume then some (ShardState.packageSession v.subs session)
    else none

namespace ShardState

/-- The session-control message in an outbox entry. -/
def controlOf (e : ℕ × MeshMsg) : Option (ℕ × SessionControl) :=
  match e.2 with
  | .control control => some (e.1, control)
  | _ => none

/-- The session-control messages in the outbox, oldest first. -/
def controls (s : ShardState) : List (ℕ × SessionControl) :=
  (s.controlTx.getD []).filterMap controlOf

/-- An operation on the books of a shard that sends the given session-control messages, and
membership announcements. It touches nothing else of the cross-shard state. -/
structure Posts (s s' : ShardState) (sent : List (ℕ × SessionControl)) : Prop where
  frame : ∃ sessions trie wal unparkTx sharedRemote msgs,
    s' = { s with sessions, trie, wal, unparkTx, sharedRemote,
                  controlTx := s.controlTx.map (· ++ msgs) } ∧
      msgs.filterMap controlOf = sent ∧ ∀ e ∈ msgs, ∀ publish, e.2 ≠ .publish publish

variable {s s' s'' : ShardState} {sent : List (ℕ × SessionControl)}

section

variable (h : Posts s s' sent)
include h

lemma Posts.mesh : s'.mesh = s.mesh := by
  obtain ⟨_, _, _, _, _, _, rfl, -⟩ := h
  rfl

lemma Posts.nextGeneration : s'.nextGeneration = s.nextGeneration := by
  obtain ⟨_, _, _, _, _, _, rfl, -⟩ := h
  rfl

lemma Posts.claimReplies : s'.claimReplies = s.claimReplies := by
  obtain ⟨_, _, _, _, _, _, rfl, -⟩ := h
  rfl

lemma Posts.channels : s'.channels = s.channels := by
  obtain ⟨_, _, _, _, _, _, rfl, -⟩ := h
  rfl

lemma Posts.outbox (hs : s.controlTx.isSome) : s'.controlTx.isSome := by
  obtain ⟨_, _, _, _, _, _, rfl, -⟩ := h
  simpa using hs

lemma Posts.controls (hs : s.controlTx.isSome) : s'.controls = s.controls ++ sent := by
  obtain ⟨_, _, _, _, _, _, rfl, rfl, -⟩ := h
  obtain ⟨outbox, houtbox⟩ := Option.isSome_iff_exists.mp hs
  simp [ShardState.controls, houtbox]

end

/-- An operation that sends nothing. -/
lemma Posts.books {sessions : HashMap String Session} {trie : TopicTrie} {wal : Option WalPending}
    {unparkTx : Option (List UnparkCmd)} {sharedRemote : HashMap String (List String)}
    (h : s' = { s with sessions, trie, wal, unparkTx, sharedRemote }) : Posts s s' [] := by
  refine ⟨sessions, trie, wal, unparkTx, sharedRemote, [], ?_, rfl, nofun⟩
  simp [h]

lemma Posts.refl (s : ShardState) : Posts s s [] := .books rfl

lemma Posts.trans {sent' : List (ℕ × SessionControl)} (h : Posts s s' sent)
    (h' : Posts s' s'' sent') : Posts s s'' (sent ++ sent') := by
  obtain ⟨_, _, _, _, _, msgs, rfl, rfl, hmsgs⟩ := h
  obtain ⟨sessions, trie, wal, unparkTx, sharedRemote, msgs', rfl, rfl, hmsgs'⟩ := h'
  refine ⟨sessions, trie, wal, unparkTx, sharedRemote, msgs ++ msgs', ?_, filterMap_append,
    fun e he => ?_⟩
  · simp [Function.comp_def]
  · exact (mem_append.mp he).elim (hmsgs e) (hmsgs' e)

lemma Posts.after (h : Posts s s' []) (h' : Posts s' s'' sent) : Posts s s'' sent :=
  h.trans h'

/-- A message in the outbox was there before, or is an announcement, or is one of those sent. -/
lemma Posts.mem_outbox (h : Posts s s' sent) {e : ℕ × MeshMsg} (he : e ∈ s'.controlTx.getD []) :
    e ∈ s.controlTx.getD [] ∨ (∃ event, e.2 = .shared event) ∨
      ∃ control, e.2 = .control control ∧ (e.1, control) ∈ sent := by
  obtain ⟨_, _, _, _, _, msgs, rfl, rfl, hmsgs⟩ := h
  cases houtbox : s.controlTx with
  | none => simp [houtbox] at he
  | some outbox =>
    simp only [houtbox, Option.map_some, Option.getD_some, mem_append] at he ⊢
    rcases he with he | he
    · exact .inl he
    · obtain ⟨peer, msg⟩ := e
      cases msg with
      | publish publish => exact absurd rfl (hmsgs _ he publish)
      | control control => exact .inr (.inr ⟨control, rfl, mem_filterMap.mpr ⟨_, he, rfl⟩⟩)
      | shared event => exact .inr (.inl ⟨event, rfl⟩)

/-- The shard, but for what another one counts, awaits, retains and has in its channels. -/
def amid (s t : ShardState) : ShardState :=
  { s with
    pendingClaims := t.pendingClaims, nextAssignedId := t.nextAssignedId, channels := t.channels
    claimReplies := t.claimReplies, retained := t.retained, sharedCursor := t.sharedCursor }

lemma Posts.amid (h : Posts s s' sent) (t : ShardState) : Posts (s.amid t) (s'.amid t) sent := by
  obtain ⟨sessions, trie, wal, unparkTx, sharedRemote, msgs, rfl, hsent⟩ := h
  exact ⟨sessions, trie, wal, unparkTx, sharedRemote, msgs, rfl, hsent⟩

/-- An operation that sends no session-control message, and may store and place publishes. -/
abbrev Spreads (s s' : ShardState) : Prop := Posts (s.amid s') s' []

lemma Posts.spreads (h : Posts s s' []) : Spreads s s' := h.amid s'

lemma Spreads.trans (h : Spreads s s') (h' : Spreads s' s'') : Spreads s s'' :=
  (Posts.amid h s'').trans h'

section

variable (s : ShardState)

/-- Appending to the outbox. -/
lemma posts_append {msgs : List (ℕ × MeshMsg)}
    (hmsgs : ∀ e ∈ msgs, ∀ publish, e.2 ≠ .publish publish) :
    Posts s { s with controlTx := s.controlTx.map (· ++ msgs) } (msgs.filterMap controlOf) :=
  ⟨_, _, _, _, _, msgs, rfl, rfl, hmsgs⟩

lemma posts_enqueueControl (peer : ℕ) (control : SessionControl) :
    Posts s (s.enqueueControl peer (.control control)) [(peer, control)] :=
  @posts_append s [(peer, .control control)] fun e he publish => by
    rw [mem_singleton.mp he]
    exact nofun

lemma posts_announce (groups : List String) (clientId : String) (join : Bool) :
    Posts s (s.announce groups clientId join) [] := by
  have hshared (e) (he : e ∈ s.announcements groups clientId join) : ∃ event, e.2 =
    .shared event := by
    unfold announcements at he
    split at he
    · exact nomatch he
    · obtain ⟨group, -, he⟩ := mem_flatMap.mp he
      obtain ⟨idx, -, rfl⟩ := mem_map.mp he
      exact ⟨_, rfl⟩
  have hnone : (s.announcements groups clientId join).filterMap controlOf = [] := by
    rw [filterMap_eq_nil_iff]
    intro e he
    obtain ⟨event, hevent⟩ := hshared e he
    simp [controlOf, hevent]
  rw [announce_eq, ← hnone]
  refine s.posts_append fun e he publish => ?_
  obtain ⟨event, hevent⟩ := hshared e he
  simp [hevent]

lemma posts_broadcastShared (group clientId : String) (join : Bool) :
    Posts s (s.broadcastShared group clientId join) [] :=
  s.posts_announce [group] clientId join

lemma posts_broadcastClaim (clientId : String) (resume : Bool) :
    Posts s (s.broadcastClaim clientId resume)
      (s.peers.map (·, .claim clientId ((s.mesh.map Mesh.peerId).getD 0) resume)) := by
  unfold broadcastClaim peers
  cases hmesh : s.mesh with
  | none => exact .refl s
  | some mesh =>
    simp only
    rw [foldl_enqueueControl]
    have hmsgs : (mesh.peers.map fun idx =>
        ((idx, .control (.claim clientId mesh.peerId resume)) : ℕ × MeshMsg)).filterMap controlOf =
        mesh.peers.map (·, .claim clientId mesh.peerId resume) := by
      rw [filterMap_map, ← filterMap_eq_map]
      rfl
    refine hmsgs ▸ s.posts_append fun e he publish => ?_
    obtain ⟨idx, -, rfl⟩ := mem_map.mp he
    exact nofun

end

/-! ### The operations of a session's life -/

section

variable (s : ShardState) (c : String)

lemma posts_signalCloseParked : Posts s (s.signalCloseParked c) [] := by
  unfold signalCloseParked
  split
  · exact .refl s
  · split
    · exact .books rfl
    · exact .refl s

lemma posts_discardSession : Posts s (s.discardSession c) [] :=
  .books rfl

lemma posts_parkSession (generation : ℕ) (snapshot : SessionSnapshot) :
    Posts s (s.parkSession c generation snapshot).1 [] := by
  unfold parkSession
  split
  · exact .refl s
  · split
    · exact .refl s
    · exact .books rfl

lemma posts_reattachParked (generation mailbox : ℕ) :
    Posts s (s.reattachParked c generation mailbox).1 [] := by
  unfold reattachParked
  split
  · exact .refl s
  · split
    · exact .refl s
    · exact .books rfl

end

section

variable (s : ShardState) (now : ℕ) (c : String) (generation : ℕ) (expirySecs : UInt32)

lemma posts_suspendParked : Posts s (s.suspendParked now c generation expirySecs).1 [] := by
  unfold suspendParked
  split
  · exact .refl s
  · split
    · exact .refl s
    · refine Posts.after ?_ (posts_announce _ _ _ _)
      split <;> exact .books rfl

lemma posts_closeSession (snapshot : SessionSnapshot) (pending : List Delivery) :
    Posts s (s.closeSession now c generation expirySecs snapshot pending).1 [] := by
  unfold closeSession
  split
  · exact .refl s
  · split
    · exact .refl s
    · refine Posts.after ?_ (posts_announce _ _ _ _)
      split <;> exact .books rfl

end

section

variable (s : ShardState)

lemma posts_subscribe (filter c : String) (opts : SubOptions) :
    Posts s (s.subscribe filter c opts).1 [] := by
  unfold subscribe
  split
  · dsimp only
    split
    · refine Posts.after ?_ (posts_broadcastShared _ _ _ _)
      exact .books rfl
    · exact .books rfl
  · exact .books rfl

lemma posts_unsubscribe (filter c : String) (group : Option String) :
    Posts s (s.unsubscribe filter c group).1 [] := by
  unfold unsubscribe
  split
  · dsimp only
    split
    · refine Posts.after ?_ (posts_broadcastShared _ _ _ _)
      exact .books rfl
    · exact .books rfl
  · exact .books rfl

lemma posts_installMigrated (c : String) (migrated : MigratedSession) :
    Posts s (s.installMigrated c migrated).1 [] := by
  refine Posts.after ?_ (posts_announce _ _ _ _)
  exact .books rfl

lemma posts_armWill (now : ℕ) (c : String) (generation : ℕ) (will : Publish) (delaySecs : UInt32) :
    Posts s (s.armWill now c generation will delaySecs) [] := by
  unfold armWill
  split
  · exact .refl s
  · split
    · exact .books rfl
    · exact .refl s

lemma posts_shedConnections (order : List String) (max : ℕ) :
    Posts s (s.shedConnections order max).1 [] := by
  have hone (acc : ShardState × ℕ) (c : String) : Posts acc.1 (shedOne max acc c).1 [] := by
    unfold shedOne
    split
    · exact .refl _
    · split
      · exact .books rfl
      · exact .refl _
  have hall (acc : ShardState × ℕ) : Posts acc.1 (order.foldl (shedOne max) acc).1 [] := by
    induction order generalizing acc with
    | nil => exact .refl _
    | cons c order ih => exact (hone acc c).trans (ih _)
  exact hall (s, 0)

lemma posts_sweepExpired (now : ℕ) : Posts s (s.sweepExpired now).1 [] := by
  have hone (acc : ShardState × List Publish) (c : String) :
      Posts acc.1 (expireOne acc c).1 [] := by
    unfold expireOne
    split
    · exact .refl _
    · exact posts_discardSession _ _
  have hall (ids : List String) (acc : ShardState × List Publish) :
      Posts acc.1 (ids.foldl expireOne acc).1 [] := by
    induction ids generalizing acc with
    | nil => exact .refl _
    | cons c ids ih => exact (hone acc c).trans (ih _)
  have hfire : Posts s (s.fireWills now).1 [] := .books rfl
  exact hfire.trans (hall _ _)

lemma posts_openSession (c : String) (mailbox : ℕ) (cleanStart : Bool) :
    Posts { s with nextGeneration := s.nextGeneration + 1 } (s.openSession c mailbox cleanStart).1
      [] := by
  unfold openSession
  dsimp only
  refine Posts.after (posts_signalCloseParked _ c) ?_
  split
  · exact .books rfl
  · split
    · exact .books rfl
    · refine Posts.after (Posts.after ?_ (posts_announce _ _ _ _)) (.books rfl)
      exact .books rfl

end

lemma handedOver_unparked (v : ClientView) (resume : Bool) :
    (unparked v).handedOver resume = v.handedOver resume := by
  obtain ⟨session, subs, wal⟩ := v
  cases session with
  | none => rfl
  | some session =>
    cases hparked : session.parked with
    | false => simp [unparked, hparked]
    | true =>
      simp [unparked, hparked]
      rfl

lemma posts_handleClaim (s : ShardState) (c : String) (requester : ℕ) (resume : Bool) :
    Posts s (s.handleClaim c requester resume)
      [(requester, .handoff c ((s.view c).handedOver resume))] := by
  have hview := s.view_signalCloseParked c c
  rw [if_pos rfl] at hview
  have hsignal := s.posts_signalCloseParked c
  rw [← handedOver_unparked, ← hview]
  unfold handleClaim
  generalize s.signalCloseParked c = s₁ at hsignal
  have hsend (reply : Option MigratedSession) : Posts s
      ((s₁.discardSession c).enqueueControl requester (.control (.handoff c reply)))
        [(requester, .handoff c reply)] :=
    hsignal.after ((posts_discardSession s₁ c).after (posts_enqueueControl _ _ _))
  simp only [ClientView.handedOver, session_view]
  cases s₁.sessions.lookup c with
  | none => exact hsignal.after (posts_enqueueControl _ _ _)
  | some session =>
    simp only [Option.bind_some, extractSession, TopicTrie.takeClient_eq]
    split <;> exact hsend _

lemma applySharedEvent_frame (s : ShardState) (event : SharedEvent) :
    ∃ sharedRemote, s.applySharedEvent event = { s with sharedRemote } := by
  cases event with
  | join group clientId => exact ⟨_, rfl⟩
  | leave group clientId =>
    simp only [applySharedEvent]
    split
    · exact ⟨s.sharedRemote, rfl⟩
    · exact ⟨_, rfl⟩

lemma posts_applySharedEvent (s : ShardState) (event : SharedEvent) :
    Posts s (s.applySharedEvent event) [] := by
  obtain ⟨_, h⟩ := s.applySharedEvent_frame event
  rw [h]
  exact .books rfl

end ShardState

end Rusquitto
