import Rusquitto.Server.Accounting

/-!
# The life of a session

A session is connected, parked or suspended: `Session.Lawful` is the law between the fields that say
which, and `Session.Attached` what the record looks like while its connection runs.
`Session.Evolves` is what a step of the shard alone may do to a record, `ShardState.Tame` what it
may do to a shard, and `ShardState.Calm` adds that no other shard is told.
-/

namespace Rusquitto

open ShardState ClientView Session Option

variable {v v' : ClientView}

namespace Session

/-- The law of a session record. -/
structure Lawful (session : Session) : Prop where
  parked : session.parked = true →
    session.mailbox = none ∧ session.snapshot.isSome ∧ session.expiresAt = none
  live : session.mailbox.isSome → session.snapshot = none ∧ session.offlineQueue = [] ∧
    session.expiresAt = none ∧ session.parked = false
  wake : session.wakePending = true ↔ session.parked = true ∧ session.offlineQueue ≠ []
  will : session.pendingWill.isSome → session.mailbox = none ∧ session.parked = false

/-- The record of a session whose connection runs: everything durable is with the connection. The
mailbox is the connection's, or was dropped when the connection was shed. -/
structure Attached (session : Session) (id : ℕ) : Prop where
  parked : session.parked = false
  snapshot : session.snapshot = none
  expiresAt : session.expiresAt = none
  pendingWill : session.pendingWill = none
  mailbox : session.mailbox = some id ∨ session.mailbox = none

variable {session session' : Session}

lemma Lawful.not_wakePending (h : session.Lawful) (hp : session.parked = false) :
    session.wakePending = false := by
  rw [Bool.eq_false_iff]
  intro hw
  rw [(h.wake.mp hw).1] at hp
  exact nomatch hp

lemma lawful_fresh (mailbox generation : ℕ) : (fresh mailbox generation).Lawful where
  parked := nofun
  live _ := ⟨rfl, rfl, rfl, rfl⟩
  wake := by simp [fresh]
  will := nofun

lemma attached_fresh (mailbox generation : ℕ) : (fresh mailbox generation).Attached mailbox :=
  ⟨rfl, rfl, rfl, rfl, .inl rfl⟩

section

variable (session : Session) (mailbox generation : ℕ)

lemma lawful_resume : (session.resume mailbox generation).Lawful where
  parked := nofun
  live _ := ⟨rfl, rfl, rfl, rfl⟩
  wake := by simp [resume]
  will := nofun

lemma attached_resume : (session.resume mailbox generation).Attached mailbox :=
  ⟨rfl, rfl, rfl, rfl, .inl rfl⟩

end

section

variable (h : session.Lawful)
include h

lemma Lawful.park (hm : session.mailbox.isSome) (snapshot : SessionSnapshot) :
    (session.park snapshot).Lawful where
  parked _ := ⟨rfl, rfl, rfl⟩
  live := nofun
  wake := by simp [Session.park, (h.live hm).2.1]
  will hw := by
    rw [(h.will hw).1] at hm
    exact nomatch hm

lemma Lawful.reattach (hp : session.parked = true) (mailbox : ℕ) :
    (session.reattach mailbox).Lawful where
  parked := nofun
  live _ := ⟨rfl, rfl, (h.parked hp).2.2, rfl⟩
  wake := by simp [Session.reattach]
  will hw := by
    rw [(h.will hw).2] at hp
    exact nomatch hp

lemma Lawful.attached_reattach (hp : session.parked = true) (mailbox : ℕ) :
    (session.reattach mailbox).Attached mailbox where
  parked := rfl
  snapshot := rfl
  expiresAt := (h.parked hp).2.2
  pendingWill := by
    by_contra hw
    have hnot := (h.will (isSome_iff_ne_none.mpr hw)).2
    rw [hp] at hnot
    exact nomatch hnot
  mailbox := .inl rfl

lemma Lawful.close {id : ℕ} (ha : session.Attached id) (now : ℕ) (expirySecs : UInt32)
    (snapshot : SessionSnapshot) (pending : List Delivery) :
    (session.close now expirySecs snapshot pending).Lawful where
  parked hp := by
    have hp : session.parked = true := hp
    rw [ha.parked] at hp
    exact nomatch hp
  live := nofun
  wake := by simp [Session.close, ha.parked, h.not_wakePending ha.parked]
  will _ := ⟨rfl, ha.parked⟩

lemma Lawful.armWill (hm : session.mailbox = none) (hp : session.parked = false) (will : Publish)
    (deadline : ℕ) : (session.armWill will deadline).Lawful where
  parked := h.parked
  live := h.live
  wake := h.wake
  will _ := ⟨hm, hp⟩

end

/-- The record a connection finds after it has opened its session. -/
lemma exists_opened (v : ClientView) (mailbox generation : ℕ) (cleanStart : Bool) :
    ∃ session, (v.opened mailbox generation cleanStart).session = some session ∧ session.Lawful ∧
      session.generation = generation ∧ session.Attached mailbox ∧ session.online = true := by
  unfold opened
  split
  · exact ⟨_, rfl, lawful_fresh _ _, rfl, attached_fresh _ _, rfl⟩
  · split
    · exact ⟨_, rfl, lawful_fresh _ _, rfl, attached_fresh _ _, rfl⟩
    · exact ⟨_, rfl, lawful_resume _ _ _, rfl, attached_resume _ _ _, rfl⟩

/-! ### Steps of the shard alone -/

/-- What a step of the shard alone does to a record: the generation stays, a live mailbox may be
dropped, and the law is kept. -/
structure Evolves (session session' : Session) : Prop where
  generation : session'.generation = session.generation
  mailbox : session'.mailbox = session.mailbox ∨ session'.mailbox = none
  lawful : session.Lawful → session'.Lawful
  attached : ∀ id, session.Attached id → session'.Attached id

lemma Evolves.refl (session : Session) : session.Evolves session :=
  ⟨rfl, .inl rfl, id, fun _ => id⟩

lemma Evolves.trans {s₁ s₂ s₃ : Session} (h : s₁.Evolves s₂) (h' : s₂.Evolves s₃) :
    s₁.Evolves s₃ where
  generation := h'.generation.trans h.generation
  mailbox := by
    rcases h'.mailbox with h' | h'
    · rw [h']
      exact h.mailbox
    · exact .inr h'
  lawful := h'.lawful ∘ h.lawful
  attached id := h'.attached id ∘ h.attached id

lemma evolves_shed (session : Session) : session.Evolves session.shed where
  generation := rfl
  mailbox := .inr rfl
  lawful h :=
    { parked := fun hp => ⟨rfl, (h.parked hp).2⟩
      live := nofun
      wake := h.wake
      will := fun hw => ⟨rfl, (h.will hw).2⟩ }
  attached _ ha := ⟨ha.parked, ha.snapshot, ha.expiresAt, ha.pendingWill, .inr rfl⟩

lemma evolves_fireWill (session : Session) (now : ℕ) : session.Evolves (session.fireWill now) := by
  unfold fireWill
  split
  · exact
      { generation := rfl
        mailbox := .inl rfl
        lawful := fun h => ⟨h.parked, h.live, h.wake, nofun⟩
        attached := fun _ ha => ⟨ha.parked, ha.snapshot, ha.expiresAt, rfl, ha.mailbox⟩ }
  · exact .refl session

/-- A parked session is suspended. -/
lemma evolves_suspend (hp : session.parked = true) (now : ℕ) (expirySecs : UInt32) :
    session.Evolves (session.suspend now expirySecs) where
  generation := rfl
  mailbox := .inl rfl
  lawful h :=
    { parked := fun hp' => by cases hp'
      live := fun hm => by
        rw [show (session.suspend now expirySecs).mailbox = session.mailbox from rfl,
          (h.parked hp).1] at hm
        cases hm
      wake := by simp [suspend]
      will := fun _ => ⟨(h.parked hp).1, rfl⟩ }
  attached _ ha := by
    rw [ha.parked] at hp
    cases hp

lemma pushBounded_ne_nil (queue : List Delivery) (d : Delivery) : pushBounded queue d ≠ [] := by
  simp [pushBounded]

/-- A delivery for a session that is not connected is queued, and a parked one is woken. -/
lemma evolves_hold (hm : session.mailbox = none) (d : Delivery) :
    session.Evolves (session.hold d) where
  generation := rfl
  mailbox := .inl rfl
  lawful h :=
    { parked := h.parked
      live := fun hsome => nomatch hm ▸ hsome
      wake := by
        cases hp : session.parked with
        | true => simp [hold, enqueue, hp, pushBounded_ne_nil]
        | false => simp [hold, enqueue, hp, h.not_wakePending hp]
      will := h.will }
  attached _ ha := ⟨ha.parked, ha.snapshot, ha.expiresAt, ha.pendingWill, ha.mailbox⟩

end Session

namespace ClientView

/-- A session that is there after a step of the shard was there before. -/
def Evolves (v v' : ClientView) : Prop :=
  ∀ session', v'.session = some session' →
    ∃ session, v.session = some session ∧ session.Evolves session'

lemma Evolves.refl (v : ClientView) : v.Evolves v :=
  fun session h => ⟨session, h, .refl session⟩

lemma Evolves.trans {v'' : ClientView} (h : v.Evolves v') (h' : v'.Evolves v'') :
    v.Evolves v'' := by
  intro session'' hs''
  obtain ⟨session', hs', he'⟩ := h' session'' hs''
  obtain ⟨session, hs, he⟩ := h session' hs'
  exact ⟨session, hs, he.trans he'⟩

lemma evolves_of_session_eq (h : v'.session = v.session) : v.Evolves v' :=
  fun session hs => ⟨session, h ▸ hs, .refl session⟩

lemma Evolves.change {gone guard : Session → Prop} {f : Session → Session}
    (h : v.Change gone guard f v') (hf : ∀ session, guard session → session.Evolves (f session)) :
    v.Evolves v' := by
  cases h with
  | stays => exact .refl _
  | ends => exact fun _ hs => nomatch hs
  | turns hs hguard =>
    intro session' hs'
    cases hs'
    exact ⟨_, hs, hf _ hguard⟩

lemma evolves_suspended (v : ClientView) (now generation : ℕ) (expirySecs : UInt32) :
    v.Evolves (v.suspended now generation expirySecs) :=
  .change (v.change_suspended ..) fun _ hguard => evolves_suspend hguard.2 now expirySecs

lemma evolves_shed (v : ClientView) : v.Evolves v.shed :=
  .change v.change_shed fun session _ => session.evolves_shed

lemma evolves_receives (h : Receives v v') : v.Evolves v' :=
  h.rel .refl .trans fun v d => .change (v.change_delivered d) fun _ hm => evolves_hold hm d

/-! ### Sessions that last -/

/-- The session of the client ends together with its subscriptions, or keeps them and its
generation. -/
def Lasts (v v' : ClientView) : Prop :=
  (v'.session = none ∧ v'.subs = []) ∨
    v'.subs = v.subs ∧ v'.session.map generation = v.session.map generation

lemma Lasts.refl (v : ClientView) : v.Lasts v := .inr ⟨rfl, rfl⟩

lemma Lasts.change {gone guard : Session → Prop} {f : Session → Session}
    (h : v.Change gone guard f v') (hf : ∀ session, (f session).generation = session.generation) :
    v.Lasts v' := by
  cases h with
  | stays => exact .refl _
  | ends => exact .inl ⟨rfl, rfl⟩
  | turns hs => exact .inr ⟨rfl, by rw [hs, map_some, map_some, hf]⟩

lemma Lasts.exists_session (h : v.Lasts v') {session' : Session}
    (hs' : v'.session = some session') : v'.subs = v.subs ∧
      ∃ session, v.session = some session ∧ session'.generation = session.generation := by
  rcases h with ⟨hnone, -⟩ | ⟨hsubs, hmap⟩
  · exact nomatch hnone.symm.trans hs'
  · rw [hs', map_some] at hmap
    obtain ⟨session, hs, hgen⟩ := map_eq_some_iff.mp hmap.symm
    exact ⟨hsubs, session, hs, hgen.symm⟩

lemma Lasts.trans {v'' : ClientView} (h : v.Lasts v') (h' : v'.Lasts v'') : v.Lasts v'' := by
  rcases h' with hended | ⟨hsubs', hmap'⟩
  · exact .inl hended
  · rcases h with ⟨hnone, hnil⟩ | ⟨hsubs, hmap⟩
    · rw [hnone] at hmap'
      exact .inl ⟨map_eq_none_iff.mp hmap', hsubs'.trans hnil⟩
    · exact .inr ⟨hsubs'.trans hsubs, hmap'.trans hmap⟩

section

variable (v : ClientView)

lemma lasts_closed (now generation : ℕ) (expirySecs : UInt32) (snapshot : SessionSnapshot)
    (pending : List Delivery) : v.Lasts (v.closed now generation expirySecs snapshot pending) :=
  .change (v.change_closed ..) fun _ => rfl

lemma lasts_parked (generation : ℕ) (snapshot : SessionSnapshot) :
    v.Lasts (v.parked generation snapshot) :=
  .change (v.change_parked ..) fun _ => rfl

lemma lasts_reattached (generation mailbox : ℕ) : v.Lasts (v.reattached generation mailbox) :=
  .change (v.change_reattached ..) fun _ => rfl

lemma lasts_suspended (now generation : ℕ) (expirySecs : UInt32) :
    v.Lasts (v.suspended now generation expirySecs) :=
  .change (v.change_suspended ..) fun _ => rfl

lemma lasts_willArmed (now generation : ℕ) (will : Publish) (delaySecs : UInt32) :
    v.Lasts (v.willArmed now generation will delaySecs) :=
  .change (v.change_willArmed ..) fun _ => rfl

lemma lasts_swept (now : ℕ) : v.Lasts (v.swept now) :=
  .change (v.change_swept now) fun session => (session.evolves_fireWill now).generation

lemma lasts_claimed : v.Lasts v.claimed :=
  .change v.change_claimed fun _ => rfl

lemma lasts_shed : v.Lasts v.shed :=
  .change v.change_shed fun _ => rfl

end

lemma lasts_receives (h : Receives v v') : v.Lasts v' :=
  .inr ⟨(sameHold_receives h).subs, h.session_map _ fun _ _ _ => rfl⟩

end ClientView

namespace ShardState

/-- Some session has the mailbox with this number. -/
def Live (s : ShardState) (id : ℕ) : Prop :=
  ∃ k session, s.sessions.lookup k = some session ∧ session.mailbox = some id

/-- A step that opens no session. It may place deliveries, in live mailboxes only. -/
structure Tame (s s' : ShardState) : Prop where
  nextGeneration : s'.nextGeneration = s.nextGeneration
  evolves : ∀ k, (s.view k).Evolves (s'.view k)
  channels : ∀ id, ∃ placed, s'.channels id = s.channels id ++ placed ∧ (placed ≠ [] → s.Live id)

variable {s s' s'' : ShardState}

lemma live_of_evolves (h : ∀ k, (s.view k).Evolves (s'.view k)) {id : ℕ} (hl : s'.Live id) :
    s.Live id := by
  obtain ⟨k, session', hs', hm⟩ := hl
  obtain ⟨session, hs, he⟩ := h k session' hs'
  rcases he.mailbox with hmail | hmail
  · exact ⟨k, session, hs, hmail.symm.trans hm⟩
  · rw [hmail] at hm
    exact nomatch hm

/-- A step that leaves the mailboxes alone. -/
lemma Tame.of_posts {sent : List (ℕ × SessionControl)} (h : Posts s s' sent)
    (hview : ∀ k, (s.view k).Evolves (s'.view k)) : Tame s s' :=
  ⟨h.nextGeneration, hview, fun id => ⟨[], by simp [h.channels], nofun⟩⟩

lemma Tame.of_eq (hgen : s'.nextGeneration = s.nextGeneration)
    (hsessions : s'.sessions = s.sessions) (hchannels : s'.channels = s.channels) : Tame s s' :=
  ⟨hgen, fun k => evolves_of_session_eq (congrArg (·.lookup k) hsessions),
    fun id => ⟨[], by simp [hchannels], nofun⟩⟩

lemma Tame.refl (s : ShardState) : Tame s s := .of_eq rfl rfl rfl

lemma Tame.trans (h : Tame s s') (h' : Tame s' s'') : Tame s s'' := by
  refine ⟨h'.nextGeneration.trans h.nextGeneration, fun k => (h.evolves k).trans (h'.evolves k),
    fun id => ?_⟩
  obtain ⟨placed, heq, hlive⟩ := h.channels id
  obtain ⟨placed', heq', hlive'⟩ := h'.channels id
  refine ⟨placed ++ placed', by rw [heq', heq, List.append_assoc], fun hne => ?_⟩
  by_cases hp : placed = []
  · exact live_of_evolves h.evolves (hlive' (by simpa [hp] using hne))
  · exact hlive hp

/-- A tame step that sends no session-control message either. -/
structure Calm (s s' : ShardState) : Prop extends Tame s s' where
  posts : Spreads s s'
  replies : s'.claimReplies = s.claimReplies

lemma Calm.of_posts (h : Posts s s' []) (hview : ∀ k, (s.view k).Evolves (s'.view k)) :
    Calm s s' where
  toTame := .of_posts h hview
  posts := h.spreads
  replies := h.claimReplies

lemma Calm.of_eq (hsessions : s'.sessions = s.sessions) (hposts : Posts s s' []) : Calm s s' :=
  .of_posts hposts fun k => evolves_of_session_eq (congrArg (·.lookup k) hsessions)

lemma Calm.refl (s : ShardState) : Calm s s := .of_eq rfl (.refl s)

lemma Calm.trans (h : Calm s s') (h' : Calm s' s'') : Calm s s'' where
  toTame := h.toTame.trans h'.toTame
  posts := h.posts.trans h'.posts
  replies := h'.replies.trans h.replies

section

variable (s : ShardState)

lemma tame_deliverTo (c : String) (d : Delivery) : Tame s (s.deliverTo c d) where
  nextGeneration := by
    obtain ⟨_, _, _, _, h⟩ := s.deliverTo_frame c d
    rw [h s.sharedCursor]
  evolves k := evolves_receives (s.receives_deliverTo c k d)
  channels id := by
    unfold deliverTo
    split
    · exact ⟨[], (List.append_nil _).symm, nofun⟩
    · next session hs =>
      split
      · next mailbox hm =>
        split
        · by_cases hid : id = mailbox
          · exact ⟨[d], by simp [hid], fun _ => ⟨c, session, hs, hid ▸ hm⟩⟩
          · exact ⟨[], by simp [hid], nofun⟩
        · exact ⟨[], (List.append_nil _).symm, nofun⟩
      -- without a mailbox the message goes to the record
      · refine ⟨[], ?_, nofun⟩
        rw [List.append_nil]
        split
        · rfl
        · split <;> rfl

lemma calm_deliverTo (c : String) (d : Delivery) : Calm s (s.deliverTo c d) := by
  have htame := s.tame_deliverTo c d
  obtain ⟨_, _, _, _, h⟩ := s.deliverTo_frame c d
  rw [h s.sharedCursor] at htame ⊢
  exact ⟨htame, .books rfl, rfl⟩

lemma calm_deliverLocal (hash : ContentHash) (publish : Publish) (publisher : Option String) :
    Calm s (s.deliverLocal hash publish publisher) := by
  obtain ⟨_, hprepared⟩ := s.deliverLocal_prepared hash publish publisher
  rw [hprepared]
  refine Calm.trans ?_ (Lib.foldl_rel Calm.refl Calm.trans
    (fun s (h : Handover) => s.calm_deliverTo h.2.1 h.2.2) _ _)
  exact ⟨.of_eq rfl rfl rfl, .books rfl, rfl⟩

lemma tame_handleClaim (c : String) (requester : ℕ) (resume : Bool) :
    Tame s (s.handleClaim c requester resume) := by
  refine .of_posts (s.posts_handleClaim c requester resume) fun k => ?_
  rw [view_handleClaim]
  split
  · exact .change (s.view k).change_claimed fun _ => False.elim
  · exact .refl _

lemma tame_onControl (control : SessionControl) : Tame s (s.onControl control) := by
  cases control with
  | claim clientId requester resume => exact s.tame_handleClaim clientId requester resume
  | handoff clientId session =>
    unfold onControl
    dsimp only
    split
    · exact .refl s
    · exact .of_eq rfl rfl rfl

lemma tame_handleMeshMsg (hash : ContentHash) (msg : MeshMsg) :
    Tame s (s.handleMeshMsg hash msg) := by
  cases msg with
  | publish publish => exact (s.calm_deliverLocal hash publish none).toTame
  | control control => exact s.tame_onControl control
  | shared event =>
    obtain ⟨_, h⟩ := s.applySharedEvent_frame event
    rw [show s.handleMeshMsg hash (.shared event) = s.applySharedEvent event from rfl, h]
    exact .of_eq rfl rfl rfl

lemma calm_sweepExpired (now : ℕ) : Calm s (s.sweepExpired now).1 := by
  refine .of_posts (s.posts_sweepExpired now) fun k => ?_
  rw [view_sweepExpired]
  exact .change ((s.view k).change_swept now) fun session _ => session.evolves_fireWill now

lemma calm_shutdownConnections : Calm s s.shutdownConnections := by
  have hposts : Posts s s.shutdownConnections [] := .books rfl
  refine .of_posts hposts fun k => ?_
  rw [view_shutdownConnections]
  exact (s.view k).evolves_shed

lemma calm_suspendParked (now : ℕ) (c : String) (generation : ℕ) (expirySecs : UInt32) :
    Calm s (s.suspendParked now c generation expirySecs).1 := by
  refine .of_posts (s.posts_suspendParked now c generation expirySecs) fun k => ?_
  rw [view_suspendParked]
  split
  · exact (s.view k).evolves_suspended now generation expirySecs
  · exact .refl _

lemma calm_shedConnections (order : List String) (max : ℕ) :
    Calm s (s.shedConnections order max).1 := by
  refine .of_posts (s.posts_shedConnections order max) fun k => ?_
  rcases s.view_shedConnections order max k with h | h
  · rw [h]
    exact .refl _
  · rw [h]
    exact (s.view k).evolves_shed

lemma calm_subscribe (filter c : String) (opts : SubOptions) :
    Calm s (s.subscribe filter c opts).1 := by
  refine .of_posts (s.posts_subscribe filter c opts) fun k => ?_
  rw [view_subscribe]
  split <;> exact evolves_of_session_eq rfl

lemma calm_unsubscribe (filter c : String) (group : Option String) :
    Calm s (s.unsubscribe filter c group).1 := by
  refine .of_posts (s.posts_unsubscribe filter c group) fun k => ?_
  rw [view_unsubscribe]
  split <;> exact evolves_of_session_eq rfl

lemma calm_installMigrated (c : String) (migrated : MigratedSession) :
    Calm s (s.installMigrated c migrated).1 := by
  refine .of_posts (s.posts_installMigrated c migrated) fun k => ?_
  rw [view_installMigrated]
  split <;> exact evolves_of_session_eq rfl

lemma tame_broadcastClaim (c : String) (resume : Bool) : Tame s (s.broadcastClaim c resume) := by
  unfold broadcastClaim
  split
  · exact .refl s
  · rw [foldl_enqueueControl]
    exact .of_eq rfl rfl rfl

end

end ShardState

/-! ### Turns of a connection -/

/-- A relation that holds across everything a connection does to its shard past its handshake. -/
structure ShardState.Closed (hash : ContentHash) (R : ShardState → ShardState → Prop) : Prop where
  refl : ∀ s, R s s
  trans : ∀ {s s' s''}, R s s' → R s' s'' → R s s''
  deliverLocal : ∀ s publish publisher, R s (s.deliverLocal hash publish publisher)
  subscribe : ∀ s filter c opts, R s (s.subscribe filter c opts).1
  unsubscribe : ∀ s filter c group, R s (s.unsubscribe filter c group).1

/-- A relation that holds across subscribing and unsubscribing. -/
structure ShardState.SubscribeClosed (R : ShardState → ShardState → Prop) : Prop where
  refl : ∀ s, R s s
  trans : ∀ {s s' s''}, R s s' → R s' s'' → R s s''
  subscribe : ∀ s filter c opts, R s (s.subscribe filter c opts).1
  unsubscribe : ∀ s filter c group, R s (s.unsubscribe filter c group).1

/-- A relation that holds across subscribing and unsubscribing of one client. -/
structure ShardState.ClientClosed (clientId : String) (R : ShardState → ShardState → Prop) :
    Prop where
  refl : ∀ s, R s s
  trans : ∀ {s s' s''}, R s s' → R s' s'' → R s s''
  subscribe : ∀ s filter opts, R s (s.subscribe filter clientId opts).1
  unsubscribe : ∀ s filter group, R s (s.unsubscribe filter clientId group).1

lemma ShardState.SubscribeClosed.client {R : ShardState → ShardState → Prop}
    (h : SubscribeClosed R) (clientId : String) : ClientClosed clientId R where
  refl := h.refl
  trans := h.trans
  subscribe s filter := h.subscribe s filter clientId
  unsubscribe s filter := h.unsubscribe s filter clientId

lemma ShardState.Closed.subscribing {hash : ContentHash} {R : ShardState → ShardState → Prop}
    (h : Closed hash R) : SubscribeClosed R where
  refl := h.refl
  trans := h.trans
  subscribe := h.subscribe
  unsubscribe := h.unsubscribe

namespace Connection

section Subscribing

variable {env : Env} {R : ShardState → ShardState → Prop}

lemma client_subscribeOne {acc : SubscribeLoop} (hR : ClientClosed acc.conn.clientId R)
    (subId : Option ℕ) (filter : SubscribeFilter) :
    R acc.shard (subscribeOne env subId acc filter).shard := by
  unfold subscribeOne
  split
  · exact hR.refl _
  · split
    · exact hR.refl _
    · split
      · exact hR.refl _
      · split
        · exact hR.refl _
        · unfold SubscribeLoop.register
          dsimp only
          split
          · exact hR.trans (hR.subscribe _ _ _) (hR.unsubscribe _ _ _)
          · exact hR.subscribe _ _ _

/-- A SUBSCRIBE only touches the entries of the connection's own client. -/
lemma client_handleSubscribe {c : Connection} (hR : ClientClosed c.clientId R)
    (shard : ShardState) (subscribe : Subscribe) :
    R shard (c.handleSubscribe env shard subscribe).shard := by
  have hall (filters : List SubscribeFilter) (acc : SubscribeLoop)
      (hR : ClientClosed acc.conn.clientId R) :
      R acc.shard (filters.foldl (subscribeOne env subscribe.id) acc).shard := by
    induction filters generalizing acc with
    | nil => exact hR.refl _
    | cons filter filters ih =>
      refine hR.trans (client_subscribeOne hR subscribe.id filter) (ih _ ?_)
      obtain ⟨_, hconn⟩ := subscribeOne_frame env subscribe.id acc filter
      rwa [hconn]
  exact hall subscribe.filters { conn := c, shard } hR

lemma client_handleUnsubscribe {c : Connection} (hR : ClientClosed c.clientId R)
    (shard : ShardState) (unsubscribe : Unsubscribe) :
    R shard (c.handleUnsubscribe shard unsubscribe).shard := by
  have hall (filters : List String) (acc : Connection × ShardState)
      (hR : ClientClosed acc.1.clientId R) :
      R acc.2 (filters.foldl unsubscribeOne acc).2 := by
    induction filters generalizing acc with
    | nil => exact hR.refl _
    | cons filter filters ih =>
      have hone : R acc.2 (unsubscribeOne acc filter).2 := hR.unsubscribe acc.2 _ _
      exact hR.trans hone (ih _ hR)
  exact hall unsubscribe.filters (c, shard) hR

section

variable (hR : SubscribeClosed R) (c : Connection) (shard : ShardState)
include hR

lemma closed_handleSubscribe (subscribe : Subscribe) :
    R shard (c.handleSubscribe env shard subscribe).shard :=
  client_handleSubscribe (hR.client c.clientId) shard subscribe

lemma closed_handleUnsubscribe (unsubscribe : Unsubscribe) :
    R shard (c.handleUnsubscribe shard unsubscribe).shard :=
  client_handleUnsubscribe (hR.client c.clientId) shard unsubscribe

end

end Subscribing

variable {env : Env} {R : ShardState → ShardState → Prop} (hR : Closed env.hash R)
  (c : Connection) (shard : ShardState) (chance : Chance)
include hR

lemma closed_acceptPublish (publish : Publish) :
    R shard (c.acceptPublish env shard chance publish).shard := by
  unfold acceptPublish
  cases publish.qos with
  | atMostOnce => exact hR.deliverLocal shard _ _
  | atLeastOnce => exact hR.deliverLocal shard _ _
  | exactlyOnce => exact hR.refl shard

lemma closed_handlePublish (publish : Publish) :
    R shard (c.handlePublish env shard chance publish).shard := by
  unfold handlePublish
  split
  · exact hR.refl shard
  · split
    · exact hR.refl shard
    · split
      · exact hR.refl shard
      · exact closed_acceptPublish hR _ shard chance _

lemma closed_handlePubrel (pkid : UInt16) :
    R shard (c.handlePubrel env shard chance pkid).shard := by
  unfold handlePubrel
  split
  · exact hR.refl shard
  · exact hR.deliverLocal shard _ _

/-- Whatever a client sends past its handshake, it publishes, subscribes and unsubscribes. -/
lemma closed_dispatch (packet : Packet) : R shard (c.dispatch env shard chance packet).shard := by
  cases packet with
  | publish publish => exact closed_handlePublish hR c shard chance publish
  | subscribe subscribe => exact closed_handleSubscribe hR.subscribing c shard subscribe
  | unsubscribe unsubscribe => exact closed_handleUnsubscribe hR.subscribing c shard unsubscribe
  | pubRel pkid => exact closed_handlePubrel hR c shard chance pkid
  | connect | pingReq | disconnect | pubAck | pubRec | pubComp | serverOnly => exact hR.refl shard

omit hR

lemma calm_closed (hash : ContentHash) : Closed hash Calm where
  refl := .refl
  trans := .trans
  deliverLocal s := s.calm_deliverLocal hash
  subscribe s := s.calm_subscribe
  unsubscribe s := s.calm_unsubscribe

/-- Past its handshake a connection opens no session. -/
lemma calm_dispatch (packet : Packet) : shard.Calm (c.dispatch env shard chance packet).shard :=
  closed_dispatch (calm_closed env.hash) c shard chance packet

end Connection

end Rusquitto
