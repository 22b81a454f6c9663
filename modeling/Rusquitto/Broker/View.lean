import Rusquitto.Broker.Mesh
import Rusquitto.Lib.Machine

/-!
# A shard, one client at a time

`ClientView` is what a shard holds about one client: its session record, its subscriptions and its
mark in the write-ahead log. A session operation moves the view of its own client and leaves all
others as they are (`view_openSession`, `view_closeSession`, …).
-/

namespace Rusquitto

open Option Session TopicTrie AList

/-- What a shard holds about one client. -/
@[ext]
structure ClientView where
  session : Option Session
  subs : List FlatSub
  /-- The pending mark, or `none` when the log is disabled. -/
  wal : Option (Option Mark)

/-- A delivery is queued, and a parked session is to wake up. -/
def Session.hold (session : Session) (delivery : Delivery) : Session :=
  { session.enqueue delivery with wakePending := session.parked || session.wakePending }

namespace ClientView

/-- Sets the pending mark. -/
def marked (v : ClientView) (m : Mark) : ClientView :=
  { v with wal := v.wal.map fun _ => some m }

/-- The session ends with its subscriptions, and a tombstone is due. -/
def discarded (v : ClientView) : ClientView :=
  { v with session := none, subs := [] }.marked .removed

/-- A connection opens the session. -/
def opened (v : ClientView) (mailbox generation : ℕ) (cleanStart : Bool) : ClientView :=
  match v.session with
  | none => { v with session := some (Session.fresh mailbox generation) }
  | some session =>
    if cleanStart then { v.discarded with session := some (Session.fresh mailbox generation) }
    else { v with session := some (session.resume mailbox generation) }.marked .removed

/-- The connection of the given generation parks. -/
def parked (v : ClientView) (generation : ℕ) (snapshot : SessionSnapshot) : ClientView :=
  match v.session with
  | none => v
  | some session =>
    if session.generation ≠ generation ∨ session.mailbox = none then v
    else { v with session := some (session.park snapshot) }

/-- A resurrected connection takes its parked session back. -/
def reattached (v : ClientView) (generation mailbox : ℕ) : ClientView :=
  match v.session with
  | none => v
  | some session =>
    if session.generation ≠ generation ∨ session.parked = false then v
    else { v with session := some (session.reattach mailbox) }

/-- A parked session becomes suspended, or ends when its expiry interval is zero. -/
def suspended (v : ClientView) (now generation : ℕ) (expirySecs : UInt32) : ClientView :=
  match v.session with
  | none => v
  | some session =>
    if session.generation ≠ generation ∨ session.parked = false then v
    else if expirySecs = 0 then v.discarded
    else { v with session := some (session.suspend now expirySecs) }.marked .dirty

/-- The connection of the given generation closes its session. -/
def closed (v : ClientView) (now generation : ℕ) (expirySecs : UInt32)
    (snapshot : SessionSnapshot) (pending : List Delivery) : ClientView :=
  match v.session with
  | none => v
  | some session =>
    if session.generation ≠ generation then v
    else if expirySecs = 0 then v.discarded
    else { v with session := some (session.close now expirySecs snapshot pending) }.marked .dirty

/-- The live mailbox is dropped. -/
def shed (v : ClientView) : ClientView :=
  { v with session := v.session.map Session.shed }

/-- A will is armed. -/
def willArmed (v : ClientView) (now generation : ℕ) (will : Publish) (delaySecs : UInt32) :
    ClientView :=
  match v.session with
  | none => v
  | some session =>
    if session.generation = generation then
      { v with session := some (session.armWill will (afterSecs now delaySecs)) }
    else v

/-- The sweep fires a due will and ends an expired session. -/
def swept (v : ClientView) (now : ℕ) : ClientView :=
  match v.session with
  | none => v
  | some session =>
    if session.expired now then v.discarded else { v with session := some (session.fireWill now) }

/-- Another shard claims the session: whether it migrates or is discarded, it ends here. -/
def claimed (v : ClientView) : ClientView :=
  match v.session with
  | none => v
  | some _ => v.discarded

/-- A delivery reaches the session. A connected one takes it in its mailbox. -/
def delivered (v : ClientView) (delivery : Delivery) : ClientView :=
  match v.session with
  | none => v
  | some session =>
    if session.mailbox.isSome then v
    else if session.parked then
      { v with session := some { session.enqueue delivery with wakePending := true } }
    else if delivery.qos ≠ .atMostOnce then
      { v with session := some (session.enqueue delivery) }.marked .dirty
    else v

/-! ### What becomes of a record -/

/-- The record stays as it is, ends with its subscriptions where it is `gone`, or is rewritten where
it passes the `guard`. -/
inductive Change (v : ClientView) (gone guard : Session → Prop) (f : Session → Session) :
    ClientView → Prop
  | stays : Change v gone guard f v
  | ends {session : Session} (hs : v.session = some session) (hover : gone session) :
      Change v gone guard f v.discarded
  | turns {session : Session} (hs : v.session = some session) (hguard : guard session)
      {wal : Option (Option Mark)} (hwal : wal.isSome = v.wal.isSome) :
      Change v gone guard f { v with session := some (f session), wal }

section

variable (v : ClientView)

lemma change_parked (generation : ℕ) (snapshot : SessionSnapshot) :
    v.Change (fun _ => False) (fun session => session.generation = generation ∧
      session.mailbox ≠ none)
      (·.park snapshot) (v.parked generation snapshot) := by
  unfold parked
  split
  · exact .stays
  · next session hs =>
    split
    · exact .stays
    · next hguard => exact .turns hs (by simpa only [not_or, not_not] using hguard) rfl

lemma change_reattached (generation mailbox : ℕ) :
    v.Change (fun _ => False) (fun session => session.generation = generation ∧
      session.parked = true)
      (·.reattach mailbox) (v.reattached generation mailbox) := by
  unfold reattached
  split
  · exact .stays
  · next session hs =>
    split
    · exact .stays
    · next hguard =>
      exact .turns hs (by simpa only [not_or, not_not, Bool.not_eq_false] using hguard) rfl

section

variable (now generation : ℕ) (expirySecs : UInt32)

lemma change_suspended : v.Change (fun _ => expirySecs = 0)
      (fun session => session.generation = generation ∧ session.parked = true)
      (·.suspend now expirySecs) (v.suspended now generation expirySecs) := by
  unfold suspended
  split
  · exact .stays
  · next session hs =>
    split
    · exact .stays
    · next hguard =>
      split
      · next hexpiry => exact .ends hs hexpiry
      · exact .turns hs (by simpa only [not_or, not_not, Bool.not_eq_false] using hguard)
          isSome_map

lemma change_closed (snapshot : SessionSnapshot) (pending : List Delivery) :
    v.Change (fun _ => expirySecs = 0)
      (fun session => session.generation = generation ∧ expirySecs ≠ 0)
      (·.close now expirySecs snapshot pending)
      (v.closed now generation expirySecs snapshot pending) := by
  unfold closed
  split
  · exact .stays
  · next session hs =>
    split
    · exact .stays
    · next hguard =>
      split
      · next hexpiry => exact .ends hs hexpiry
      · next hexpiry => exact .turns hs ⟨not_not.mp hguard, hexpiry⟩ isSome_map

end

lemma change_shed : v.Change (fun _ => False) (fun _ => True) Session.shed v.shed := by
  cases hs : v.session with
  | none =>
    have hsame : v.shed = v := by rw [shed, hs, map_none, ← hs]
    rw [hsame]
    exact .stays
  | some session =>
    rw [shed, hs]
    exact .turns hs trivial rfl

lemma change_willArmed (now generation : ℕ) (will : Publish) (delaySecs : UInt32) :
    v.Change (fun _ => False) (·.generation = generation) (·.armWill will (afterSecs now delaySecs))
      (v.willArmed now generation will delaySecs) := by
  unfold willArmed
  split
  · exact .stays
  · next session hs =>
    split
    · next hguard => exact .turns hs hguard rfl
    · exact .stays

lemma change_swept (now : ℕ) :
    v.Change (·.expired now = true) (fun _ => True) (·.fireWill now) (v.swept now) := by
  unfold swept
  split
  · exact .stays
  · next session hs =>
    split
    · next hexpired => exact .ends hs hexpired
    · exact .turns hs trivial rfl

lemma change_claimed : v.Change (fun _ => True) (fun _ => False) id v.claimed := by
  unfold claimed
  split
  · exact .stays
  · next session hs => exact .ends hs trivial

lemma change_delivered (delivery : Delivery) :
    v.Change (fun _ => False) (·.mailbox = none) (·.hold delivery) (v.delivered delivery) := by
  unfold delivered
  split
  · exact .stays
  · next session hs =>
    split
    · exact .stays
    · next hmailbox =>
      have hm : session.mailbox = none := by simpa using hmailbox
      split
      · next hp =>
        have hheld : session.hold delivery =
          { session.enqueue delivery with wakePending := true } := by
          rw [hold, hp]
          rfl
        rw [← hheld]
        exact .turns hs hm rfl
      · next hp =>
        have hheld : session.hold delivery = session.enqueue delivery := by
          rw [hold, Bool.eq_false_of_not_eq_true hp]
          rfl
        split
        · rw [← hheld]
          exact .turns hs hm isSome_map
        · exact .stays

end

/-- The session record, if there is one, is as asked. -/
def All (P : Session → Prop) (v : ClientView) : Prop :=
  ∀ session, v.session = some session → P session

variable {P gone guard : Session → Prop} {f : Session → Session} {v v' : ClientView}

lemma all_some {session : Session} (hs : v.session = some session) (h : P session) : v.All P :=
  fun _ hs' => some.inj (hs.symm.trans hs') ▸ h

lemma all_none (hs : v.session = none) : v.All P := fun _ hs' => nomatch hs.symm.trans hs'

lemma all_opened {mailbox generation : ℕ} {cleanStart : Bool}
    (hfresh : P (.fresh mailbox generation))
    (hresume : ∀ session, v.session = some session → P (session.resume mailbox generation)) :
    (v.opened mailbox generation cleanStart).All P := by
  unfold opened
  split
  · exact all_some rfl hfresh
  · next session hs =>
    split
    · exact all_some rfl hfresh
    · exact all_some rfl (hresume session hs)

lemma All.change (hv : v.All P) (h : v.Change gone guard f v')
    (hf : ∀ session, v.session = some session → guard session → P session → P (f session)) :
    v'.All P := by
  cases h with
  | stays => exact hv
  | ends => exact all_none rfl
  | turns hs hguard => exact all_some rfl (hf _ hs hguard (hv _ hs))

/-- Two views in which the client is connected or not and holds the same subscriptions. -/
structure SameHold (v v' : ClientView) : Prop where
  online : v'.session.any (·.online) = v.session.any (·.online)
  subs : v'.subs = v.subs

lemma SameHold.refl (v : ClientView) : v.SameHold v := ⟨rfl, rfl⟩

lemma SameHold.trans {v'' : ClientView} (h : v.SameHold v') (h' : v'.SameHold v'') :
    v.SameHold v'' :=
  ⟨h'.online.trans h.online, h'.subs.trans h.subs⟩

/-- A changed record that is connected as before. -/
lemma Change.sameHold (h : v.Change (fun _ => False) guard f v')
    (hf : ∀ session, guard session → (f session).online = session.online) : v.SameHold v' := by
  cases h with
  | stays => exact .refl v
  | ends _ hover => exact hover.elim
  | turns hs hguard => exact ⟨by rw [hs]; exact hf _ hguard, rfl⟩

lemma sameHold_delivered (v : ClientView) (d : Delivery) : v.SameHold (v.delivered d) :=
  (v.change_delivered d).sameHold fun _ _ => rfl

end ClientView

namespace ShardState

variable (s : ShardState)

/-- The view of one client. -/
def view (s : ShardState) (clientId : String) : ClientView where
  session := s.sessions.lookup clientId
  subs := s.trie.clientSubscriptions clientId
  wal := s.wal.map (·.mark clientId)

/-! ### The outbox is no part of a view -/

lemma foldl_enqueueControl (peers : List ℕ) (msg : ℕ → MeshMsg) :
    peers.foldl (fun s idx => s.enqueueControl idx (msg idx)) s =
      { s with controlTx := s.controlTx.map (· ++ peers.map fun idx => (idx, msg idx)) } := by
  induction peers generalizing s with
  | nil => cases s; simp
  | cons idx peers ih =>
    rw [List.foldl_cons, ih]
    simp [enqueueControl, Function.comp_def]

lemma broadcastShared_eq (group clientId : String) (join : Bool) :
    s.broadcastShared group clientId join =
      { s with controlTx := s.controlTx.map (· ++ s.announcements [group] clientId join) } := by
  unfold broadcastShared announcements
  split
  · cases s; simp
  · rw [foldl_enqueueControl]
    simp

lemma announce_eq (groups : List String) (clientId : String) (join : Bool) :
    s.announce groups clientId join =
      { s with controlTx := s.controlTx.map (· ++ s.announcements groups clientId join) } := by
  unfold announce
  induction groups generalizing s with
  | nil => cases s; simp [announcements]; split <;> simp
  | cons group groups ih =>
    rw [List.foldl_cons, ih, broadcastShared_eq]
    unfold announcements
    cases s.mesh <;> simp [Function.comp_def]

@[simp]
lemma view_broadcastShared (group clientId k : String) (join : Bool) :
    (s.broadcastShared group clientId join).view k = s.view k := by
  rw [broadcastShared_eq]
  rfl

@[simp]
lemma view_announce (groups : List String) (clientId k : String) (join : Bool) :
    (s.announce groups clientId join).view k = s.view k := by
  rw [announce_eq]
  rfl

@[simp]
lemma view_enqueueControl (peer : ℕ) (msg : MeshMsg) (k : String) :
    (s.enqueueControl peer msg).view k = s.view k :=
  rfl

/-! ### The building blocks -/

lemma session_view (k : String) : (s.view k).session = s.sessions.lookup k :=
  rfl

section

variable (c k : String)

lemma view_insertSession (session : Session) :
    { s with sessions := s.sessions.insert c session }.view k =
      if k = c then { s.view k with session := some session } else s.view k := by
  simp only [view, lookup_insert_eq_ite]
  split <;> rfl

lemma view_walDirty :
    (s.walDirty c).view k = if k = c then (s.view k).marked .dirty else s.view k := by
  simp only [view, walDirty, ClientView.marked, map_map, Function.comp_def,
    WalPending.mark_markDirty]
  split <;> rfl

lemma view_walRemoved :
    (s.walRemoved c).view k = if k = c then (s.view k).marked .removed else s.view k := by
  simp only [view, walRemoved, ClientView.marked, map_map, Function.comp_def,
    WalPending.mark_markRemoved]
  split <;> rfl

lemma view_discardSession :
    (s.discardSession c).view k = if k = c then (s.view k).discarded else s.view k := by
  rw [discardSession, view_walRemoved]
  split
  next h =>
    subst h
    simp only [view, lookup_erase, clientSubscriptions_removeClient_self]
    rfl
  next h =>
    simp only [view, lookup_erase_ne h, clientSubscriptions_removeClient_of_ne _ h]

/-- An operation that does nothing without a record acts on its client's view, if what it does with
a record acts so. -/
lemma view_onRecord {α : Type} (missing : α) (body : Session → ShardState × α)
    (f : ClientView → Session → ClientView)
    (h : ∀ session, (body session).1.view k = if k = c then f (s.view k) session else s.view k) :
    (match s.sessions.lookup c with
      | none => (s, missing)
      | some session => body session).1.view k =
      if k = c then
        match (s.view k).session with
        | none => s.view k
        | some session => f (s.view k) session
      else s.view k := by
  by_cases hk : k = c
  · subst hk
    rw [if_pos rfl, session_view]
    cases s.sessions.lookup k with
    | none => rfl
    | some session => exact (h session).trans (if_pos rfl)
  · rw [if_neg hk]
    split
    · rfl
    · exact (h _).trans (if_neg hk)

lemma view_ofRecord (body : Session → ShardState) (f : ClientView → Session → ClientView)
    (h : ∀ session, (body session).view k = if k = c then f (s.view k) session else s.view k) :
    (match s.sessions.lookup c with
      | none => s
      | some session => body session).view k =
      if k = c then
        match (s.view k).session with
        | none => s.view k
        | some session => f (s.view k) session
      else s.view k := by
  rw [← view_onRecord s c k () (fun session => (body session, ())) f h]
  cases s.sessions.lookup c <;> rfl

end

/-- What `signalCloseParked` does to the record of its client. -/
def unparked (v : ClientView) : ClientView :=
  { v with session := v.session.map fun session =>
      if session.parked then session.unpark else session }

lemma view_signalCloseParked (c k : String) :
    (s.signalCloseParked c).view k = if k = c then unparked (s.view k) else s.view k := by
  refine (view_ofRecord s c k _ (fun v session =>
    if session.parked then { v with session := some session.unpark }
    else v) fun session => ?_).trans ?_
  · split
    -- only the record is part of the view, not the command for the parking task
    · exact view_insertSession s c k session.unpark
    · simp
  · obtain ⟨_ | session, subs, wal⟩ := s.view k
    · rfl
    · by_cases hp : session.parked <;> simp [unparked, hp]

/-- Opening overwrites what the signal to the parking task changed. -/
lemma opened_unparked (v : ClientView) (mailbox generation : ℕ) (cleanStart : Bool) :
    (unparked v).opened mailbox generation cleanStart = v.opened mailbox generation cleanStart := by
  obtain ⟨session, subs, wal⟩ := v
  cases session with
  | none => rfl
  | some session =>
    by_cases hp : session.parked <;> cases cleanStart <;>
      simp [unparked, ClientView.opened, hp, resume, unpark, ClientView.discarded,
        ClientView.marked]

/-! ### Session operations -/

lemma view_openSession (c k : String) (mailbox : ℕ) (cleanStart : Bool) :
    (s.openSession c mailbox cleanStart).1.view k =
      if k = c then (s.view k).opened mailbox (s.nextGeneration + 1) cleanStart else s.view k := by
  have hsignal := view_signalCloseParked { s with nextGeneration := s.nextGeneration + 1 } c k
  unfold openSession
  simp only
  generalize ShardState.signalCloseParked _ c = s' at *
  -- from here on only the signalled state matters: its view is `unparked (s.view c)` at `c`
  have hview : s'.view k = if k = c then unparked (s.view k) else s.view k := hsignal
  by_cases hk : k = c
  · subst hk
    rw [if_pos rfl] at hview
    rw [if_pos rfl, ← opened_unparked, ← hview, ClientView.opened, session_view]
    cases hs : s'.sessions.lookup k with
    | none => simp [view_insertSession]
    | some existing =>
      cases cleanStart
      · simp [view_walRemoved, view_insertSession]
      · simp [view_insertSession, view_discardSession]
  · rw [if_neg hk] at hview
    rw [if_neg hk, ← hview]
    split
    · simp [view_insertSession, hk]
    · split
      · simp [view_insertSession, view_discardSession, hk]
      · simp [view_walRemoved, view_insertSession, hk]

/-- The generation a connection receives. -/
lemma generation_openSession (c : String) (mailbox : ℕ) (cleanStart : Bool) :
    (s.openSession c mailbox cleanStart).2.generation = s.nextGeneration + 1 := by
  unfold openSession
  simp only
  split
  · rfl
  · split <;> rfl

lemma view_parkSession (c k : String) (generation : ℕ) (snapshot : SessionSnapshot) :
    (s.parkSession c generation snapshot).1.view k =
      if k = c then (s.view k).parked generation snapshot else s.view k := by
  refine view_onRecord s c k false _ (fun v session =>
    if session.generation ≠ generation ∨ session.mailbox = none then v
    else { v with session := some (session.park snapshot) }) fun session => ?_
  split
  · simp
  · exact view_insertSession s c k _

/-- Such an operation is refused, or the record passes its check. -/
lemma onRecord_cases {α : Type} (c : String) (missing : α) (bad : Session → Prop)
    [DecidablePred bad]
    (body : Session → ShardState × α) {r : ShardState × α} (h : (match s.sessions.lookup c with
      | none => (s, missing)
      | some session => if bad session then (s, missing) else body session) = r) :
    (r = (s, missing) ∧ ∀ session, s.sessions.lookup c = some session → bad session) ∨
      ∃ session, s.sessions.lookup c = some session ∧ ¬bad session ∧ r = body session := by
  cases hs : s.sessions.lookup c with
  | none =>
    rw [hs] at h
    exact .inl ⟨h.symm, fun _ h => by cases h⟩
  | some session =>
    rw [hs] at h
    by_cases hbad : bad session
    · exact .inl ⟨(h.symm.trans (if_pos hbad)), fun _ h => some.inj h ▸ hbad⟩
    · exact .inr ⟨session, rfl, hbad, h.symm.trans (if_neg hbad)⟩

variable {s} {c : String} {generation mailbox now : ℕ} {snapshot : SessionSnapshot}
  {expirySecs : UInt32}
  {pending : List Delivery} {s' : ShardState} {owned : Bool}

/-- A connection parks exactly when it still owns a record with a mailbox. -/
lemma parkSession_cases (h : s.parkSession c generation snapshot = (s', owned)) :
    ((s', owned) = (s, false) ∧ ∀ session, s.sessions.lookup c = some session →
      session.generation ≠ generation ∨ session.mailbox = none) ∨
    ∃ session, s.sessions.lookup c = some session ∧
      ¬(session.generation ≠ generation ∨ session.mailbox = none) ∧
      (s', owned) = ({ s with sessions := s.sessions.insert c (session.park snapshot) }, true) :=
  s.onRecord_cases c false _ _ h

/-- A resurrected connection is attached exactly when its record is still parked. -/
lemma reattachParked_cases {resumed : Option (SessionSnapshot × List Delivery)}
    (h : s.reattachParked c generation mailbox = (s', resumed)) :
    ((s', resumed) = (s, none) ∧ ∀ session, s.sessions.lookup c = some session →
      session.generation ≠ generation ∨ session.parked = false) ∨
    ∃ session, s.sessions.lookup c = some session ∧
      ¬(session.generation ≠ generation ∨ session.parked = false) ∧
      (s', resumed) = ({ s with sessions := s.sessions.insert c (session.reattach mailbox) },
        some (session.snapshot.getD {}, session.offlineQueue)) :=
  s.onRecord_cases c none _ _ h

/-- A record that its owner leaves: it is gone, or goes on rewritten. The groups are told. -/
lemma lookup_ended (s : ShardState) (c k : String) (session : Session) (expirySecs : UInt32)
    (groups : List String) :
    ((if expirySecs = 0 then s.discardSession c
        else { s with sessions := s.sessions.insert c session }.walDirty c).announce groups c
          false).sessions.lookup k =
      if k = c then if expirySecs = 0 then none else some session else s.sessions.lookup k := by
  rw [announce_eq]
  by_cases hzero : expirySecs = 0
  · simp only [if_pos hzero]
    exact lookup_erase_eq_ite ..
  · simp only [if_neg hzero]
    exact lookup_insert_eq_ite ..

/-- A parked connection that closes suspends its session exactly when it is still parked. -/
lemma suspendParked_cases (h : s.suspendParked now c generation expirySecs = (s', owned)) :
    (owned = false ∧ s' = s ∧ ∀ session, s.sessions.lookup c = some session →
      session.generation ≠ generation ∨ session.parked = false) ∨
    owned = true ∧ ∃ session, s.sessions.lookup c = some session ∧
      ¬(session.generation ≠ generation ∨ session.parked = false) ∧
      ∀ k, s'.sessions.lookup k = if k = c
        then if expirySecs = 0 then none else some (session.suspend now expirySecs)
        else s.sessions.lookup k := by
  obtain ⟨heq, hnot⟩ | ⟨session, hs, hown, heq⟩ := s.onRecord_cases c false _ _ h
  · cases heq
    exact .inl ⟨rfl, rfl, hnot⟩
  · cases heq
    exact .inr ⟨rfl, session, hs, hown, fun k => lookup_ended ..⟩

/-- A connection that closes releases its session exactly when it is still its own. -/
lemma closeSession_cases
    (h : s.closeSession now c generation expirySecs snapshot pending = (s', owned)) :
    (owned = false ∧ s' = s ∧ ∀ session, s.sessions.lookup c = some session →
      session.generation ≠ generation) ∨
    owned = true ∧ ∃ session, s.sessions.lookup c = some session ∧ session.generation = generation ∧
      ∀ k, s'.sessions.lookup k = if k = c
        then if expirySecs = 0 then none else some (session.close now expirySecs snapshot pending)
        else s.sessions.lookup k := by
  obtain ⟨heq, hnot⟩ | ⟨session, hs, hown, heq⟩ := s.onRecord_cases c false _ _ h
  · cases heq
    exact .inl ⟨rfl, rfl, hnot⟩
  · cases heq
    exact .inr ⟨rfl, session, hs, not_not.mp hown, fun k => lookup_ended ..⟩

variable (s)

lemma view_reattachParked (c k : String) (generation mailbox : ℕ) :
    (s.reattachParked c generation mailbox).1.view k =
      if k = c then (s.view k).reattached generation mailbox else s.view k := by
  refine view_onRecord s c k none _ (fun v session =>
    if session.generation ≠ generation ∨ session.parked = false then v
    else { v with session := some (session.reattach mailbox) }) fun session => ?_
  split
  · simp
  · exact view_insertSession s c k _

/-- A record that is rewritten and marked dirty. -/
lemma view_insertSession_dirty (c k : String) (session : Session) :
    ({ s with sessions := s.sessions.insert c session }.walDirty c).view k =
      if k = c then { s.view k with session := some session }.marked .dirty else s.view k := by
  rw [view_walDirty, view_insertSession]
  split <;> rfl

section

variable (now : ℕ) (c k : String) (generation : ℕ)

lemma view_suspendParked (expirySecs : UInt32) :
    (s.suspendParked now c generation expirySecs).1.view k =
      if k = c then (s.view k).suspended now generation expirySecs else s.view k := by
  refine view_onRecord s c k false _ (fun v session =>
    if session.generation ≠ generation ∨ session.parked = false then v
    else if expirySecs = 0 then v.discarded
    else { v with session := some (session.suspend now expirySecs) }.marked .dirty)
    fun session => ?_
  split
  · simp
  · rw [view_announce]
    split
    · exact view_discardSession s c k
    · exact view_insertSession_dirty s c k _

lemma view_closeSession (expirySecs : UInt32) (snapshot : SessionSnapshot)
    (pending : List Delivery) :
    (s.closeSession now c generation expirySecs snapshot pending).1.view k =
      if k = c then (s.view k).closed now generation expirySecs snapshot pending else s.view k := by
  refine view_onRecord s c k false _ (fun v session =>
    if session.generation ≠ generation then v
    else if expirySecs = 0 then v.discarded
    else { v with session := some (session.close now expirySecs snapshot pending) }.marked .dirty)
    fun session => ?_
  split
  · simp
  · rw [view_announce]
    split
    · exact view_discardSession s c k
    · exact view_insertSession_dirty s c k _

lemma view_armWill (will : Publish) (delaySecs : UInt32) :
    (s.armWill now c generation will delaySecs).view k =
      if k = c then (s.view k).willArmed now generation will delaySecs else s.view k := by
  refine view_ofRecord s c k _ (fun v session => if session.generation = generation then
    { v with session := some (session.armWill will (afterSecs now delaySecs)) } else v)
      fun session => ?_
  split
  · exact view_insertSession s c k _
  · simp

end

/-- A session that migrates leaves the shard as a discarded one does. -/
lemma walRemoved_extractSession (c : String) (session : Session) :
    (s.extractSession c session).1.walRemoved c = s.discardSession c := by
  simp only [extractSession, takeClient_eq]
  rfl

lemma claimed_unparked (v : ClientView) : (unparked v).claimed = v.claimed := by
  obtain ⟨session, subs, wal⟩ := v
  cases session <;> rfl

lemma view_handleClaim (c k : String) (requester : ℕ) (resume : Bool) :
    (s.handleClaim c requester resume).view k = if k = c then (s.view k).claimed else s.view k := by
  have hview := view_signalCloseParked s c k
  unfold handleClaim
  simp only [walRemoved_extractSession]
  generalize s.signalCloseParked c = s' at *
  by_cases hk : k = c
  · subst hk
    rw [if_pos rfl] at hview
    rw [if_pos rfl, ← claimed_unparked, ← hview, ClientView.claimed, session_view]
    cases s'.sessions.lookup k with
    | none => rfl
    | some session =>
      simp only
      split <;> simp [view_discardSession]
  · rw [if_neg hk] at hview
    rw [if_neg hk, ← hview]
    split
    · rfl
    · split <;> simp [view_discardSession, hk]

/-! ### Subscriptions -/

section

variable (filter c k : String)

lemma view_insertTrie (opts : SubOptions) :
    { s with trie := (s.trie.insert filter c opts).1 }.view k =
      if k = c then
        { s.view k with subs := (s.trie.insert filter c opts).1.clientSubscriptions k }
      else s.view k := by
  split
  next => rfl
  next hk => simp only [view, clientSubscriptions_insert_of_ne _ hk]

lemma view_subscribe (opts : SubOptions) :
    (s.subscribe filter c opts).1.view k =
      if k = c then
        { s.view k with subs := (s.trie.insert filter c opts).1.clientSubscriptions k }
      else s.view k := by
  rw [← view_insertTrie]
  unfold subscribe
  split
  · simp only
    split <;> simp
  · rfl

lemma view_unsubscribe (group : Option String) :
    (s.unsubscribe filter c group).1.view k =
      if k = c then
        { s.view k with subs := (s.trie.remove filter c group).1.clientSubscriptions k }
      else s.view k := by
  have htrie : { s with trie := (s.trie.remove filter c group).1 }.view k =
      if k = c then
        { s.view k with subs := (s.trie.remove filter c group).1.clientSubscriptions k }
      else s.view k := by
    split
    next => rfl
    next hk => simp only [view, clientSubscriptions_remove_of_ne _ hk]
  rw [← htrie]
  unfold unsubscribe
  split
  · simp only
    split <;> simp
  · rfl

end

lemma clientSubscriptions_rearm_of_ne (trie : TopicTrie) {c k : String} (hk : k ≠ c)
    (subscriptions : List FlatSub) :
    (rearm trie c subscriptions).clientSubscriptions k = trie.clientSubscriptions k := by
  unfold rearm
  induction subscriptions generalizing trie with
  | nil => rfl
  | cons sub subs ih =>
    rw [List.foldl_cons, ih, clientSubscriptions_insert_of_ne _ hk]

lemma view_installMigrated (c k : String) (migrated : MigratedSession) :
    (s.installMigrated c migrated).1.view k =
      if k = c then
        { s.view k with
          subs := (rearm s.trie c migrated.subscriptions).clientSubscriptions k }
      else s.view k := by
  refine (view_announce ..).trans ?_
  split
  next => rfl
  next hk => simp only [view, clientSubscriptions_rearm_of_ne _ hk]

/-! ### Operations on the whole table -/

lemma view_shutdownConnections (k : String) : s.shutdownConnections.view k = (s.view k).shed := by
  simp only [view, shutdownConnections, lookup_mapValues]
  rfl

lemma view_shedOne (max : ℕ) (acc : ShardState × ℕ) (c k : String) :
    (shedOne max acc c).1.view k = acc.1.view k ∨
      (shedOne max acc c).1.view k = (acc.1.view k).shed := by
  unfold shedOne
  split
  · exact .inl rfl
  next session hsome =>
    split
    · rw [view_insertSession]
      split
      next hk =>
        subst hk
        right
        simp [ClientView.shed, view, hsome]
      next => exact .inl rfl
    · exact .inl rfl

/-- Shedding drops the mailbox of some clients. -/
lemma view_shedConnections (order : List String) (max : ℕ) (k : String) :
    (s.shedConnections order max).1.view k = s.view k ∨
      (s.shedConnections order max).1.view k = (s.view k).shed := by
  have hshed : ∀ v : ClientView, v.shed.shed = v.shed := by
    intro v
    simp only [ClientView.shed, map_map]
    rfl
  suffices hfold : ∀ acc : ShardState × ℕ,
      (order.foldl (shedOne max) acc).1.view k = acc.1.view k ∨
        (order.foldl (shedOne max) acc).1.view k = (acc.1.view k).shed from hfold (s, 0)
  induction order with
  | nil => exact fun acc => .inl rfl
  | cons c order ih =>
    intro acc
    rw [List.foldl_cons]
    -- two sheddings of one client are one
    rcases ih (shedOne max acc c) with h | h <;> rcases view_shedOne max acc c k with h' | h' <;>
      simp [h, h', hshed]

lemma view_fireWills (now : ℕ) (k : String) :
    (s.fireWills now).1.view k =
      { s.view k with session := (s.view k).session.map (·.fireWill now) } := by
  simp only [view, fireWills, lookup_mapValues]

lemma expired_fireWill (session : Session) (now : ℕ) :
    (session.fireWill now).expired now = session.expired now := by
  unfold fireWill
  split <;> rfl

lemma view_expireOne (acc : ShardState × List Publish) (c k : String) :
    (expireOne acc c).1.view k = if k = c then (acc.1.view k).claimed else acc.1.view k :=
  view_onRecord acc.1 c k acc.2 _ (fun v _ => v.discarded) fun _ => view_discardSession acc.1 c k

lemma view_foldl_expireOne (ids : List String) (acc : ShardState × List Publish) (k : String) :
    (ids.foldl expireOne acc).1.view k =
      if k ∈ ids then (acc.1.view k).claimed else acc.1.view k := by
  have hclaimed : ∀ v : ClientView, v.claimed.claimed = v.claimed := by
    intro ⟨session, subs, wal⟩
    cases session <;> rfl
  induction ids generalizing acc with
  | nil => simp
  | cons c ids ih =>
    rw [List.foldl_cons, ih, view_expireOne]
    by_cases hk : k = c <;> by_cases hm : k ∈ ids <;> simp [hk, hm, hclaimed]

lemma mem_expiredIds (now : ℕ) (k : String) :
    k ∈ s.expiredIds now ↔ (s.sessions.lookup k).any (·.expired now) = true := by
  rw [expiredIds, List.mem_filter, and_iff_right_iff_imp]
  intro hany
  rw [← mem_keys, ← lookup_isSome]
  cases hs : s.sessions.lookup k with
  | none => simp [hs] at hany
  | some session => rfl

lemma view_sweepExpired (now : ℕ) (k : String) :
    (s.sweepExpired now).1.view k = (s.view k).swept now := by
  rw [sweepExpired, view_foldl_expireOne, view_fireWills]
  simp only [mem_expiredIds, ← session_view, view_fireWills]
  obtain ⟨session, subs, wal⟩ := s.view k
  cases session with
  | none => rfl
  | some session =>
    simp only [map_some, any_some, expired_fireWill, ClientView.swept,
      ClientView.claimed]
    split <;> rfl

/-! ### Deliveries -/

lemma view_deliverTo (c k : String) (delivery : Delivery) : (s.deliverTo c delivery).view k =
      if k = c then (s.view k).delivered delivery else s.view k := by
  refine view_ofRecord s c k _ (fun v session =>
    if session.mailbox.isSome then v
    else if session.parked then
      { v with session := some { session.enqueue delivery with wakePending := true } }
    else if delivery.qos ≠ .atMostOnce then
      { v with session := some (session.enqueue delivery) }.marked .dirty
    else v) fun session => ?_
  cases hm : session.mailbox with
  | some mailbox =>
    simp only [isSome_some, if_true, ite_self]
    split <;> rfl
  | none =>
    simp only [isSome_none, Bool.false_eq_true, if_false]
    split
    · exact view_insertSession s c k _
    · split
      · exact view_insertSession_dirty s c k _
      · simp

/-- `v'` is `v` after a run of deliveries. -/
def Receives (v v' : ClientView) : Prop :=
  ∃ deliveries : List Delivery, v' = deliveries.foldl ClientView.delivered v

lemma Receives.refl (v : ClientView) : Receives v v :=
  ⟨[], rfl⟩

/-- What relates a view to the one after a delivery relates it to the one after a run of them. -/
lemma Receives.rel {R : ClientView → ClientView → Prop} (hrefl : ∀ v, R v v)
    (htrans : ∀ {v v' v''}, R v v' → R v' v'' → R v v'') (hstep : ∀ v d, R v (v.delivered d))
    {v v' : ClientView} (h : Receives v v') : R v v' := by
  obtain ⟨deliveries, rfl⟩ := h
  exact Lib.foldl_rel hrefl htrans hstep deliveries v

lemma Receives.trans {v v' v'' : ClientView} (h : Receives v v') (h' : Receives v' v'') :
    Receives v v'' := by
  obtain ⟨ds, rfl⟩ := h
  obtain ⟨ds', rfl⟩ := h'
  exact ⟨ds ++ ds', (List.foldl_append ..).symm⟩

/-- Deliveries change a session's queue and whether it is to wake up, nothing else. -/
lemma Receives.session_map {β : Type*} (f : Session → β)
    (hf : ∀ session queue wake,
      f { session with offlineQueue := queue, wakePending := wake } = f session)
    {v v' : ClientView} (h : Receives v v') : v'.session.map f = v.session.map f := by
  refine h.rel (R := fun v v' => v'.session.map f = v.session.map f) (fun _ => rfl)
    (fun h h' => h'.trans h) fun v d => ?_
  have hchange := v.change_delivered d
  generalize v.delivered d = v' at hchange ⊢
  cases hchange with
  | stays => rfl
  | ends _ hover => exact hover.elim
  | @turns session hs =>
    rw [hs]
    exact congrArg some (hf session _ _)

/-- The same for a property of the record that does not look at them. -/
lemma Receives.all {P : Session → Prop} {v v' : ClientView} (h : Receives v v') (hv : v.All P)
    (hP : ∀ session queue wake, P { session with offlineQueue := queue, wakePending := wake } =
      P session) :
    v'.All P := by
  intro session' hs'
  have hmap := h.session_map P hP
  rw [hs', map_some] at hmap
  obtain ⟨session, hs, heq⟩ := map_eq_some_iff.mp hmap.symm
  exact heq ▸ hv session hs

lemma receives_deliverTo (c k : String) (delivery : Delivery) :
    Receives (s.view k) ((s.deliverTo c delivery).view k) := by
  rw [view_deliverTo]
  split
  · exact ⟨[delivery], rfl⟩
  · exact .refl _

/-! ### Persistence -/

end ShardState

/-- The durable state of a suspended session, and `none` for any other client. -/
def ClientView.durable (v : ClientView) : Option MigratedSession :=
  match v.session with
  | none => none
  | some session =>
    if session.online then none else some (ShardState.packageSession v.subs session)

/-- Whether the client's suspended session is within a second of its deadline. -/
def ClientView.expiring (v : ClientView) (now : ℕ) : Bool :=
  v.session.any fun session =>
    !session.online && session.expiresAt.any fun deadline =>
      ShardState.remainingSecs now deadline = 0

namespace ShardState

/-- A session is persisted exactly when it is suspended and not about to expire, and then with its
durable state. -/
lemma session_persistOne (s : ShardState) (c : String) (now : ℕ) :
    (s.persistOne c now).map PersistedSession.session =
      if (s.view c).expiring now then none else (s.view c).durable := by
  unfold persistOne ClientView.expiring ClientView.durable
  rw [session_view]
  cases s.sessions.lookup c with
  | none => rfl
  | some session =>
    by_cases hon : session.online
    · have hor : session.mailbox.isSome ∨ session.parked := by
        simpa [online] using hon
      simp [hor, hon]
    · have hor : ¬(session.mailbox.isSome ∨ session.parked) := by
        simpa [online] using hon
      cases hd : session.expiresAt with
      | none => simp [hor, hon, hd, persistedExpiry, view]
      | some deadline =>
        by_cases hr : remainingSecs now deadline = 0 <;>
          simp [hor, hon, hd, hr, persistedExpiry, view]

end ShardState

end Rusquitto
