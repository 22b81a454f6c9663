import Rusquitto.Server.Restart

/-!
# Sessions on their way

A suspended session leaves its shard by two routes: into a snapshot and back, or to another shard.
Nothing changes on the way (`transfers_are_identities`). A snapshot writes the lifetime that is left
in whole seconds, with the largest number for a session that never expires; no real lifetime is that
long (`Session.Timely`). For this, `ClientView.Step` lists all that a piece of work can do to one
client.
-/

namespace Rusquitto

open ShardState ClientView List

variable {s : ShardState} {session : Session} {k : String} {ps : PersistedSession} {now : ℕ}

/-! ### Deadlines are never further away than a client can ask for -/

/-- The deadline is at most the longest finite expiry interval away. -/
def Session.Timely (now : ℕ) (session : Session) : Prop :=
  ∀ deadline, session.expiresAt = some deadline → deadline ≤ now + (2 ^ 32 - 2) * nanosPerSec

lemma expiryDeadline_le {deadline : ℕ} {expirySecs : UInt32}
    (h : expiryDeadline now expirySecs = some deadline) :
    deadline ≤ now + (2 ^ 32 - 2) * nanosPerSec := by
  unfold expiryDeadline at h
  split at h
  · exact nomatch h
  · next hne =>
    rw [← Option.some.inj h, afterSecs]
    have hlt := expirySecs.toNat_lt
    have hmax : expirySecs.toNat ≠ 2 ^ 32 - 1 := fun heq => hne (UInt32.toNat_inj.mp heq)
    exact Nat.add_le_add_left (Nat.mul_le_mul_right _ (by omega)) now

lemma Session.Timely.mono {now' : ℕ} (h : session.Timely now) (hle : now ≤ now') :
    session.Timely now' := fun deadline hd => (h deadline hd).trans (by omega)

lemma Session.Timely.of_none (h : session.expiresAt = none) : session.Timely now := by
  intro deadline hd
  rw [h] at hd
  exact nomatch hd

lemma Session.Timely.of_deadline {expirySecs : UInt32}
    (h : session.expiresAt = expiryDeadline now expirySecs) : session.Timely now :=
  fun _ hd => expiryDeadline_le (h.symm.trans hd)

/-- The same for the record of a client. -/
def ClientView.Timely (now : ℕ) (v : ClientView) : Prop :=
  v.All (Session.Timely now)

namespace ClientView

variable {now : ℕ} {v v' : ClientView}

lemma Timely.of_session_eq (h : v.Timely now) (heq : v'.session = v.session) : v'.Timely now :=
  fun session hs => h session (heq ▸ hs)

/-- No step sets a deadline that is further away. -/
lemma Timely.step {op : Op} {live live' : ℕ → Prop} (h : v.Timely now)
    (hstep : v.Step now op k live live' v') : v'.Timely now := by
  have hall : v.All (Session.Timely now) := h
  cases hstep with
  | same => exact h
  | marks | subscriptions => exact h.of_session_eq rfl
  | opened => exact all_opened (.of_none rfl) fun _ _ => .of_none rfl
  | closed => exact hall.change (v.change_closed ..) fun _ _ _ _ => .of_deadline rfl
  | suspended => exact hall.change (v.change_suspended ..) fun _ _ _ _ => .of_deadline rfl
  | parked => exact hall.change (v.change_parked ..) fun _ _ _ _ => .of_none rfl
  | reattached => exact hall.change (v.change_reattached ..) fun _ _ _ => id
  | willArmed => exact hall.change (v.change_willArmed ..) fun _ _ _ => id
  | received hreceives => exact hreceives.all hall fun _ _ _ => rfl
  | swept =>
    refine hall.change (v.change_swept _) fun session _ _ hsession deadline hd =>
      hsession deadline ?_
    unfold Session.fireWill at hd
    split at hd <;> exact hd
  | claimed => exact hall.change v.change_claimed fun _ _ => False.elim
  | shed => exact hall.change v.change_shed fun _ _ _ => id

end ClientView

/-- A shard that has restored its sessions and done nothing else. -/
def ShardRun.Booted (r : ShardRun) : Prop :=
  ∃ (s : ShardState) (sessions : List PersistedSession),
    s.sessions = ∅ ∧ r.shard = s.loadSessions sessions r.now

lemma ShardState.timely_loadSessions (now : ℕ) (sessions : List PersistedSession)
    (h : ∀ k, (s.view k).Timely now) (k : String) :
    ((s.loadSessions sessions now).view k).Timely now := by
  induction sessions generalizing s with
  | nil => exact h k
  | cons ps sessions ih =>
    refine ih fun k => ?_
    by_cases hk : k = ps.clientId
    · subst hk
      exact all_some (AList.lookup_insert _) (.of_deadline rfl)
    · exact (h k).of_session_eq (AList.lookup_insert_ne hk)

lemma ShardRun.Booted.timely {r : ShardRun} (h : r.Booted) (k : String) :
    (r.shard.view k).Timely r.now := by
  obtain ⟨s, sessions, hempty, heq⟩ := h
  rw [heq]
  refine timely_loadSessions r.now sessions (fun k => all_none ?_) k
  rw [session_view, hempty]
  rfl

lemma ShardRun.Reached.timely {hash : ContentHash} {P : Moment → Op → Prop} {r₀ r : ShardRun}
    (h₀ : r₀.Booted) (h : Reached hash P r₀ r) (k : String) : (r.shard.view k).Timely r.now := by
  induction h with
  | start => exact h₀.timely k
  | @step r op _ _ ih =>
    exact fun session hs => (ih.step (r.view_apply hash op k) session hs).mono
      (r.le_now_apply hash op)

/-! ### Subscriptions as a set -/

/-- A client holds a subscription exactly when it is among those collected for it. -/
lemma TopicTrie.mem_stored_iff_flat (trie : TopicTrie) (filter : String) (sub : Subscription) :
    (filter, sub) ∈ trie.stored ↔ sub.flat filter ∈ trie.clientSubscriptions sub.clientId := by
  rw [clientSubscriptions_eq, mem_map]
  constructor
  · exact fun h => ⟨(filter, sub), mem_filter.mpr ⟨h, beq_self_eq_true _⟩, rfl⟩
  · rintro ⟨⟨filter', sub'⟩, hin, hflat⟩
    obtain ⟨hmem, hclient⟩ := mem_filter.mp hin
    have hclient : sub'.clientId = sub.clientId := beq_iff_eq.mp hclient
    -- with the client fixed, a flat subscription determines the stored one
    obtain ⟨c, qos, nolocal, rap, group, subId⟩ := sub
    obtain ⟨c', qos', nolocal', rap', group', subId'⟩ := sub'
    obtain ⟨rfl, rfl, rfl, rfl, rfl, rfl⟩ := hflat
    obtain rfl : c' = c := hclient
    exact hmem

lemma TopicTrie.stored_iff_of_perm {trie trie' : TopicTrie}
    (h : (trie.clientSubscriptions k).Perm (trie'.clientSubscriptions k)) {filter : String}
    {sub : Subscription} (hsub : sub.clientId = k) :
    (filter, sub) ∈ trie.stored ↔ (filter, sub) ∈ trie'.stored := by
  rw [mem_stored_iff_flat, mem_stored_iff_flat, hsub, h.mem_iff]

namespace ShardState

/-- No shared subscription carries No Local. -/
def SharedEcho (s : ShardState) : Prop :=
  ∀ x ∈ s.trie.stored, x.2.shareGroup.isSome → x.2.nolocal = false

lemma SharedEcho.rearmable (h : s.SharedEcho) (k : String) :
    Rearmable (s.trie.clientSubscriptions k) where
  nodup := s.trie.nodup_clientSubscriptions k
  shared sub hsub hshared := by
    rw [TopicTrie.clientSubscriptions_eq] at hsub
    obtain ⟨x, hx, rfl⟩ := mem_map.mp hsub
    exact h x (mem_of_mem_filter hx) hshared

lemma clientSubscriptions_eq_nil (h : ∀ x ∈ s.trie.stored, x.2.clientId ≠ k) :
    s.trie.clientSubscriptions k = [] := by
  rw [TopicTrie.clientSubscriptions_eq, map_eq_nil_iff, filter_eq_nil_iff]
  exact fun x hx => by simpa using h x hx

/-! ### Through a snapshot -/

end ShardState

/-- Neither connected nor parked. -/
def Session.Suspended (session : Session) : Prop :=
  session.mailbox = none ∧ session.parked = false

/-- What is left of a lifetime, as a snapshot writes it. -/
lemma persistedExpiry_of_timely {deadline : ℕ} (hsoon : now + nanosPerSec < deadline)
    (hlate : deadline ≤ now + (2 ^ 32 - 2) * nanosPerSec) :
    ∃ secs, persistedExpiry now (some deadline) = some secs ∧
      secs ≠ sessionNeverExpires ∧ secs.toNat = (deadline - now) / nanosPerSec := by
  obtain ⟨remaining, hremaining⟩ : ∃ n, n = remainingSecs now deadline := ⟨_, rfl⟩
  -- at least one second and less than the largest number of them
  have hbounds : 1 ≤ remaining ∧ remaining ≤ 2 ^ 32 - 2 := by
    rw [hremaining, remainingSecs]
    constructor
    · exact (Nat.one_le_div_iff (by decide)).mpr (by omega)
    · exact Nat.div_le_of_le_mul (by rw [Nat.mul_comm]; omega)
  have htoNat : (UInt32.ofNat remaining).toNat = remaining :=
    UInt32.toNat_ofNat_of_lt' (by rw [UInt32.size]; omega)
  refine ⟨UInt32.ofNat remaining, ?_, fun heq => ?_, htoNat.trans hremaining⟩
  · simp only [persistedExpiry, ← hremaining]
    rw [if_neg (by omega), if_pos (by omega)]
  · rw [heq] at htoNat
    have hmax : sessionNeverExpires.toNat = 2 ^ 32 - 1 := rfl
    omega

/-- The session a snapshot holds for a suspended client. -/
lemma exists_persistOne (hs : s.sessions.lookup k = some session) (hsuspended : session.Suspended)
    (hsoon : ∀ deadline, session.expiresAt = some deadline → now + nanosPerSec < deadline)
    (htimely : session.Timely now) : ∃ ps, s.persistOne k now = some ps ∧ ps.clientId = k ∧
      ps.session = packageSession (s.trie.clientSubscriptions k) session ∧
      (ps.expirySecs = sessionNeverExpires ↔ session.expiresAt = none) ∧
      ∀ deadline, session.expiresAt = some deadline →
        ps.expirySecs.toNat = (deadline - now) / nanosPerSec := by
  have hoffline : ¬(session.mailbox.isSome = true ∨ session.parked = true) := by
    simp [hsuspended.1, hsuspended.2]
  cases hexpires : session.expiresAt with
  | none =>
    refine ⟨{ clientId := k, expirySecs := sessionNeverExpires, session := _ }, ?_, rfl, rfl,
      iff_of_true rfl rfl, fun _ hnone => by cases hnone⟩
    simp only [persistOne, hs, Option.bind_eq_bind, Option.bind_some, if_neg hoffline,
      hexpires, persistedExpiry]
    rfl
  | some deadline =>
    obtain ⟨secs, hsecs, hne, htoNat⟩ :=
      persistedExpiry_of_timely (hsoon deadline hexpires) (htimely deadline hexpires)
    refine ⟨{ clientId := k, expirySecs := secs, session := _ }, ?_, rfl, rfl,
      iff_of_false hne fun hnone => (by cases hnone), fun d hd => ?_⟩
    · simp only [persistOne, hs, Option.bind_eq_bind, Option.bind_some, if_neg hoffline,
        hexpires, hsecs]
      rfl
    · rw [← Option.some.inj hd]
      exact htoNat

namespace ShardState

lemma nodup_persistSessions (s : ShardState) (now : ℕ) :
    ((s.persistSessions now).map PersistedSession.clientId).Nodup := by
  have hsub : ((s.persistSessions now).map PersistedSession.clientId).Sublist s.sessions.keys := by
    unfold persistSessions
    induction s.sessions.keys with
    | nil => exact .slnil
    | cons c ids ih =>
      rw [filterMap_cons]
      split
      · exact ih.cons c
      · next ps hps =>
        rw [map_cons, clientId_persistOne hps]
        exact ih.cons_cons c
  exact hsub.nodup s.sessions.keys_nodup

lemma mem_persistSessions (h : s.persistOne k now = some ps) : ps ∈ s.persistSessions now := by
  refine mem_filterMap.mpr ⟨k, ?_, h⟩
  rw [← AList.mem_keys, ← AList.lookup_isSome]
  by_contra hnone
  rw [Bool.not_eq_true, Option.isSome_eq_false_iff, Option.isNone_iff_eq_none] at hnone
  rw [persistOne, hnone] at h
  cases h

section

variable (now : ℕ) (sessions : List PersistedSession) (s : ShardState)
  (hnd : (sessions.map PersistedSession.clientId).Nodup) (hps : ps ∈ sessions)
include hnd hps

/-- The record of a loaded session. -/
lemma lookup_loadSessions :
    ∃ generation, (s.loadSessions sessions now).sessions.lookup ps.clientId = some
        { expiresAt := expiryDeadline now ps.expirySecs
          generation
          snapshot := some
            { inflight := ps.session.inflight
              incomingQos2 := ps.session.incomingQos2
              nextPkid := ps.session.nextPkid }
          offlineQueue := ps.session.offline } := by
  -- a later session of the list is another client's
  have hkeep (rest : List PersistedSession) (s : ShardState)
      (hrest : ∀ ps' ∈ rest, ps.clientId ≠ ps'.clientId) :
      (s.loadSessions rest now).sessions.lookup ps.clientId = s.sessions.lookup ps.clientId := by
    induction rest generalizing s with
    | nil => rfl
    | cons ps' rest ih =>
      obtain ⟨hne, hrest⟩ := forall_mem_cons.mp hrest
      exact (ih _ hrest).trans (AList.lookup_insert_ne hne)
  induction sessions generalizing s with
  | nil => exact nomatch hps
  | cons ps' sessions ih =>
    rw [map_cons, nodup_cons] at hnd
    rcases mem_cons.mp hps with rfl | hps
    · refine ⟨s.nextGeneration + 1, (hkeep sessions _ fun ps' hps' heq => ?_).trans
        (AList.lookup_insert _)⟩
      exact hnd.1 (heq ▸ mem_map_of_mem hps')
    · exact ih (s.loadSession now ps') hnd.2 hps

/-- The subscriptions of a loaded session. -/
lemma clientSubscriptions_loadSessions (hnone : s.trie.clientSubscriptions ps.clientId = [])
    (h : Rearmable ps.session.subscriptions) :
    ((s.loadSessions sessions now).trie.clientSubscriptions ps.clientId).Perm
      ps.session.subscriptions := by
  have hsame := durable_loadSessions now sessions s hnd hps hnone h
  obtain ⟨generation, hlookup⟩ := lookup_loadSessions now sessions s hnd hps
  have hdurable := durable_of_session
    (v := (s.loadSessions sessions now).view ps.clientId) hlookup
  rw [hdurable] at hsame
  cases hsame with
  | present hsame => exact hsame.subscriptions

end

end ShardState

/-- A suspended session and its copy on another shard: the same state, and a deadline that is less
than a second earlier. -/
structure Session.Restores (copy original : Session) : Prop where
  suspended : copy.Suspended
  snapshot : copy.snapshot = some (original.snapshot.getD {})
  offlineQueue : copy.offlineQueue = original.offlineQueue
  never : copy.expiresAt = none ↔ original.expiresAt = none
  deadline : ∀ deadline, original.expiresAt = some deadline → ∃ deadline',
    copy.expiresAt = some deadline' ∧ deadline' ≤ deadline ∧ deadline < deadline' + nanosPerSec

/-- A snapshot, loaded again. -/
lemma ShardState.restores_loadSessions (hecho : s.SharedEcho)
    (hs : s.sessions.lookup k = some session) (hsuspended : session.Suspended)
    (hsoon : ∀ deadline, session.expiresAt = some deadline → now + nanosPerSec < deadline)
    (htimely : session.Timely now) {empty : ShardState} (hempty : empty.trie.stored = []) :
    (∃ copy, (empty.loadSessions (s.persistSessions now) now).sessions.lookup k = some copy ∧
      copy.Restores session) ∧
    ((empty.loadSessions (s.persistSessions now) now).trie.clientSubscriptions k).Perm
      (s.trie.clientSubscriptions k) := by
  obtain ⟨ps, hps, rfl, hstate, hnever, hsecs⟩ := exists_persistOne hs hsuspended hsoon htimely
  have hmem := mem_persistSessions hps
  have hnd := s.nodup_persistSessions now
  have hnone : empty.trie.clientSubscriptions ps.clientId = [] :=
    clientSubscriptions_eq_nil (by rw [hempty]; exact nofun)
  have hsubs : ps.session.subscriptions = s.trie.clientSubscriptions ps.clientId := by
    rw [hstate]
    rfl
  constructor
  · obtain ⟨generation, hlookup⟩ := lookup_loadSessions now _ empty hnd hmem
    refine ⟨_, hlookup, ⟨rfl, rfl⟩, by rw [hstate]; rfl, by rw [hstate]; rfl, ?_, fun d hd => ?_⟩
    · rw [← hnever, expiryDeadline]
      split
      · next heq => exact iff_of_true rfl heq
      · next hne => exact iff_of_false nofun hne
    · have hne : ps.expirySecs ≠ sessionNeverExpires := fun heq =>
        Option.some_ne_none d (hd.symm.trans (hnever.mp heq))
      refine ⟨afterSecs now ps.expirySecs, if_neg hne, ?_⟩
      have hpos : 0 < nanosPerSec := by decide
      have hle := Nat.div_mul_le_self (d - now) nanosPerSec
      have hlt := Nat.lt_div_mul_add (a := d - now) hpos
      have hlater := hsoon d hd
      rw [afterSecs, hsecs d hd]
      omega
  · have hload := clientSubscriptions_loadSessions now _ empty hnd hmem hnone
      (hsubs ▸ hecho.rearmable ps.clientId)
    rwa [hsubs] at hload

/-! ### To another shard -/

namespace ShardState

lemma mem_stored_removeClient {trie : TopicTrie} {x : String × Subscription} :
    x ∈ (trie.removeClient k).stored ↔ x ∈ trie.stored ∧ x.2.clientId ≠ k := by
  rw [TopicTrie.stored_removeClient, mem_filter, bne_iff_ne]

lemma trie_installMigrated (s : ShardState) (k : String) (migrated : MigratedSession) :
    (s.installMigrated k migrated).1.trie = rearm s.trie k migrated.subscriptions ∧
      (s.installMigrated k migrated).1.sessions = s.sessions := by
  simp only [installMigrated, announce_eq, and_self]

end ShardState

/-- Persisting and loading, and extracting and installing, are identities, on a shard on which no
shared subscription carries No Local. A suspended session that is more than a second from its
deadline comes back from the snapshot with the same subscriptions, QoS state and queue, and less
than a second of its lifetime lost. One that moves to a shard where its client has no subscription
arrives as it was; nothing of it stays behind, and no other client is affected. -/
theorem transfers_are_identities (hash : ContentHash) :
    (∀ r₀ r : ShardRun, r₀.Booted → ShardRun.Reached hash (fun _ _ => True) r₀ r →
      r.shard.SharedEcho → ∀ empty : ShardState, empty.sessions = ∅ → empty.trie.stored = [] →
      ∀ k session, r.shard.sessions.lookup k = some session → session.Suspended →
      (∀ deadline, session.expiresAt = some deadline → r.now + nanosPerSec < deadline) →
        (∃ copy, (empty.loadSessions (r.shard.persistSessions r.now) r.now).sessions.lookup k =
          some copy ∧ copy.Restores session) ∧ ∀ filter sub, sub.clientId = k →
          ((filter, sub) ∈ (empty.loadSessions (r.shard.persistSessions r.now) r.now).trie.stored ↔
            (filter, sub) ∈ r.shard.trie.stored)) ∧
    (∀ (s t : ShardState) (k : String) (session : Session), s.SharedEcho →
      s.sessions.lookup k = some session → (∀ x ∈ t.trie.stored, x.2.clientId ≠ k) →
      ∀ s' migrated t' snapshot offline, s.extractSession k session = (s', migrated) →
      t.installMigrated k migrated = (t', snapshot, offline) →
        snapshot = session.snapshot.getD {} ∧ offline = session.offlineQueue ∧
        (∀ filter sub, sub.clientId = k →
          ((filter, sub) ∈ t'.trie.stored ↔ (filter, sub) ∈ s.trie.stored)) ∧
        s'.sessions.lookup k = none ∧ (∀ x ∈ s'.trie.stored, x.2.clientId ≠ k) ∧ ∀ k', k' ≠ k →
          s'.sessions.lookup k' = s.sessions.lookup k' ∧
          t'.sessions.lookup k' = t.sessions.lookup k' ∧ ∀ filter sub, sub.clientId = k' →
            ((filter, sub) ∈ s'.trie.stored ↔ (filter, sub) ∈ s.trie.stored) ∧
            ((filter, sub) ∈ t'.trie.stored ↔ (filter, sub) ∈ t.trie.stored)) := by
  constructor
  · intro r₀ r h₀ hrun hecho empty _ hempty k session hs hsuspended hsoon
    have htimely : session.Timely r.now := hrun.timely h₀ k session hs
    obtain ⟨hcopy, hsubs⟩ :=
      restores_loadSessions hecho hs hsuspended hsoon htimely hempty
    exact ⟨hcopy, fun filter sub hsub => TopicTrie.stored_iff_of_perm hsubs hsub⟩
  · intro s t k session hecho hs hnone s' migrated t' snapshot offline hextract hinstall
    rw [extractSession, TopicTrie.takeClient_eq] at hextract
    obtain ⟨rfl, rfl⟩ := Prod.mk.inj hextract
    obtain ⟨htrie, hsessions⟩ := t.trie_installMigrated k
      (packageSession (s.trie.clientSubscriptions k) session)
    rw [hinstall] at htrie hsessions
    dsimp only at htrie hsessions
    have hresult := congrArg Prod.snd hinstall
    obtain ⟨rfl, rfl⟩ := Prod.mk.inj hresult
    have harrives := rearm_empty_perm k (clientSubscriptions_eq_nil hnone)
      (hecho.rearmable k)
    refine ⟨rfl, rfl, fun filter sub hsub => ?_, AList.lookup_erase _ _, fun x hx => ?_,
      fun k' hk' => ⟨AList.lookup_erase_ne hk', by rw [hsessions], fun filter sub hsub => ⟨?_, ?_⟩⟩⟩
    · rw [htrie]
      exact TopicTrie.stored_iff_of_perm harrives hsub
    · exact (mem_stored_removeClient.mp hx).2
    · rw [mem_stored_removeClient, hsub]
      exact and_iff_left hk'
    · -- re-arming one client's filters leaves another's alone
      rw [htrie]
      refine TopicTrie.stored_iff_of_perm (.of_eq ?_) hsub
      exact clientSubscriptions_rearm_of_ne t.trie hk' _

/-- A subscriber disconnects for a minute, and a message arrives for it. -/
def absentOps : List Op :=
  [.openSession "a" 0 true, .subscribe "t" "a" { qos := .atLeastOnce },
    .closeSession "a" 1 60 {} [], .deliverLocal ShardRun.reading none]

def absentRun : ShardRun :=
  Lib.run (ShardRun.apply fun _ => 0) {} absentOps

/-- Its message is there after either transfer, and one subscription. -/
theorem transfers_are_identities_absent :
    (∃ copy, (({} : ShardState).loadSessions (absentRun.shard.persistSessions 0) 0).sessions.lookup
      "a" = some copy ∧ copy.offlineQueue.length = 1 ∧ copy.expiresAt ≠ none) ∧
    ∃ session s' migrated t' snapshot offline,
      absentRun.shard.extractSession "a" session = (s', migrated) ∧
      ({} : ShardState).installMigrated "a" migrated = (t', snapshot, offline) ∧
      offline.length = 1 ∧ s'.sessions.lookup "a" = none ∧
      (("t", ({ qos := .atLeastOnce } : SubOptions).subscription "a") ∈ t'.trie.stored ↔
        ("t", ({ qos := .atLeastOnce } : SubOptions).subscription "a") ∈
          absentRun.shard.trie.stored) := by
  obtain ⟨hload, hmove⟩ := transfers_are_identities fun _ => 0
  have hecho : absentRun.shard.SharedEcho := by
    have hall : ∀ x ∈ absentRun.shard.trie.stored, x.2.shareGroup.isSome → x.2.nolocal = false := by
      decide
    exact hall
  obtain ⟨session, hs, hsuspended, hqueue, hexpires⟩ : ∃ session,
      absentRun.shard.sessions.lookup "a" = some session ∧ session.Suspended ∧
        session.offlineQueue.length = 1 ∧ session.expiresAt = some 60000000000 :=
    ⟨_, rfl, ⟨rfl, rfl⟩, rfl, rfl⟩
  have hreached : ShardRun.Reached (fun _ => 0) (fun _ _ => True) {} absentRun :=
    Lib.Reached.start.run ⟨trivial, trivial, trivial, trivial, trivial⟩
  constructor
  · obtain ⟨⟨copy, hcopy, hrestores⟩, -⟩ := hload {} absentRun ⟨{}, [], rfl, rfl⟩ hreached hecho
      {} rfl
      rfl "a" session hs hsuspended fun deadline hd => by
        rw [hexpires] at hd
        rw [← Option.some.inj hd]
        decide
    refine ⟨copy, hcopy, by rw [hrestores.offlineQueue, hqueue], fun hnone => ?_⟩
    rw [hrestores.never, hexpires] at hnone
    exact nomatch hnone
  · cases hextract : absentRun.shard.extractSession "a" session with | _ s' migrated
    cases hinstall : ({} : ShardState).installMigrated "a" migrated with | _ t' loaded
    obtain ⟨snapshot, offline⟩ := loaded
    obtain ⟨-, hoffline, hsubs, hgone, -⟩ := hmove absentRun.shard {} "a" session hecho hs nofun
      s' migrated t' snapshot offline hextract hinstall
    exact ⟨session, s', migrated, t', snapshot, offline, hextract, hinstall,
      by rw [hoffline, hqueue], hgone, hsubs "t" _ rfl⟩

end Rusquitto
