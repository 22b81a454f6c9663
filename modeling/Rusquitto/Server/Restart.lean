import Rusquitto.Server.Durability

/-!
# Graceful restart

The final snapshot replaces the session file but leaves the log as it is, and the next start replays
that log over it. A session that is neither marked nor about to expire is what its last record says,
so the replay does it no harm. A session that changed after the last flush has lost if the log still
holds an older record of it.
-/

namespace Rusquitto

open ShardState ClientView List AList PersistedSession

variable {trie : TopicTrie} {ps : PersistedSession} {c k : String}
  {m : HashMap String PersistedSession} {r : ShardRun}

/-! ### Sessions that survive being loaded -/

lemma SameState.trans {a b c : Option MigratedSession} (h : SameState a b) (h' : SameState b c) :
    SameState a c := by
  cases h with
  | absent => exact h'
  | present h =>
    cases h' with
    | present h' =>
      exact .present ⟨h.subscriptions.trans h'.subscriptions, h.inflight.trans h'.inflight,
        h.incomingQos2.trans h'.incomingQos2, h.nextPkid.trans h'.nextPkid,
        h.offline.trans h'.offline⟩

/-- Subscriptions that the trie can hold for one client, without No Local on a shared one. -/
structure Rearmable (subs : List FlatSub) : Prop where
  nodup : (subs.map FlatSub.key).Nodup
  shared : ∀ sub ∈ subs, sub.shareGroup.isSome → sub.nolocal = false

lemma Rearmable.perm {subs subs' : List FlatSub} (h : Rearmable subs) (hp : subs.Perm subs') :
    Rearmable subs' :=
  ⟨(hp.map FlatSub.key).nodup_iff.mp h.nodup, fun sub hsub => h.shared sub (hp.mem_iff.mpr hsub)⟩

/-- A re-armed subscription is the stored one. -/
lemma flat_rearmOptions (c : String) {sub : FlatSub}
    (h : sub.shareGroup.isSome → sub.nolocal = false) :
    ((rearmOptions sub).subscription c).flat sub.filter = sub := by
  have hlocal : (sub.nolocal && sub.shareGroup.isNone) = sub.nolocal := by
    cases hg : sub.shareGroup with
    | none => simp
    | some group => simp [h (by simp [hg])]
  simp only [rearmOptions, SubOptions.subscription, Subscription.flat, hlocal]

/-- Re-arming subscriptions that are new to a client adds exactly them. -/
lemma clientSubscriptions_rearm_perm (c : String) (subs : List FlatSub) (trie : TopicTrie)
    (h : Rearmable (trie.clientSubscriptions c ++ subs)) :
    ((rearm trie c subs).clientSubscriptions c).Perm (trie.clientSubscriptions c ++ subs) := by
  unfold rearm
  induction subs generalizing trie with
  | nil => rw [append_nil]; exact .refl _
  | cons sub subs ih =>
    rw [foldl_cons]
    have hinsert := trie.clientSubscriptions_insert_self_perm sub.filter c
      (rearmOptions sub)
    -- the key is new, so nothing is replaced
    have hnew : (trie.clientSubscriptions c).filter
        (fun s => s.key ≠ (sub.filter, (rearmOptions sub).shareGroup)) =
        trie.clientSubscriptions c := by
      refine filter_eq_self.mpr fun s hs => decide_eq_true fun hkey => ?_
      have hnd := h.nodup
      rw [map_append, map_cons, nodup_append] at hnd
      exact hnd.2.2 _ (mem_map_of_mem hs) _ mem_cons_self hkey
    rw [hnew, flat_rearmOptions c (h.shared sub (by simp))] at hinsert
    have happend := hinsert.append_right subs
    rw [append_assoc, singleton_append] at happend
    exact (ih _ (h.perm happend.symm)).trans happend

/-- The durable state of a client whose subscriptions are re-armed alone. -/
lemma rearm_empty_perm (c : String) {subs : List FlatSub}
    (hnone : trie.clientSubscriptions c = []) (h : Rearmable subs) :
    ((rearm trie c subs).clientSubscriptions c).Perm subs := by
  have hperm := clientSubscriptions_rearm_perm c subs trie (by rwa [hnone])
  rwa [hnone] at hperm

/-! ### Loading -/

namespace ShardState

section

variable (s : ShardState) (now : ℕ)

/-- Loading another client's session leaves a client alone. -/
lemma durable_loadSession_of_ne (hk : k ≠ ps.clientId) :
    ((s.loadSession now ps).view k).durable = (s.view k).durable := by
  have hsession : ((s.loadSession now ps).view k).session = (s.view k).session :=
    lookup_insert_ne hk
  have hsubs : ((s.loadSession now ps).view k).subs = (s.view k).subs :=
    clientSubscriptions_rearm_of_ne s.trie hk _
  rw [durable, durable, hsession, hsubs]

/-- A loaded session is suspended with the state it was persisted with. -/
lemma durable_loadSession_self (ps : PersistedSession)
    (hnone : s.trie.clientSubscriptions ps.clientId = []) (h : Rearmable ps.session.subscriptions) :
    SameState ((s.loadSession now ps).view ps.clientId).durable (some ps.session) := by
  have hsession : ((s.loadSession now ps).view ps.clientId).session = some
      { expiresAt := expiryDeadline now ps.expirySecs
        generation := s.nextGeneration + 1
        snapshot := some
          { inflight := ps.session.inflight
            incomingQos2 := ps.session.incomingQos2
            nextPkid := ps.session.nextPkid }
        offlineQueue := ps.session.offline } :=
    lookup_insert _
  rw [durable_of_session hsession]
  exact .present ⟨rearm_empty_perm ps.clientId hnone h, rfl, rfl, rfl, rfl⟩

lemma durable_loadSessions_of_notMem (sessions : List PersistedSession)
    (h : ∀ ps ∈ sessions, k ≠ ps.clientId) :
    ((s.loadSessions sessions now).view k).durable = (s.view k).durable := by
  unfold loadSessions
  induction sessions generalizing s with
  | nil => rfl
  | cons ps sessions ih =>
    rw [foldl_cons, ih _ fun ps' hps' => h ps' (mem_cons_of_mem _ hps'),
      durable_loadSession_of_ne s now (h ps mem_cons_self)]

end

/-- Loading sessions of different clients gives each its own. -/
lemma durable_loadSessions (now : ℕ) (sessions : List PersistedSession) (s : ShardState)
    (hnd : (sessions.map clientId).Nodup) (hps : ps ∈ sessions)
    (hnone : s.trie.clientSubscriptions ps.clientId = []) (h : Rearmable ps.session.subscriptions) :
    SameState ((s.loadSessions sessions now).view ps.clientId).durable (some ps.session) := by
  induction sessions generalizing s with
  | nil => cases hps
  | cons ps' sessions ih =>
    rw [map_cons, nodup_cons] at hnd
    rw [loadSessions, foldl_cons]
    rcases mem_cons.mp hps with rfl | hps
    · -- no later session is this client's
      have hrest : ∀ ps' ∈ sessions, ps.clientId ≠ ps'.clientId := fun ps' hps' heq =>
        hnd.1 (heq ▸ mem_map_of_mem hps')
      have hkeep := durable_loadSessions_of_notMem (s.loadSession now ps) now sessions hrest
      rw [loadSessions] at hkeep
      rw [hkeep]
      exact durable_loadSession_self s now ps hnone h
    · have hne : ps.clientId ≠ ps'.clientId := fun heq =>
        hnd.1 (heq ▸ mem_map_of_mem hps)
      refine ih (s.loadSession now ps') hnd.2 hps ?_
      exact (clientSubscriptions_rearm_of_ne s.trie hne _).trans hnone

end ShardState

/-! ### What a restart rebuilds -/

/-- Every entry of the merged map is filed under its own client id. -/
def Keyed (m : HashMap String PersistedSession) : Prop :=
  ∀ k ps, m.lookup k = some ps → ps.clientId = k

lemma keyed_empty : Keyed ∅ :=
  fun _ _ h => absurd h (Option.some_ne_none _).symm

lemma Keyed.insert (h : Keyed m) (ps : PersistedSession) : Keyed (m.insert ps.clientId ps) := by
  intro k ps' hk
  rw [lookup_insert_eq_ite] at hk
  split at hk
  next heq => cases hk; exact heq.symm
  next => exact h k ps' hk

lemma Keyed.erase (h : Keyed m) (c : String) : Keyed (m.erase c) := by
  intro k ps hk
  rw [lookup_erase_eq_ite] at hk
  split at hk
  next => cases hk
  next => exact h k ps hk

/-- Reading a pair of files. -/
lemma Keyed.mergeDisk (h : Keyed m) (walOn : Bool) (disk : Disk) :
    Keyed (mergeDisk walOn m disk) := by
  have hsessions : ∀ (l : List PersistedSession) (m : HashMap String PersistedSession), Keyed m →
      Keyed (mergeSessions m l) := by
    intro l
    induction l with
    | nil => exact fun _ h => h
    | cons ps l ih => exact fun m h => ih _ (h.insert ps)
  have hlog : ∀ (l : List Record) (m : HashMap String PersistedSession), Keyed m →
      Keyed (l.foldl applyRecord m) := by
    intro l
    induction l with
    | nil => exact fun _ h => h
    | cons record l ih =>
      intro m h
      cases record with
      | upsert ps => exact ih _ (h.insert ps)
      | remove c => exact ih _ (h.erase c)
  unfold Rusquitto.mergeDisk
  split
  · exact hlog _ _ (hsessions _ _ h)
  · exact hsessions _ _ h

lemma Disk.keyed_recovered (disk : Disk) : Keyed disk.recovered :=
  keyed_empty.mergeDisk true disk

lemma Keyed.nodup_values (h : Keyed m) : (m.values.map clientId).Nodup := by
  have hkeys : m.values.map clientId = m.keys := by
    rw [values, map_map]
    refine map_congr_left fun e he => ?_
    exact h e.1 e.2 (mem_lookup_iff.mpr he)
  rw [hkeys]
  exact m.keys_nodup

/-- The retained table is restored apart from sessions and subscriptions. -/
lemma view_loadRetained (s : ShardState) (messages : List Publish) (k : String) :
    (s.loadRetained messages).view k = s.view k := by
  unfold loadRetained
  induction messages generalizing s with
  | nil => rfl
  | cons message messages ih =>
    rw [foldl_cons, ih]
    split
    · rfl
    · unfold updateRetain
      split
      · rfl
      · split <;> rfl

/-- A restart gives every client the state that recovery finds for it. -/
lemma durable_restoreFromDisk (retained : List Publish) (disk : Disk) (now : ℕ) (k : String)
    (h : ∀ d, disk.state k = some d → Rearmable d.subscriptions) :
    SameState ((restoreFromDisk {} true retained [disk] now).view k).durable (disk.state k) := by
  have hview : ∀ c, ((enableWal {}).loadRetained retained).view c =
      (enableWal {}).view c := view_loadRetained _ retained
  show SameState ((((enableWal {}).loadRetained retained).loadSessions
    disk.recovered.values now).view k).durable _
  generalize (enableWal {}).loadRetained retained = s at hview
  have hsubs : ∀ c, s.trie.clientSubscriptions c = [] := fun c => congrArg subs (hview c)
  unfold Disk.state at h ⊢
  cases hps : disk.recovered.lookup k with
  | none =>
    -- no loaded session is this client's
    have hnot : ∀ ps ∈ disk.recovered.values, k ≠ ps.clientId := by
      intro ps hmem heq
      obtain ⟨c, hc⟩ := mem_values.mp hmem
      rw [heq, disk.keyed_recovered c ps hc, hc] at hps
      cases hps
    rw [s.durable_loadSessions_of_notMem now _ hnot, hview]
    exact .absent
  | some ps =>
    have hkey := disk.keyed_recovered k ps hps
    subst hkey
    exact durable_loadSessions now _ s disk.keyed_recovered.nodup_values
      (mem_values.mpr ⟨_, hps⟩) (hsubs _) (h _ (by rw [hps]; rfl))

/-! ### No Local on shared subscriptions -/

/-- Work that is proper, with subscriptions that `handle_subscribe` lets through: No Local on a
shared one is refused. -/
def Op.Admitted (m : Moment) (op : Op) : Prop :=
  op.Proper true m ∧
    match op with
    | .subscribe _ _ opts => opts.shareGroup.isSome → opts.nolocal = false
    | _ => True

/-- No shared subscription carries No Local. -/
def ClientView.SharedEcho (v : ClientView) : Prop :=
  ∀ sub ∈ v.subs, sub.shareGroup.isSome → sub.nolocal = false

lemma ClientView.SharedEcho.change {v v' : ClientView} {gone guard : Session → Prop}
    {f : Session → Session} (h : v.SharedEcho) (hchange : v.Change gone guard f v') :
      v'.SharedEcho := by
  cases hchange with
  | stays | turns => exact h
  | ends => exact fun _ hsub => nomatch hsub

/-- Operations on a session keep its client's subscriptions or drop them all. -/
lemma ClientView.SharedEcho.step {v v' : ClientView} {now : ℕ} {op : Op} {live live' : ℕ → Prop}
    (h : v.SharedEcho) (hstep : v.Step now op k live live' v') (harms : ¬op.Arms k) :
    v'.SharedEcho := by
  cases hstep with
  | same | marks => exact h
  | subscriptions hop => exact absurd hop harms
  | opened =>
    unfold opened
    split
    · exact h
    · split
      · exact fun _ hsub => nomatch hsub
      · exact h
  | closed => exact h.change (v.change_closed ..)
  | parked => exact h.change (v.change_parked ..)
  | reattached => exact h.change (v.change_reattached ..)
  | suspended => exact h.change (v.change_suspended ..)
  | willArmed => exact h.change (v.change_willArmed ..)
  | received hreceives =>
    exact hreceives.rel (R := fun v v' => v.SharedEcho → v'.SharedEcho) (fun _ => id)
      (fun h h' => h' ∘ h) (fun v d h => h.change (v.change_delivered d)) h
  | swept => exact h.change (v.change_swept _)
  | claimed => exact h.change v.change_claimed
  | shed => exact h.change v.change_shed

lemma sharedEcho_insert {filter : String} {opts : SubOptions}
    (h : ∀ sub ∈ trie.clientSubscriptions c, sub.shareGroup.isSome → sub.nolocal = false)
    (hopts : opts.shareGroup.isSome → opts.nolocal = false) :
    ∀ sub ∈ (trie.insert filter c opts).1.clientSubscriptions c, sub.shareGroup.isSome →
      sub.nolocal = false := by
  intro sub hsub
  rw [(trie.clientSubscriptions_insert_self_perm filter c opts).mem_iff, mem_append,
    mem_filter, mem_singleton] at hsub
  rcases hsub with ⟨hsub, _⟩ | rfl
  · exact h sub hsub
  · exact hopts

lemma sharedEcho_rearm (subs : List FlatSub)
    (h : ∀ sub ∈ trie.clientSubscriptions c, sub.shareGroup.isSome → sub.nolocal = false) :
    ∀ sub ∈ (rearm trie c subs).clientSubscriptions c, sub.shareGroup.isSome →
      sub.nolocal = false := by
  unfold rearm
  induction subs generalizing trie with
  | nil => exact h
  | cons sub subs ih =>
    rw [foldl_cons]
    refine ih (sharedEcho_insert h fun hshared => ?_)
    have hsome : sub.shareGroup.isSome := hshared
    simp [rearmOptions, Option.isNone_eq_false_iff.mpr hsome]

lemma sharedEcho_remove {filter : String} {group : Option String}
    (h : ∀ sub ∈ trie.clientSubscriptions c, sub.shareGroup.isSome → sub.nolocal = false) :
    ∀ sub ∈ (trie.remove filter c group).1.clientSubscriptions c, sub.shareGroup.isSome →
      sub.nolocal = false := by
  intro sub hsub
  rw [TopicTrie.clientSubscriptions_eq, TopicTrie.stored_remove, mem_map] at hsub
  obtain ⟨x, hx, rfl⟩ := hsub
  rw [mem_filter, mem_filter] at hx
  refine h _ ?_
  rw [TopicTrie.clientSubscriptions_eq]
  exact mem_map_of_mem (mem_filter.mpr ⟨hx.1.1, hx.2⟩)

namespace ShardRun

/-- An operation on one client's session. -/
lemma sharedEcho_of_view {s s' : ShardState} {v : String → ClientView}
    (h : ∀ k, (s.view k).SharedEcho) (hview : ∀ k, s'.view k = if k = c then v k else s.view k)
    (hc : (v c).SharedEcho) (k : String) : (s'.view k).SharedEcho := by
  rw [hview k]
  split
  next hk => exact hk ▸ hc
  next => exact h k

lemma sharedEcho_apply (hash : ContentHash) {op : Op} (h : ∀ k, (r.shard.view k).SharedEcho)
    (hop : op.Admitted r.toMoment) : ∀ k, ((r.apply hash op).shard.view k).SharedEcho := by
  cases op with
  | subscribe filter c opts =>
    exact sharedEcho_of_view h (fun k => view_subscribe ..) (sharedEcho_insert (h c) hop.2)
  | unsubscribe filter c group =>
    exact sharedEcho_of_view h (fun k => view_unsubscribe ..) (sharedEcho_remove (h c))
  | installMigrated c migrated =>
    exact sharedEcho_of_view h (fun k => view_installMigrated ..)
      (sharedEcho_rearm migrated.subscriptions (h c))
  | _ => exact fun k => (h k).step (r.view_apply hash _ k) id

/-! ### The restart -/

/-- A session that `persistSessions` returned, by client id. -/
def persisted (r : ShardRun) (clientId : String) : Option MigratedSession :=
  ((r.shard.persistSessions r.now).find? (·.clientId = clientId)).map PersistedSession.session

/-- The end of a graceful shutdown, before the final snapshot: every connection has closed, nothing
is parked, and the WAL task is between two rounds. -/
structure Drained (r : ShardRun) : Prop where
  running : r.running = []
  parked : ∀ k session, r.shard.sessions.lookup k = some session → session.parked = false
  task : r.task = .idle

/-- The log holds no record of a client whose state it may not have: one that is marked, or about to
expire. -/
def LogCurrent (r : ShardRun) : Prop :=
  ∀ k, ((r.shard.view k).wal.join.isSome ∨ (r.shard.view k).expiring r.now = true) →
    lastRecord k r.disk.wal = none

lemma find?_persisted (s : ShardState) (now : ℕ) (k : String) (ids : List String) :
    (ids.filterMap (s.persistOne · now)).find? (·.clientId = k) =
      if k ∈ ids then s.persistOne k now else none := by
  induction ids with
  | nil => rfl
  | cons c ids ih =>
    cases hc : s.persistOne c now with
    | none =>
      simp only [filterMap_cons, hc]
      rw [ih]
      by_cases hk : k = c
      · subst hk
        simp [hc]
      · simp [hk]
    | some ps =>
      simp only [filterMap_cons, hc]
      rw [find?_cons, ih, clientId_persistOne hc]
      by_cases hk : k = c
      · subst hk
        simp [hc]
      · simp [hk, Ne.symm hk]

lemma persisted_eq (r : ShardRun) (k : String) : r.persisted k =
      if (r.shard.view k).expiring r.now then none else (r.shard.view k).durable := by
  rw [persisted, persistSessions, find?_persisted, ← session_persistOne]
  split
  · rfl
  next hk =>
    rw [← AList.mem_keys, ← AList.lookup_eq_none] at hk
    simp [persistOne, hk]

/-- A drained shard has no connection left that could own a session without a mailbox. -/
lemma Drained.settled (h : r.Drained) (k : String) : ¬(r.memory k).unsettled := by
  rintro ⟨session, _, _, hlive⟩
  simp [Moment.live, h.running] at hlive

/-- The files after the final snapshot say what `persistSessions` returned. -/
lemma state_writeFinalSnapshots (hinv : r.Inv true) (hdrained : r.Drained) (hlog : r.LogCurrent)
    (k : String) :
    SameState ((writeFinalSnapshots r.shard r.now r.disk).state k) (r.persisted k) := by
  rw [state_eq]
  show SameState (Lib.WriteBehind.recovered (snapshotEntry k (r.shard.persistSessions r.now))
    (lastRecord k r.disk.wal)) _
  cases hlast : lastRecord k r.disk.wal with
  | none =>
    -- without a record the snapshot entry counts
    rw [persisted_eq, snapshotEntry_persistSessions, session_persistOne]
    exact .refl _
  | some state =>
    -- the record is of an unmarked session, which is in step with the disk
    have hcurrent : ¬((r.shard.view k).wal.join.isSome ∨
        (r.shard.view k).expiring r.now = true) := fun h => by
      rw [hlog k h] at hlast
      cases hlast
    rw [not_or, Option.not_isSome_iff_eq_none] at hcurrent
    have hsync := ((hinv.synced k).clean hcurrent.1).resolve_left (hdrained.settled k)
    have hsame := hsync.resolve_left hcurrent.2
    have hup : (r.cell k).upcoming = state := by
      simp only [Lib.WriteBehind.Cell.upcoming, cell, hdrained.task, WalTask.phase,
        Lib.WriteBehind.Cell.disk, Lib.WriteBehind.recovered, hlast, Option.getD_some]
    rw [hup] at hsame
    rw [persisted_eq, if_neg hcurrent.2]
    exact hsame

/-- What a shard persists can be loaded. -/
lemma rearmable_persisted (hecho : ∀ k, (r.shard.view k).SharedEcho) (k : String)
    {d : MigratedSession} (h : r.persisted k = some d) : Rearmable d.subscriptions := by
  have hsubs : d.subscriptions = (r.shard.view k).subs := by
    rw [persisted_eq] at h
    split at h
    · cases h
    · unfold durable at h
      split at h
      · cases h
      · split at h
        · cases h
        · cases h
          rfl
  rw [hsubs]
  exact ⟨r.shard.trie.nodup_clientSubscriptions k, hecho k⟩

lemma Reached.sharedEcho {hash : ContentHash} {r₀ : ShardRun}
    (hecho : ∀ k, (r₀.shard.view k).SharedEcho)
    (hrun : Reached hash (fun m op => op.Admitted m) r₀ r) : ∀ k, (r.shard.view k).SharedEcho := by
  induction hrun with
  | start => exact hecho
  | step op _ hop ih => exact sharedEcho_apply hash ih hop

/-- Graceful restart. A shard that has run on admitted work, is drained, and whose log is current
for every client, is rebuilt from its files after the final snapshot with exactly the sessions that
`persistSessions` returned. -/
theorem restart_rebuilds_persisted (hash : ContentHash) {r₀ r : ShardRun} (hstart : r₀.Started)
    (hecho : ∀ k, (r₀.shard.view k).SharedEcho)
    (hrun : Reached hash (fun m op => op.Admitted m) r₀ r) (hdrained : r.Drained)
    (hlog : r.LogCurrent) (retained : List Publish) (now : ℕ) (k : String) : SameState
      ((restoreFromDisk {} true retained [writeFinalSnapshots r.shard r.now r.disk] now).view
        k).durable (r.persisted k) := by
  have hinv : r.Inv true := hrun.inv (fun _ _ h => h.1) hstart
  have hstate := state_writeFinalSnapshots hinv hdrained hlog k
  refine (durable_restoreFromDisk retained _ now k fun d hd => ?_).trans hstate
  rw [hd] at hstate
  -- the recovered session has the subscriptions of the persisted one, in some order
  cases hp : r.persisted k with
  | none =>
    rw [hp] at hstate
    cases hstate
  | some d' =>
    rw [hp] at hstate
    cases hstate with
    | present h =>
      exact (rearmable_persisted (hrun.sharedEcho hecho) k hp).perm h.subscriptions.symm

/-- A session is suspended and flushed, a checkpoint empties the log, and one more message reaches
the session before the shutdown. -/
def checkpointedOps : List Op :=
  [.openSession "a" 0 true, .subscribe "t" "a" { qos := .atLeastOnce },
    .closeSession "a" 1 sessionNeverExpires {} [], .takeWalBatch, .appendDone, .persistSessions,
    .saveDone, .truncateDone, .deliverLocal reading none]

def checkpointedRun : ShardRun :=
  Lib.run (ShardRun.apply fun _ => 0) freshRun checkpointedOps

lemma checkpointedRun_reached :
    Reached (fun _ => 0) (fun m op => op.Admitted m) freshRun checkpointedRun := by
  have hsub : ¬(freshRun.apply (fun _ => 0) (.openSession "a" 0 true)).Suspended "a" := by
    rintro ⟨session, hs, hoff, _⟩
    cases hs
    cases hoff
  have hok : True ∧ True := ⟨trivial, trivial⟩
  exact Lib.Reached.start.run ⟨hok, ⟨hsub, nofun⟩, hok, hok, hok, hok, hok, hok, hok, trivial⟩

lemma checkpointedRun_drained : checkpointedRun.Drained where
  running := rfl
  parked k session h := by
    have hall : ∀ e ∈ checkpointedRun.shard.sessions.entries, e.2.parked = false := by decide
    exact hall _ (mem_lookup_iff.mp h)
  task := rfl

theorem restart_rebuilds_persisted_checkpointed : (checkpointedRun.persisted "a").isSome = true ∧
      SameState ((restoreFromDisk {} true []
          [writeFinalSnapshots checkpointedRun.shard checkpointedRun.now checkpointedRun.disk]
          0).view "a").durable (checkpointedRun.persisted "a") :=
  ⟨by decide,
    restart_rebuilds_persisted (fun _ => 0) freshRun_started nofun checkpointedRun_reached
      checkpointedRun_drained (fun _ _ => rfl) [] 0 "a"⟩

/-- A session that is flushed, resumed and flushed again, so that its tombstone is the last record
of the log when the shutdown closes it. -/
def resumedOps : List Op :=
  [.openSession "a" 0 true, .closeSession "a" 1 sessionNeverExpires {} [], .takeWalBatch,
    .appendDone, .openSession "a" 1 false, .takeWalBatch, .appendDone, .shutdownConnections,
    .closeSession "a" 2 sessionNeverExpires {} []]

def resumedRun : ShardRun :=
  Lib.run (ShardRun.apply fun _ => 0) freshRun resumedOps

/-- The tombstone outlives the final snapshot: the session that `persistSessions` returned is not
there after the restart. -/
theorem restart_drops_resumed_session :
    Reached (fun _ => 0) (fun m op => op.Admitted m) freshRun resumedRun ∧ resumedRun.Drained ∧
      (resumedRun.persisted "a").isSome = true ∧ ((restoreFromDisk {} true []
        [writeFinalSnapshots resumedRun.shard resumedRun.now resumedRun.disk] 0).view
          "a").durable.isNone = true := by
  have hok : True ∧ True := ⟨trivial, trivial⟩
  refine ⟨Lib.Reached.start.run ⟨hok, hok, hok, hok, hok, hok, hok, ⟨rfl, trivial⟩, hok, trivial⟩,
    ⟨rfl, fun k session h => ?_, rfl⟩, by decide, by decide⟩
  have hall : ∀ e ∈ resumedRun.shard.sessions.entries, e.2.parked = false := by decide
  exact hall _ (mem_lookup_iff.mp h)

end ShardRun

end Rusquitto
