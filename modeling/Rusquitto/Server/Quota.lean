import Rusquitto.Server.Heirs
import Rusquitto.Server.Subscribers

/-!
# The quota of subscriptions

A connection counts the subscriptions of its client in a field of its own; the entries themselves
are in the trie and outlive it. One that resumes a session of this shard starts to count at zero
(`resumed_counts_from_zero`). If only sessions without subscriptions are resumed, and only the owner
of a session changes them, the quota holds (`subscriptions_within_quota`).
-/

namespace Rusquitto

open ShardState Connection List ClientView Subscription FlatSub

variable {k : String} {c c' : Connection} {id : ℕ}

/-! ### Counting entries -/

/-- Taking an entry out of a list in which the keys differ. -/
lemma length_filter_key_ne {α β : Type*} [DecidableEq β] {l : List α} {f : α → β}
    (h : (l.map f).Nodup) (b : β) :
    (l.filter fun a => f a ≠ b).length + (if b ∈ l.map f then 1 else 0) = l.length := by
  have hcount : (l.filter fun a => f a = b).length = if b ∈ l.map f then 1 else 0 := by
    have hmap : (l.filter fun a => f a = b).length = (l.map f).count b := by
      rw [count, countP_map, countP_eq_length_filter]
      refine congrArg _ (filter_congr fun a _ => ?_)
      rw [Function.comp_apply, Bool.eq_iff_iff, decide_eq_true_iff, beq_iff_eq]
    rw [hmap]
    split
    · next hmem => exact count_eq_one_of_mem h hmem
    · next hmem => exact count_eq_zero_of_not_mem hmem
  have hsplit := length_eq_length_filter_add (l := l) fun a => decide (f a ≠ b)
  have hrest : (l.filter fun a => !decide (f a ≠ b)) = l.filter fun a => f a = b :=
    filter_congr fun a _ => by simp
  rw [hrest, hcount] at hsplit
  exact hsplit.symm

namespace TopicTrie

variable (trie : TopicTrie) (filter c : String)

/-- The entry of a filter, client and group, in terms of the client's subscriptions. -/
lemma exists_same_iff_key {group : Option String} :
    (∃ s, (filter, s) ∈ trie.stored ∧ s.same c group = true) ↔
      (filter, group) ∈ (trie.clientSubscriptions c).map key := by
  rw [clientSubscriptions_eq, map_map, mem_map]
  constructor
  · rintro ⟨s, hs, hsame⟩
    simp only [same, Bool.and_eq_true, beq_iff_eq] at hsame
    refine ⟨(filter, s), mem_filter.mpr ⟨hs, beq_iff_eq.mpr hsame.1⟩, ?_⟩
    rw [← hsame.2]
    rfl
  · rintro ⟨x, hx, hkey⟩
    obtain ⟨hx, hclient⟩ := mem_filter.mp hx
    cases hkey
    exact ⟨x.2, hx, by simpa [same, flat] using hclient⟩

/-- A new subscription is one more entry. -/
lemma length_insert (opts : SubOptions) :
    ((trie.insert filter c opts).1.clientSubscriptions c).length =
      (trie.clientSubscriptions c).length + if (trie.insert filter c opts).2 then 1 else 0 := by
  have hlength := (trie.clientSubscriptions_insert_self_perm filter c opts).length_eq
  rw [length_append, length_singleton] at hlength
  have hkeys := length_filter_key_ne (trie.nodup_clientSubscriptions c) (filter, opts.shareGroup)
  have hnew := (trie.insert_snd_eq_false_iff filter c opts).trans
    (trie.exists_same_iff_key filter c)
  split at hkeys
  · next hmem =>
    rw [hnew.mpr hmem, if_neg Bool.false_ne_true]
    omega
  · next hmem =>
    rw [Bool.eq_true_of_not_eq_false fun h => hmem (hnew.mp h), if_pos rfl]
    omega

/-- A subscription that is removed is one entry less. -/
lemma length_remove (group : Option String) :
    ((trie.remove filter c group).1.clientSubscriptions c).length +
      (if (trie.remove filter c group).2 then 1 else 0) = (trie.clientSubscriptions c).length := by
  have hkeys := length_filter_key_ne (trie.nodup_clientSubscriptions c) (filter, group)
  have hremoved := (trie.remove_snd_eq_true_iff filter c group).trans
    (trie.exists_same_iff_key filter c)
  rw [clientSubscriptions_remove_self]
  split at hkeys
  · next hmem =>
    rw [hremoved.mpr hmem, if_pos rfl]
    exact hkeys
  · next hmem =>
    rw [Bool.eq_false_of_not_eq_true fun h => hmem (hremoved.mp h), if_neg Bool.false_ne_true]
    exact hkeys

end TopicTrie

/-- Subscriptions with different keys are that many entries. -/
lemma Rearmed.length_eq {subs list subs' : List FlatSub} (h : Rearmed k subs list subs')
    (hnodup : ((subs ++ list).map key).Nodup) : subs'.length = subs.length + list.length := by
  induction h with
  | nil subs => rfl
  | @cons subs subs' subs'' rest sub hsub hrest ih =>
    -- the key is new, so nothing is replaced
    have hkept : subs.filter (fun s => s.key ≠ (sub.filter, (rearmOptions sub).shareGroup)) =
        subs := by
      refine filter_eq_self.mpr fun s hs => decide_eq_true fun hkey => ?_
      rw [map_append, map_cons, nodup_append] at hnodup
      exact hnodup.2.2 _ (mem_map_of_mem hs) _ mem_cons_self hkey
    have hperm : subs'.Perm (subs ++ [((rearmOptions sub).subscription k).flat sub.filter]) := by
      have h := hsub
      rw [Subscribed, hkept] at h
      exact h
    have hkeys : ((subs' ++ rest).map key).Perm ((subs ++ sub :: rest).map key) := by
      refine ((hperm.append_right rest).map key).trans (.of_eq ?_)
      simp [key, flat, SubOptions.subscription, rearmOptions]
    rw [ih (hkeys.nodup_iff.mpr hnodup), hperm.length_eq, length_append, length_singleton,
      length_cons]
    omega

/-! ### What a connection counts -/

namespace ShardState

/-- The number of entries of a client. -/
def entries (s : ShardState) (k : String) : ℕ := (s.trie.clientSubscriptions k).length

section

variable (s : ShardState) (filter c : String)

lemma entries_subscribe (opts : SubOptions) : (s.subscribe filter c opts).1.entries c =
      s.entries c + if (s.subscribe filter c opts).2 then 1 else 0 := by
  have hsubs := congrArg subs (s.view_subscribe filter c c opts)
  rw [if_pos rfl] at hsubs
  have hnew : (s.subscribe filter c opts).2 = (s.trie.insert filter c opts).2 := by
    unfold subscribe
    split <;> rfl
  rw [hnew]
  exact (congrArg length hsubs).trans (s.trie.length_insert filter c opts)

lemma entries_unsubscribe (group : Option String) : (s.unsubscribe filter c group).1.entries c +
      (if (s.unsubscribe filter c group).2 then 1 else 0) = s.entries c := by
  have hsubs := congrArg subs (s.view_unsubscribe filter c c group)
  rw [if_pos rfl] at hsubs
  have hremoved : (s.unsubscribe filter c group).2 = (s.trie.remove filter c group).2 := by
    unfold unsubscribe
    split <;> rfl
  rw [hremoved]
  exact (congrArg (length · + _) hsubs).trans (s.trie.length_remove filter c group)

lemma trie_subscribe (opts : SubOptions) :
    (s.subscribe filter c opts).1.trie = (s.trie.insert filter c opts).1 := by
  unfold subscribe
  split
  · dsimp only
    split
    · rw [broadcastShared_eq]
    · rfl
  · rfl

/-- A subscription that is taken back at once leaves the number as it was. -/
lemma entries_rollback (opts : SubOptions) (hnew : (s.subscribe filter c opts).2 = true) :
    ((s.subscribe filter c opts).1.unsubscribe filter c opts.shareGroup).1.entries c =
      s.entries c := by
  have hsubscribed := s.entries_subscribe filter c opts
  have hback := (s.subscribe filter c opts).1.entries_unsubscribe filter c opts.shareGroup
  -- the entry that is removed is there
  have hremoved : ((s.subscribe filter c opts).1.unsubscribe filter c opts.shareGroup).2
    = true := by
    have hentry : ((s.subscribe filter c opts).1.trie.remove filter c opts.shareGroup).2
      = true := by
      rw [TopicTrie.remove_snd_eq_true_iff, trie_subscribe]
      refine ⟨opts.subscription c, ?_, by simp [same, SubOptions.subscription]⟩
      exact (TopicTrie.mem_stored_insert _).mpr (.inr rfl)
    rw [← hentry]
    unfold unsubscribe
    split <;> rfl
  rw [hremoved, if_pos rfl] at hback
  rw [hnew, if_pos rfl] at hsubscribed
  omega

end

end ShardState

namespace Connection

variable {env : Env}

/-- The count is right, and within the quota if there is one. -/
structure Tallies (c : Connection) (s : ShardState) : Prop where
  count : c.subscriptionCount = s.entries c.clientId
  quota : 0 < c.limits.maxSubscriptionsPerClient →
    s.entries c.clientId ≤ c.limits.maxSubscriptionsPerClient

/-- One filter of a SUBSCRIBE keeps the count right. -/
lemma tallies_subscribeOne {acc : SubscribeLoop} (h : acc.conn.Tallies acc.shard) (subId : Option ℕ)
    (filter : SubscribeFilter) : (subscribeOne env subId acc filter).conn.Tallies
      (subscribeOne env subId acc filter).shard := by
  unfold subscribeOne
  split
  · exact h
  · next effective shareGroup _ =>
    split
    · exact h
    · split
      · exact h
      · split
        · exact h
        · unfold SubscribeLoop.register
          dsimp only
          have hentries := acc.shard.entries_subscribe effective acc.conn.clientId
            { qos := minQos filter.qos acc.conn.limits.maxQosLevel
              nolocal := filter.nolocal
              retainAsPublished := filter.preserveRetain
              shareGroup
              subId }
          have hrollback := acc.shard.entries_rollback effective acc.conn.clientId
            { qos := minQos filter.qos acc.conn.limits.maxQosLevel
              nolocal := filter.nolocal
              retainAsPublished := filter.preserveRetain
              shareGroup
              subId }
          generalize acc.shard.subscribe effective acc.conn.clientId _ =
            subscribed at hentries hrollback ⊢
          obtain ⟨shard, isNew⟩ := subscribed
          have hcount := h.count
          split
          · next hover =>
            -- one too many: it is taken back
            have hback := hrollback hover.1
            exact ⟨hcount.trans hback.symm, fun hmax => hback.trans_le (h.quota hmax)⟩
          · next hroom =>
            refine ⟨?_, fun hmax => ?_⟩
            · exact (congrArg (· + _) hcount).trans hentries.symm
            · have hquota := h.quota hmax
              rw [hentries]
              cases isNew with
              | false => exact hquota
              | true =>
                simp only [true_and, not_and, not_le] at hroom
                have hlt := hroom hmax
                rw [hcount] at hlt
                exact hlt

lemma Tallies.of_standing {s : ShardState} (h : c.Tallies s)
    (hstanding : c'.standing = c.standing) : c'.Tallies s := by
  have hcount : c'.subscriptionCount = c.subscriptionCount :=
    congrArg Standing.subscriptionCount hstanding
  have hname : c'.clientId = c.clientId :=
    congrArg (fun st => Identity.clientId (Standing.identity st)) hstanding
  have hlimits : c'.limits = c.limits := congrArg Standing.limits hstanding
  refine ⟨?_, ?_⟩
  · rw [hcount, hname]
    exact h.count
  · rw [hlimits, hname]
    exact h.quota

/-- A SUBSCRIBE keeps the count right. -/
lemma tallies_handleSubscribe {s : ShardState} (h : c.Tallies s) (subscribe : Subscribe) :
    (c.handleSubscribe env s subscribe).conn.Tallies (c.handleSubscribe env s subscribe).shard := by
  have hall (filters : List SubscribeFilter) (acc : SubscribeLoop)
    (h : acc.conn.Tallies acc.shard) :
      (filters.foldl (subscribeOne env subscribe.id) acc).conn.Tallies
        (filters.foldl (subscribeOne env subscribe.id) acc).shard := by
    induction filters generalizing acc with
    | nil => exact h
    | cons filter filters ih => exact ih _ (tallies_subscribeOne h subscribe.id filter)
  exact (hall subscribe.filters { conn := c, shard := s } h).of_standing
    ((standing_replayAll env _ _ 0 none).trans rfl)

/-- An UNSUBSCRIBE keeps the count right. -/
lemma tallies_handleUnsubscribe {s : ShardState} (h : c.Tallies s) (unsubscribe : Unsubscribe) :
    (c.handleUnsubscribe s unsubscribe).conn.Tallies (c.handleUnsubscribe s unsubscribe).shard := by
  have hall (filters : List String) (acc : Connection × ShardState) (h : acc.1.Tallies acc.2) :
      (filters.foldl unsubscribeOne acc).1.Tallies (filters.foldl unsubscribeOne acc).2 := by
    induction filters generalizing acc with
    | nil => exact h
    | cons filter filters ih =>
      refine ih _ ?_
      unfold unsubscribeOne
      dsimp only
      generalize (parseSharedFilter filter).getD (filter, none) = parsed
      have hentries := acc.2.entries_unsubscribe parsed.1 acc.1.clientId parsed.2
      have hcount := h.count
      refine ⟨?_, fun hmax => ?_⟩
      · change acc.1.subscriptionCount - _ = entries _ acc.1.clientId
        omega
      · change entries _ acc.1.clientId ≤ acc.1.limits.maxSubscriptionsPerClient
        have hquota := h.quota hmax
        omega
  exact (hall unsubscribe.filters (c, s) h).of_standing rfl

/-- What does not subscribe or unsubscribe keeps the count. -/
lemma subscriptionCount_dispatch (c : Connection) (s : ShardState) (chance : Chance)
    {packet : Packet}
    (hsub : ∀ subscribe, packet ≠ .subscribe subscribe)
    (hunsub : ∀ unsubscribe, packet ≠ .unsubscribe unsubscribe) :
    (c.dispatch env s chance packet).conn.subscriptionCount = c.subscriptionCount := by
  have hkept {c' : Connection} {st : Standing} (h : c'.standing = st) :
      c'.subscriptionCount = st.subscriptionCount := congrArg Standing.subscriptionCount h
  cases packet with
  | publish publish =>
    obtain ⟨_, _, h⟩ := standing_handlePublish env c s chance publish
    exact hkept h
  | pubRel pkid =>
    obtain ⟨_, h⟩ := standing_handlePubrel env c s chance pkid
    exact hkept h
  | subscribe subscribe => exact absurd rfl (hsub subscribe)
  | unsubscribe unsubscribe => exact absurd rfl (hunsub unsubscribe)
  | pubAck pkid => exact hkept (standing_release env c pkid)
  | pubComp pkid => exact hkept (standing_release env c pkid)
  | pubRec pkid => exact hkept (standing_handlePubrec c pkid)
  | disconnect reason =>
    change (c.handleDisconnect reason).1.subscriptionCount = _
    unfold handleDisconnect
    split <;> rfl
  | connect | pingReq | serverOnly => rfl

/-- What the count of a connection is for: whose it is, and what it is. -/
structure Account where
  clientId : String
  generation : ℕ
  connected : Bool
  count : ℕ

def account (c : Connection) : Account :=
  ⟨c.clientId, c.sessionGeneration, c.connected, c.subscriptionCount⟩

lemma account_of_standing {st : Standing} (h : c.standing = st) :
    c.account = ⟨st.identity.clientId, st.identity.sessionGeneration, st.identity.connected,
      st.subscriptionCount⟩ := by
  rw [← h]
  rfl

lemma account_settle (r : Connection × Outcome) : (settle r).account = r.1.account := by
  unfold settle
  split <;> rfl

end Connection

/-! ### Counts and entries in a run -/

namespace ShardState

variable {s s' : ShardState}

/-- The generation is that of the client's session. -/
def Owned (s : ShardState) (k : String) (generation : ℕ) : Prop :=
  k ≠ "" ∧ ∃ session, s.sessions.lookup k = some session ∧ session.generation = generation

/-- An account is right: before CONNECT nothing is counted, and for the owner of a session the count
is the number of entries. -/
structure Balances (s : ShardState) (a : Account) : Prop where
  owner : s.Owned a.clientId a.generation → a.count = s.entries a.clientId
  blank : a.connected = false → a.count = 0

/-- Whoever owns the session under the generation afterwards did so before, with as many entries. -/
def KeepsTally (s s' : ShardState) (k : String) (generation : ℕ) : Prop :=
  s'.Owned k generation → s.Owned k generation ∧ s'.entries k = s.entries k

lemma keepsTally_of_lasts (h : (s.view k).Lasts (s'.view k)) (generation : ℕ) :
    KeepsTally s s' k generation := by
  rintro ⟨hname, session', hs', rfl⟩
  obtain ⟨hsubs, session, hs, hgen⟩ := h.exists_session hs'
  exact ⟨⟨hname, session, hs, hgen.symm⟩, congrArg length hsubs⟩

lemma keepsTally_of_view (h : s'.view k = s.view k) (generation : ℕ) :
    KeepsTally s s' k generation :=
  keepsTally_of_lasts (h ▸ .refl _) generation

/-- The account goes on under another connection of the same client, or of none. -/
lemma Balances.carry {a a' : Account} (h : s.Balances a)
    (hkept : KeepsTally s s' a.clientId a.generation)
    (hname : a'.clientId = "" ∨ a'.clientId = a.clientId ∧ a'.generation = a.generation)
    (hcount : a'.count = a.count) (hconnected : a'.connected = false → a.connected = false) :
    s'.Balances a' where
  owner howned := by
    rcases hname with hname | ⟨hname, hgen⟩
    · exact absurd hname howned.1
    · rw [hname, hgen] at howned
      obtain ⟨hbefore, hentries⟩ := hkept howned
      rw [hcount, hname, hentries]
      exact h.owner hbefore
  blank hnot := hcount.trans (h.blank (hconnected hnot))

end ShardState

namespace Server

variable {env : Env} {srv₀ srv srv' : Server} {op : ServerOp}

/-- Only a session without subscriptions is resumed, only its owner subscribes or unsubscribes, and
only its owner installs a migrated one, which has different subscriptions within the quota. What is
loaded is loaded before anybody connects, and within the quota. -/
def Countable (srv : Server) : ServerOp → Prop
  | .packet id (.connect connect) chance => ∀ c, srv.tasks id = some c → c.connected = false →
    connect.cleanSession = false → srv.shard.entries (c.connectingId srv.shard chance connect) = 0
  | .packet id (.subscribe _) _ | .packet id (.unsubscribe _) _ => ∀ c, srv.tasks id = some c →
    c.connected = true → srv.shard.Owned c.clientId c.sessionGeneration
  | .claimReply id _ => ∀ c migrated rest, srv.tasks id = some c →
    srv.shard.claimReplies id = some migrated :: rest →
      srv.shard.Owned c.clientId c.sessionGeneration ∧
        (migrated.subscriptions.map FlatSub.key).Nodup ∧
      (0 < srv.limits.maxSubscriptionsPerClient →
        migrated.subscriptions.length ≤ srv.limits.maxSubscriptionsPerClient)
  | .load sessions => (∀ id, srv.tasks id = none) ∧ srv.parking.slots = ∅ ∧
    (0 < srv.limits.maxSubscriptionsPerClient → ∀ k,
      (srv.shard.loadSessions sessions srv.now).entries k ≤ srv.limits.maxSubscriptionsPerClient)
  | _ => True

/-- What the connections, running and parked, have counted is right. -/
structure Balanced (srv : Server) : Prop where
  task : ∀ id c, srv.tasks id = some c → srv.shard.Balances c.account
  slot : ∀ slot r, srv.parking.slots.lookup slot = some r →
    srv.shard.Balances ⟨r.clientId, r.sessionGeneration, true, r.subscriptionCount⟩

/-- The counts are right and the quota holds. -/
structure WithinQuota (srv : Server) : Prop where
  counts : srv.Balanced
  quota : 0 < srv.limits.maxSubscriptionsPerClient →
    ∀ k, srv.shard.entries k ≤ srv.limits.maxSubscriptionsPerClient

/-! ### Work that neither opens a session nor touches subscriptions -/

lemma Heir.balances (h : Heir env srv op id c') (hop : Neutral op) (hinv : srv.Inv)
    (hcounts : srv.Balanced) {s' : ShardState} (hkept : ∀ k g, srv.shard.KeepsTally s' k g) :
    s'.Balances c'.account := by
  have hcarry {c : Connection} (hc : srv.tasks id = some c)
      (hname : c'.clientId = "" ∨ c'.clientId = c.clientId ∧ c'.sessionGeneration =
        c.sessionGeneration)
      (hcount : c'.subscriptionCount = c.subscriptionCount)
      (hconnected : c'.connected = false → c.connected = false) : s'.Balances c'.account :=
    (hcounts.task id c hc).carry (hkept _ _) hname hcount hconnected
  cases h with
  | accepted => exact ⟨fun howned => absurd rfl howned.1, fun _ => rfl⟩
  | @processed c p chance heq hc hphase =>
    subst heq
    rw [account_settle]
    have hold := hcounts.task id c hc
    cases answer_processOne env c srv.shard chance p with
    | served hconnected hturn =>
      obtain ⟨_, _, _, count, -, hst⟩ := standing_dispatch env c srv.shard chance p
      have hcount : (c.dispatch env srv.shard chance p).conn.subscriptionCount =
        c.subscriptionCount :=
        c.subscriptionCount_dispatch srv.shard chance (by rintro _ rfl; exact hop)
          (by rintro _ rfl; exact hop)
      rw [hturn, account_of_standing hst]
      obtain rfl : count = c.subscriptionCount :=
        (congrArg Standing.subscriptionCount hst).symm.trans hcount
      exact hold.carry (hkept _ _) (.inr ⟨rfl, rfl⟩) rfl fun h => h
    | @refused _ c₂ _ _ hconnected hvet hturn hst =>
      obtain ⟨_, _, _, _, _, _, _, _, rfl⟩ := hvet
      rw [hturn]
      change s'.Balances c₂.account
      rw [account_of_standing hst]
      -- no session has the generation of a connection that has none
      refine ⟨fun howned => ?_, hold.blank⟩
      obtain ⟨⟨-, session, hs, hgen⟩, -⟩ := hkept _ _ howned
      have hpos := hinv.generation_pos _ session hs
      have hzero : c.sessionGeneration = 0 := hinv.unopened id c hc hconnected hphase
      exact absurd (hgen.trans hzero) hpos.ne'
    | opened _ hpacket =>
      subst hpacket
      exact hop.elim
  | @received c d rest heq hc hphase hchannel =>
    rw [account_settle, account_of_standing (standing_receive env c d)]
    exact (hcounts.task id c hc).carry (hkept _ _) (.inr ⟨rfl, rfl⟩) rfl fun h => h
  | @claimed c _ assigned chance reply replies heq hc hphase =>
    rcases heq with ⟨rfl, -⟩ | ⟨rfl, rfl⟩
    · exact hop.elim
    · rw [account_settle,
        account_of_standing (standing_claimed env c _ chance assigned none)]
      exact (hcounts.task id c hc).carry (hkept _ _) (.inr ⟨rfl, rfl⟩) rfl nofun
  | unparked _ hc =>
    exact (hcounts.task _ _ hc).carry (hkept _ _) (.inr ⟨rfl, rfl⟩) rfl nofun
  | woken _ hr =>
    exact (hcounts.slot _ _ hr).carry (hkept _ _) (.inr ⟨rfl, rfl⟩) rfl nofun
  | @reattached c chance _ snapshot queued _ hc =>
    rw [account_settle, account_of_standing
      (standing_resumeDelivery env _ chance.flushFails queued)]
    exact (hcounts.task id c hc).carry (hkept _ _) (.inr ⟨rfl, rfl⟩) rfl fun h => h
  | ended hc | claimGoesOn hc | willing _ hc => exact hcarry hc (.inr ⟨rfl, rfl⟩) rfl fun h => h
  | reattachLost _ hc => exact hcarry hc (.inl rfl) rfl fun h => h

/-- A step under which everybody's account stays right. -/
lemma WithinQuota.spared (h : srv.WithinQuota) (hmove : Move env srv op srv') (hinv : srv.Inv)
    (hop : Neutral op) : srv'.WithinQuota := by
  have hkept (k : String) (g : ℕ) := keepsTally_of_lasts (hmove.lasts hop k) g
  refine ⟨⟨fun id c hc => ?_, fun slot r hr => ?_⟩, fun hmax k => ?_⟩
  · rcases hmove.heir hc with hold | hheir
    · exact (h.counts.task id c hold).carry (hkept _ _) (.inr ⟨rfl, rfl⟩) rfl fun h => h
    · exact hheir.balances hop hinv h.counts hkept
  · rcases hmove.parked hr with hold | ⟨id, c, -, hc, -, -, rfl, -⟩
    · exact (h.counts.slot slot r hold).carry (hkept _ _) (.inr ⟨rfl, rfl⟩) rfl fun h => h
    · exact (h.counts.task id c hc).carry (hkept _ _) (.inr ⟨rfl, rfl⟩) rfl nofun
  · rw [hmove.config_eq.1] at hmax ⊢
    rcases hmove.lasts hop k with ⟨-, hnil⟩ | ⟨hsubs, -⟩
    · exact (congrArg length hnil).trans_le (Nat.zero_le _)
    · exact (congrArg length hsubs).trans_le (h.quota hmax k)

/-! ### Work of the owner -/

/-- One task takes a turn that leaves the accounts of the others right. -/
lemma WithinQuota.turn (h : srv.WithinQuota)
    (htasks : srv'.tasks = Function.update srv.tasks id (some c'))
    (hparking : srv'.parking = srv.parking) (hlimits : srv'.limits = srv.limits)
    (hkept : ∀ x g k, x ≠ .task id → srv.generationOf x = some g →
      srv.shard.KeepsTally srv'.shard k g) (hself : srv'.shard.Balances c'.account)
    (hquota : 0 < srv.limits.maxSubscriptionsPerClient →
      ∀ k, srv'.shard.entries k ≤ srv.limits.maxSubscriptionsPerClient) : srv'.WithinQuota := by
  refine ⟨⟨fun id' c hc => ?_, fun slot r hr => ?_⟩, hlimits ▸ hquota⟩
  · rw [htasks] at hc
    by_cases hid : id' = id
    · rw [hid, Function.update_self] at hc
      exact Option.some.inj hc ▸ hself
    · rw [Function.update_of_ne hid] at hc
      refine (h.counts.task id' c hc).carry ?_ (.inr ⟨rfl, rfl⟩) rfl fun h => h
      exact hkept (.task id') _ _ (fun heq => hid (Carrier.task.inj heq)) (Inv.carries_task hc)
  · rw [hparking] at hr
    refine (h.counts.slot slot r hr).carry ?_ (.inr ⟨rfl, rfl⟩) rfl fun h => h
    exact hkept (.slot slot) _ _ nofun (by rw [generationOf, hr]; rfl)

/-- The owner of a session changes its subscriptions: nobody else's account is concerned. -/
lemma Inv.keepsTally (hinv : srv.Inv) (hc : srv.tasks id = some c)
    (howned : srv.shard.Owned c.clientId c.sessionGeneration) {s' : ShardState}
    (hsession : ∀ k, (s'.view k).session = (srv.shard.view k).session)
    (hsubs : ∀ k, k ≠ c.clientId → (s'.view k).subs = (srv.shard.view k).subs) {x : Carrier} {g : ℕ}
    (hx : x ≠ .task id) (hg : srv.generationOf x = some g) (k : String) :
    srv.shard.KeepsTally s' k g := by
  rintro ⟨hname, session, hs, rfl⟩
  have hs : srv.shard.sessions.lookup k = some session := (hsession k).symm.trans hs
  by_cases hk : k = c.clientId
  · -- a session has one owner
    obtain ⟨-, session', hs', hgen⟩ := howned
    rw [hk] at hs
    obtain rfl := Option.some.inj (hs.symm.trans hs')
    rw [hgen] at hg
    have hpos : 0 < c.sessionGeneration := hgen ▸ hinv.generation_pos _ session hs
    exact absurd (hinv.carried_once _ _ _ hpos hg (Inv.carries_task hc)) hx
  · exact ⟨⟨hname, session, hs, rfl⟩, congrArg length (hsubs k hk)⟩

/-- SUBSCRIBE and UNSUBSCRIBE change the subscriptions of one client. -/
lemma subscribing_keeps (clientId : String) : ClientClosed clientId fun s s' =>
    ∀ k, (s'.view k).session = (s.view k).session ∧ (k ≠ clientId → s'.view k = s.view k) where
  refl s k := ⟨rfl, fun _ => rfl⟩
  trans h h' k := ⟨(h' k).1.trans (h k).1, fun hk => ((h' k).2 hk).trans ((h k).2 hk)⟩
  subscribe s filter opts k := by
    rw [view_subscribe]
    split
    · next hk => exact ⟨rfl, fun hne => absurd hk hne⟩
    · exact ⟨rfl, fun _ => rfl⟩
  unsubscribe s filter group k := by
    rw [view_unsubscribe]
    split
    · next hk => exact ⟨rfl, fun hne => absurd hk hne⟩
    · exact ⟨rfl, fun _ => rfl⟩

lemma WithinQuota.tallied (h : srv.WithinQuota) (hinv : srv.Inv) (hconfig : srv.Configured)
    (hc : srv.tasks id = some c) (hconnected : c.connected = true) {turn : Turn}
    (howned : srv.shard.Owned c.clientId c.sessionGeneration)
    (hkept : ∀ k, (turn.shard.view k).session = (srv.shard.view k).session ∧
      (k ≠ c.clientId → turn.shard.view k = srv.shard.view k))
    (hstanding : ∃ count, turn.conn.standing = { c.standing with subscriptionCount := count })
    (htallies : c.Tallies srv.shard → turn.conn.Tallies turn.shard) :
    (srv.finishTurn id turn).WithinQuota := by
  obtain ⟨count, hst⟩ := hstanding
  have hlimits : c.limits = srv.limits := congrArg Prod.fst (hconfig id c hc)
  have hclient : turn.conn.clientId = c.clientId := congrArg (fun st => st.identity.clientId) hst
  have hlimits' : turn.conn.limits = srv.limits :=
    (congrArg Standing.limits hst).trans hlimits
  have htallied := htallies ⟨(h.counts.task id c hc).owner howned,
    fun hmax => by rw [hlimits] at hmax ⊢; exact h.quota hmax _⟩
  refine h.turn rfl rfl rfl (fun x g k hx hg => hinv.keepsTally hc howned (fun k => (hkept k).1)
    (fun k hk => congrArg subs ((hkept k).2 hk)) hx hg k) ?_ fun hmax k => ?_
  · rw [account_settle]
    refine ⟨fun _ => htallied.count, fun hnot => ?_⟩
    have hstill : turn.conn.connected = c.connected := congrArg
      (fun st => st.identity.connected) hst
    exact nomatch (hstill.trans hconnected).symm.trans hnot
  · by_cases hk : k = c.clientId
    · have hquota := htallied.quota (by rw [hlimits']; exact hmax)
      rw [hclient, hlimits'] at hquota
      exact hk ▸ hquota
    · exact (congrArg (fun v => v.subs.length) ((hkept k).2 hk)).trans_le (h.quota hmax k)

/-- A session that is opened starts without entries, if it is not resumed with some. -/
lemma entries_opened {s : ShardState} (hanchored : ∀ k, (s.view k).Anchored)
    {mailbox generation : ℕ} {cleanStart : Bool} (hresumed : cleanStart = false → s.entries k = 0) :
    ((s.view k).opened mailbox generation cleanStart).subs = [] := by
  unfold opened
  split
  · next hnone =>
    by_contra hne
    have hsome := hanchored k hne
    rw [hnone] at hsome
    exact nomatch hsome
  · split
    · rfl
    · next hclean => exact length_eq_zero_iff.mp (hresumed (Bool.eq_false_iff.mpr hclean))

section

variable (h : srv.WithinQuota)
include h

/-- A CONNECT opens a session. -/
lemma WithinQuota.opened (hinv : srv.Inv) (hanchored : ∀ k, (srv.shard.view k).Anchored)
    {c₁ : Connection} (hc : srv.tasks id = some c) (hconnected : c.connected = false)
    (hvet : c.Vetted c₁) {n : ℕ} {chance : Chance} {cleanStart : Bool} (assigned : Bool)
    (hresumed : cleanStart = false → srv.shard.entries c₁.clientId = 0) :
    (srv.finishTurn id (c₁.openHandle env { srv.shard with nextAssignedId := n } chance cleanStart
      assigned)).WithinQuota := by
  obtain ⟨connected, phase, -, hst⟩ := standing_openHandle env c₁
    { srv.shard with nextAssignedId := n } chance cleanStart assigned
  have hview (k : String) := view_openHandle env c₁ { srv.shard with nextAssignedId := n }
    chance cleanStart assigned k
  generalize c₁.openHandle env { srv.shard with nextAssignedId := n } chance cleanStart
    assigned = turn
    at hst hview ⊢
  have hcount : c₁.subscriptionCount = 0 := by
    have hblank := (h.counts.task id c hc).blank hconnected
    obtain ⟨_, _, _, _, _, _, _, _, rfl⟩ := hvet
    exact hblank
  have hsubs : turn.shard.entries c₁.clientId = 0 := by
    change (turn.shard.view c₁.clientId).subs.length = 0
    rw [hview, if_pos rfl]
    exact congrArg length (entries_opened hanchored hresumed)
  refine h.turn rfl rfl rfl (fun x g k _ hg => ?_) ?_ fun hmax k => ?_
  · by_cases hk : k = c₁.clientId
    · -- the session is no longer theirs
      rintro ⟨-, session, hs, rfl⟩
      have hs : (turn.shard.view k).session = some session := hs
      rw [hview, if_pos hk] at hs
      have hnew : session.generation = srv.shard.nextGeneration + 1 := by
        unfold ClientView.opened at hs
        split at hs
        · exact Option.some.inj hs ▸ rfl
        · split at hs
          · exact Option.some.inj hs ▸ rfl
          · exact Option.some.inj hs ▸ rfl
      have hle := hinv.carried_le x _ hg
      omega
    · exact keepsTally_of_view (by rw [finishTurn, hview, if_neg hk]; rfl) g
  · rw [account_settle, account_of_standing hst]
    exact ⟨fun _ => hcount.trans hsubs.symm, fun _ => hcount⟩
  · by_cases hk : k = c₁.clientId
    · exact hk ▸ hsubs.trans_le (Nat.zero_le _)
    · have hsame : turn.shard.view k = srv.shard.view k := by
        rw [hview, if_neg hk]
        rfl
      exact (congrArg (fun v => v.subs.length) hsame).trans_le (h.quota hmax k)

/-- A packet that concerns no session but the own one, and no subscription. -/
lemma WithinQuota.unchanged (hc : srv.tasks id = some c)
    (htasks : srv'.tasks = Function.update srv.tasks id (some c'))
    (hparking : srv'.parking = srv.parking) (hlimits : srv'.limits = srv.limits)
    (hview : ∀ k, srv'.shard.view k = srv.shard.view k) {a : Account} (ha : c'.account = a)
    (hname : a.clientId = c.clientId ∧ a.generation = c.sessionGeneration ∨ ∀ k,
      ¬srv.shard.Owned k a.generation) (hcount : a.count = c.subscriptionCount)
    (hconnected : a.connected = false → c.connected = false) : srv'.WithinQuota := by
  subst ha
  have hkept (k : String) (g : ℕ) := keepsTally_of_view (hview k) g
  refine h.turn htasks hparking hlimits (fun _ g k _ _ => hkept k g) ?_ fun hmax k => ?_
  · have hold := h.counts.task id c hc
    rcases hname with hname | hnone
    · exact hold.carry (hkept _ _) (.inr hname) hcount hconnected
    · exact ⟨fun howned => absurd (hkept _ _ howned).1 (hnone _),
        fun hnot => hcount.trans (hold.blank (hconnected hnot))⟩
  · exact (congrArg (fun v => v.subs.length) (hview k)).trans_le (h.quota hmax k)

/-- CONNECT, SUBSCRIBE and UNSUBSCRIBE. -/
lemma WithinQuota.packet (hinv : srv.Inv) (hconfig : srv.Configured)
    (hanchored : ∀ k, (srv.shard.view k).Anchored) {p : Packet} {chance : Chance}
    (hc : srv.tasks id = some c) (hphase : c.phase = .running)
    (hop : srv.Countable (.packet id p chance)) (hneutral : ¬Neutral (.packet id p chance)) :
    (srv.finishTurn id (c.processOne env srv.shard chance p)).WithinQuota := by
  have hanswer := answer_processOne env c srv.shard chance p
  generalize c.processOne env srv.shard chance p = turn at hanswer ⊢
  cases hanswer with
  | served hconnected hturn =>
    subst hturn
    cases p with
    | connect =>
      exact h.unchanged hc rfl rfl rfl (fun _ => rfl) rfl (.inl ⟨rfl, rfl⟩) rfl fun h => h
    | subscribe subscribe =>
      obtain ⟨_, hst⟩ := standing_handleSubscribe env c srv.shard subscribe
      exact h.tallied hinv hconfig hc hconnected (hop c hc hconnected)
        (client_handleSubscribe (subscribing_keeps c.clientId) srv.shard subscribe)
        ⟨_, hst⟩ fun ht => tallies_handleSubscribe ht subscribe
    | unsubscribe unsubscribe =>
      obtain ⟨_, hst⟩ := standing_unsubscribeAll unsubscribe.filters (c, srv.shard)
      exact h.tallied hinv hconfig hc hconnected (hop c hc hconnected)
        (client_handleUnsubscribe (subscribing_keeps c.clientId) srv.shard unsubscribe)
        ⟨_, hst⟩ fun ht => tallies_handleUnsubscribe ht unsubscribe
    | _ => exact absurd trivial hneutral
  | @refused _ c₂ _ _ hconnected hvet hturn hst =>
    obtain ⟨_, _, _, _, _, _, _, _, rfl⟩ := hvet
    subst hturn
    have hzero : c.sessionGeneration = 0 := hinv.unopened id c hc hconnected hphase
    refine h.unchanged hc rfl rfl rfl (fun _ => rfl)
      ((account_settle _).trans (account_of_standing hst)) (.inr ?_) rfl
      fun _ => hconnected
    -- no session has the generation of a connection that has none
    rintro k ⟨-, session, hs, hgen⟩
    exact (hinv.generation_pos k session hs).ne' (hgen.trans hzero)
  | @opened c₁ _ connect hconnected hpacket hvet hname hturn hid =>
    subst hpacket hturn
    exact h.opened hinv hanchored hc hconnected hvet _ fun hclean => by
      rw [hid]
      exact hop c hc hconnected hclean

/-- The owner of a session installs the one that was migrated. -/
lemma WithinQuota.installed (hinv : srv.Inv) {remaining : ℕ} {assigned : Bool}
    {migrated : MigratedSession} {replies : ℕ → List (Option MigratedSession)} (chance : Chance)
    (hc : srv.tasks id = some c) (hphase : c.phase = .claiming remaining assigned)
    (howned : srv.shard.Owned c.clientId c.sessionGeneration)
    (hnodup : (migrated.subscriptions.map key).Nodup)
    (hfits : 0 < srv.limits.maxSubscriptionsPerClient →
      migrated.subscriptions.length ≤ srv.limits.maxSubscriptionsPerClient) :
    (srv.finishTurn id (c.claimed env { srv.shard with claimReplies := replies } chance assigned
      (some migrated))).WithinQuota := by
  have hst := standing_claimed env c { srv.shard with claimReplies := replies } chance assigned
    (some migrated)
  have hview (k : String) :
      (c.claimed env { srv.shard with claimReplies := replies } chance assigned
        (some migrated)).shard.view k = _ :=
    view_installMigrated
      (unregisterClaim { srv.shard with claimReplies := replies } c.clientId) c.clientId k
        migrated
  generalize c.claimed env { srv.shard with claimReplies := replies } chance assigned
    (some migrated) = turn at hst hview ⊢
  have hnone : srv.shard.entries c.clientId = 0 := by
    have hold := h.counts.task id c hc
    exact (hold.owner howned).symm.trans
      (hold.blank ((hinv.sound id c hc).claiming remaining assigned hphase))
  have hentries : turn.shard.entries c.clientId = migrated.subscriptions.length := by
    have hrearmed := rearmed_rearm srv.shard.trie c.clientId migrated.subscriptions
    have hempty : srv.shard.trie.clientSubscriptions c.clientId = [] := length_eq_zero_iff.mp hnone
    rw [hempty] at hrearmed
    change (turn.shard.view c.clientId).subs.length = _
    rw [hview, if_pos rfl]
    exact (hrearmed.length_eq hnodup).trans (Nat.zero_add _)
  have hothers (k : String) (hk : k ≠ c.clientId) : turn.shard.view k = srv.shard.view k := by
    rw [hview, if_neg hk]
    rfl
  refine h.turn rfl rfl rfl (fun x g k hx hg => hinv.keepsTally hc howned (fun k => ?_)
    (fun k hk => congrArg subs (hothers k hk)) hx hg k) ?_ fun hmax k => ?_
  · rw [hview]
    split <;> rfl
  · rw [account_settle, account_of_standing hst]
    exact ⟨fun _ => hentries.symm, nofun⟩
  · by_cases hk : k = c.clientId
    · exact hk ▸ hentries.trans_le (hfits hmax)
    · exact (congrArg (fun v => v.subs.length) (hothers k hk)).trans_le (h.quota hmax k)

/-- A step of the condition keeps the counts right and the quota. -/
lemma WithinQuota.move (hmove : Move env srv op srv') (hinv : srv.Inv) (hconfig : srv.Configured)
    (hanchored : ∀ k, (srv.shard.view k).Anchored) (hop : srv.Countable op) : srv'.WithinQuota := by
  by_cases hneutral : Neutral op
  · exact h.spared hmove hinv hneutral
  · cases hmove with
    | idle => exact h
    | packet p chance hc hphase => exact h.packet hinv hconfig hanchored hc hphase hop hneutral
    | claimGoesOn chance hc =>
      exact h.unchanged hc rfl rfl rfl (fun _ => rfl) rfl (.inl ⟨rfl, rfl⟩) rfl fun h => h
    | @claimReply id _ c assigned reply rest chance hc hphase hreplies =>
      cases reply with
      | none =>
        exact h.unchanged hc rfl rfl rfl (fun _ => rfl) ((account_settle _).trans
          (account_of_standing (standing_claimed env c
            { srv.shard with claimReplies := Function.update srv.shard.claimReplies id rest } chance
            assigned none)))
          (.inl ⟨rfl, rfl⟩) rfl nofun
      | some migrated =>
        obtain ⟨howned, hnodup, hfits⟩ := hop c migrated rest hc hreplies
        exact h.installed hinv chance hc hphase howned hnodup hfits
    | load =>
      obtain ⟨htasks, hslots, hquota⟩ := hop
      refine ⟨⟨fun id c hc => (nomatch (htasks id).symm.trans hc), fun slot r hr => ?_⟩,
        hquota⟩
      rw [hslots] at hr
      exact nomatch hr
    | _ => exact absurd trivial hneutral

end

/-- The condition includes that of entries with their sessions. -/
lemma Countable.attended (h : srv.Countable op) : srv.Attended op := by
  have hsome {k : String} {g : ℕ} (howned : srv.shard.Owned k g) :
      (srv.shard.sessions.lookup k).isSome = true := by
    obtain ⟨-, session, hs, -⟩ := howned
    exact hs ▸ rfl
  cases op with
  | packet id p chance =>
    cases p with
    | subscribe => exact fun c hc hconnected => hsome (h c hc hconnected)
    | _ => exact trivial
  | claimReply id chance =>
    exact fun c migrated rest hc hreplies _ => hsome (h c migrated rest hc hreplies).1
  | _ => exact trivial

/-- In every run in which no session is resumed with subscriptions, only the owner of a session
changes them, and what is migrated or loaded is within the quota, the count of the connection that
owns a session is the number of the client's entries, and no client has more than the quota. -/
theorem subscriptions_within_quota (h₀ : srv₀.Started) (htrie : srv₀.shard.trie.stored = [])
    (hrun : Reached env Countable srv₀ srv) :
    (∀ id c, srv.tasks id = some c → srv.shard.Owned c.clientId c.sessionGeneration →
      c.subscriptionCount = (srv.shard.trie.clientSubscriptions c.clientId).length) ∧
    (∀ slot r, srv.parking.slots.lookup slot = some r →
      srv.shard.Owned r.clientId r.sessionGeneration →
      r.subscriptionCount = (srv.shard.trie.clientSubscriptions r.clientId).length) ∧
    (0 < srv.limits.maxSubscriptionsPerClient → ∀ k,
      (srv.shard.trie.clientSubscriptions k).length ≤ srv.limits.maxSubscriptionsPerClient) := by
  have hnone (k : String) : srv₀.shard.trie.clientSubscriptions k = [] := by
    rw [TopicTrie.clientSubscriptions_eq, htrie]
    rfl
  have hwithin : srv.Inv ∧ srv.Configured ∧ (∀ k, (srv.shard.view k).Anchored) ∧
    srv.WithinQuota := by
    refine Lib.Reached.inv (fun srv => srv.Inv ∧ srv.Configured ∧
      (∀ k, (srv.shard.view k).Anchored) ∧
      srv.WithinQuota) ?_ (fun srv op h hop => ?_) hrun
    · refine ⟨h₀.inv, fun id c hc => (nomatch (h₀.tasks id).symm.trans hc),
        fun k => .of_subs (hnone k),
        ⟨fun id c hc => (nomatch (h₀.tasks id).symm.trans hc), fun slot r hr => ?_⟩,
        fun _ k => ?_⟩
      · rw [h₀.slots] at hr
        exact nomatch hr
      · exact (congrArg length (hnone k)).trans_le (Nat.zero_le _)
    · obtain ⟨hinv, hconfig, hanchored, hquota⟩ := h
      have hmove := move_apply env srv op
      exact ⟨hinv.apply op, hmove.configured hconfig, hmove.anchored hop.attended hanchored,
        hquota.move hmove hinv hconfig hanchored hop⟩
  obtain ⟨-, -, -, hcounts, hquota⟩ := hwithin
  exact ⟨fun id c hc howned => (hcounts.task id c hc).owner howned,
    fun slot r hr howned => (hcounts.slot slot r hr).owner howned, hquota⟩

/-- A shard on which a client may have one subscription. -/
def frugalServer : Server := { freshServer with limits := { maxSubscriptionsPerClient := 1 } }

/-- A client connects. -/
def frugalGreeted : Server :=
  Lib.run (fun srv op => srv.apply openEnv op) frugalServer
    [.accept .none, .packet 0 (.connect { clientId := "a", cleanSession := true }) {}]

/-- The client subscribes to two filters, of which one is accepted, and its connection parks. -/
def frugalParked : Server :=
  Lib.run (fun srv op => srv.apply openEnv op) frugalGreeted
    [.packet 0 (.subscribe { pkid := 1, filters := [{ path := "t", qos := .atLeastOnce },
      { path := "u", qos := .atLeastOnce }] }) {}, .park 0 false]

theorem subscriptions_within_quota_parked :
    (frugalParked.parking.slots.lookup 0).any (fun r => r.subscriptionCount = 1) = true ∧
      (frugalParked.shard.trie.clientSubscriptions "a").length = 1 ∧
      ∀ k, (frugalParked.shard.trie.clientSubscriptions k).length ≤ 1 := by
  have hstart : frugalServer.Started := ⟨rfl, fun _ => rfl, fun _ => rfl, rfl⟩
  have hgreeted : Reached openEnv Countable frugalServer frugalGreeted :=
    Lib.Reached.start.run ⟨trivial, fun _ _ _ => nofun, trivial⟩
  have howner : (frugalGreeted.tasks 0).all (fun c => c.clientId ≠ "" ∧
      (frugalGreeted.shard.sessions.lookup c.clientId).any
        (fun session => session.generation = c.sessionGeneration)) = true := by decide
  have hrun : Reached openEnv Countable frugalServer frugalParked := by
    refine hgreeted.run ⟨fun c hc _ => ?_, trivial, trivial⟩
    rw [hc, Option.all_some, decide_eq_true_iff, Option.any_eq_true] at howner
    obtain ⟨hname, session, hs, hgen⟩ := howner
    exact ⟨hname, session, hs, of_decide_eq_true hgen⟩
  exact ⟨by decide, by decide, (subscriptions_within_quota hstart rfl hrun).2.2 (by decide)⟩

/-- A client subscribes and leaves, resumes its session, and subscribes to something else. -/
def resumedServer : Server :=
  Lib.run (fun srv op => srv.apply openEnv op) frugalServer
    [.accept .none,
      .packet 0 (.connect
        { clientId := "a", cleanSession := false
          properties := some { sessionExpiryInterval := some 60 } }) {},
      .packet 0 (.subscribe { pkid := 1, filters := [{ path := "t", qos := .atLeastOnce }] }) {},
      .hangUp 0 .eof, .close 0, .accept .none,
      .packet 1 (.connect
        { clientId := "a", cleanSession := false
          properties := some { sessionExpiryInterval := some 60 } }) {},
      .packet 1 (.subscribe { pkid := 1, filters := [{ path := "u", qos := .atLeastOnce }] }) {}]

/-- The connection that resumes counts from zero: the client then has two entries where one is
allowed. -/
theorem resumed_counts_from_zero : Reached openEnv (fun _ _ => True) frugalServer resumedServer ∧
    (resumedServer.tasks 1).any (fun c => c.clientId = "a" ∧ c.subscriptionCount = 1 ∧
      (resumedServer.shard.sessions.lookup "a").any
        (fun session => session.generation = c.sessionGeneration)) = true ∧
    (resumedServer.shard.trie.clientSubscriptions "a").length = 2 ∧
    resumedServer.limits.maxSubscriptionsPerClient = 1 :=
  ⟨Lib.reached_run frugalServer _, by decide, by decide, rfl⟩

end Server

end Rusquitto
