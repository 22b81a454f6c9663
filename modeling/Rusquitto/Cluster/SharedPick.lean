import Rusquitto.Broker.Fanout
import Rusquitto.Lib.HashPick

/-!
# One recipient per shared group

Every shard picks alone, by the content hash, from its own connected candidates with a matching
filter and its view of the members elsewhere, which does not know their filters. With exact views
the shards agree when the connected members are on one shard, or all hold a matching filter
(`shared_delivery_exactly_once`).
-/

namespace Rusquitto

open Lib.HashPick ShardState List

namespace ShardState

/-! ### The members of a group -/

/-- The clients that are connected or parked here and hold a subscription of the group whose filter
satisfies `accepts`. -/
def connected (s : ShardState) (group : String) (accepts : String → Bool) : Finset String :=
  s.sessions.keys.toFinset.filter fun c =>
    (s.sessions.lookup c).any (·.online) ∧
      ∃ sub ∈ s.trie.clientSubscriptions c, sub.shareGroup = some group ∧ accepts sub.filter

/-- All connected members of a group. -/
abbrev members (s : ShardState) (group : String) : Finset String :=
  s.connected group fun _ => true

/-- The connected members with a filter that matches the topic. -/
abbrev matchingMembers (s : ShardState) (group topic : String) : Finset String :=
  s.connected group fun filter => filterMatches filter topic

variable {c : String}

lemma mem_connected {s : ShardState} {group : String} {accepts : String → Bool} :
    c ∈ s.connected group accepts ↔ (s.sessions.lookup c).any (·.online) ∧
        ∃ sub ∈ s.trie.clientSubscriptions c, sub.shareGroup = some group ∧ accepts sub.filter := by
  rw [connected, Finset.mem_filter, mem_toFinset, and_iff_right_iff_imp]
  rintro ⟨honline, -⟩
  -- A connected client has a session here.
  rw [← AList.mem_keys, ← AList.lookup_isSome]
  cases h : s.sessions.lookup c with
  | none => rw [h] at honline; cases honline
  | some _ => rfl

lemma matchingMembers_subset (s : ShardState) (group topic : String) :
    s.matchingMembers group topic ⊆ s.members group := by
  intro c hc
  rw [mem_connected] at hc ⊢
  obtain ⟨honline, sub, hsub, hgroup, -⟩ := hc
  exact ⟨honline, sub, hsub, hgroup, rfl⟩

/-- Every filter in the trie is one that SUBSCRIBE accepts. -/
def ValidFilters (s : ShardState) : Prop :=
  ∀ x ∈ s.trie.stored, validSubscribeFilter x.1 = true

instance (s : ShardState) : Decidable s.ValidFilters :=
  inferInstanceAs (Decidable (∀ x ∈ s.trie.stored, validSubscribeFilter x.1 = true))

/-- The candidates of a group are the clients that hold a subscription of it with a matching
filter. -/
lemma mem_groupMembers_iff {s : ShardState} (hvalid : s.ValidFilters) {topic : String}
    (htopic : ConcreteTopic topic) (group c : String) : c ∈ s.groupMembers topic group ↔
      ∃ sub ∈ s.trie.clientSubscriptions c,
        sub.shareGroup = some group ∧ filterMatches sub.filter topic := by
  rw [mem_groupMembers, TopicTrie.clientSubscriptions_eq]
  simp only [(s.trie.matching_perm hvalid htopic).mem_iff, mem_map, mem_filter,
    beq_iff_eq]
  constructor
  · rintro ⟨sub, ⟨x, ⟨hx, hmatch⟩, rfl⟩, hgroup, rfl⟩
    exact ⟨_, ⟨x, ⟨hx, rfl⟩, rfl⟩, hgroup, hmatch⟩
  · rintro ⟨sub, ⟨x, ⟨hx, rfl⟩, rfl⟩, hgroup, hmatch⟩
    exact ⟨x.2, ⟨x, ⟨hx, hmatch⟩, rfl⟩, hgroup, rfl⟩

lemma mem_onlineMembers {s : ShardState} {bucket : HashMap String Match} :
    c ∈ s.onlineMembers bucket ↔ c ∈ bucket ∧ (s.sessions.lookup c).any (·.online) := by
  rw [onlineMembers, mem_filter, mem_insertionSort, AList.mem_keys]

lemma onlineMembers_groupMembers {s : ShardState} (hvalid : s.ValidFilters) {topic : String}
    (htopic : ConcreteTopic topic) (group : String) :
    (s.onlineMembers (s.groupMembers topic group)).toFinset = s.matchingMembers group topic := by
  ext c
  rw [mem_toFinset, mem_onlineMembers, mem_groupMembers_iff hvalid htopic, mem_connected,
    and_comm]

/-! ### The pick -/

/-- The list the source sorts and strips of duplicates is the sorted set. -/
lemma dedup_insertionSort_eq_sort (l : List String) :
    (l.insertionSort (· ≤ ·)).dedup = l.toFinset.sort (· ≤ ·) := by
  have hset : l.toFinset = (l.insertionSort (· ≤ ·)).dedup.toFinset := by
    ext c
    simp
  rw [hset]
  symm
  rw [toFinset_sort (· ≤ ·) (nodup_dedup _)]
  exact (pairwise_insertionSort (· ≤ ·) l).sublist (dedup_sublist _)

/-- The content hash of a publish. -/
def contentHash (hash : ContentHash) (publish : Publish) : ℕ :=
  (hash (asBytes publish.topic ++ publish.payload)).toNat

lemma globalPick_eq_some_iff (hash : ContentHash) (publish : Publish)
    (online remote : List String) (c : String) : globalPick hash publish online remote = some c ↔
      c ∈ online ∧ pick (online.toFinset ∪ remote.toFinset) (contentHash hash publish) =
        some c := by
  have hall : ((online ++ remote).insertionSort (· ≤ ·)).dedup =
      (online.toFinset ∪ remote.toFinset).sort (· ≤ ·) := by
    rw [dedup_insertionSort_eq_sort, toFinset_append]
  have hchoice : globalPick hash publish online remote =
      online.find? fun id =>
        some id = pick (online.toFinset ∪ remote.toFinset) (contentHash hash publish) := by
    simp only [globalPick, hall, Finset.length_sort]
    rfl
  rw [hchoice]
  constructor
  · intro h
    have hc := find?_some h
    simp only [decide_eq_true_eq] at hc
    exact ⟨mem_of_find?_eq_some h, hc.symm⟩
  · rintro ⟨hmem, hpick⟩
    cases hfind : online.find? fun id =>
        some id = pick (online.toFinset ∪ remote.toFinset) (contentHash hash publish) with
    | none =>
      have hnone := find?_eq_none.mp hfind c hmem
      simp [hpick] at hnone
    | some c' =>
      have hc' := find?_some hfind
      simpa [hpick] using hc'

variable {s : ShardState} {hash : ContentHash} {publish : Publish} {publisher : Option String}
  {group : String}

/-- A client is handed a delivery for a group by this shard. -/
def Handed (s : ShardState) (hash : ContentHash) (publish : Publish) (publisher : Option String)
    (group c : String) : Prop :=
  ∃ d, (some group, c, d) ∈ s.publishHandovers hash publish publisher

section

variable (hvalid : s.ValidFilters) (htopic : ConcreteTopic publish.topic)
include hvalid htopic

/-- With members elsewhere, the shard delivers if the pick from the merged list is its own. -/
lemma handed_iff_of_remote {remote : List String} (hremote : s.remoteMembers group = some remote)
    (c : String) : s.Handed hash publish publisher group c ↔
      c ∈ s.matchingMembers group publish.topic ∧
        pick (s.matchingMembers group publish.topic ∪ remote.toFinset)
          (contentHash hash publish) = some c := by
  have honline := onlineMembers_groupMembers hvalid htopic group
  rw [Handed, mem_publishHandovers_group, pickMember, hremote]
  rw [globalPick_eq_some_iff, honline, ← honline, mem_toFinset]
  refine and_iff_right_of_imp ?_
  rintro ⟨hc, -⟩
  exact (mem_onlineMembers.mp hc).1

/-- Without members elsewhere, the shard delivers to one of its connected candidates. -/
lemma exists_handed_of_local (hremote : s.remoteMembers group = none)
    (hne : (s.matchingMembers group publish.topic).Nonempty) :
    ∃ c ∈ s.matchingMembers group publish.topic,
      ∀ c', s.Handed hash publish publisher group c' ↔ c' = c := by
  have honline := onlineMembers_groupMembers hvalid htopic group
  set online := s.onlineMembers (s.groupMembers publish.topic group) with hon
  have hnil : online ≠ [] := by
    rintro hnil
    rw [← honline, hnil] at hne
    exact Finset.not_nonempty_empty hne
  have hlt : s.cursorOf group % online.length < online.length :=
    Nat.mod_lt _ (length_pos_iff.mpr hnil)
  have hpick : s.pickMember hash publish group (s.groupMembers publish.topic group) =
      some online[s.cursorOf group % online.length] := by
    rw [pickMember, hremote]
    simp only [localPick]
    rw [← hon, if_neg hnil]
    exact getElem?_eq_getElem hlt
  have hmem : online[s.cursorOf group % online.length] ∈ online := getElem_mem hlt
  refine ⟨_, honline ▸ mem_toFinset.mpr hmem, fun c' => ?_⟩
  rw [Handed, mem_publishHandovers_group, hpick, Option.some.injEq, eq_comm]
  refine and_iff_right_of_imp ?_
  rintro rfl
  exact (mem_onlineMembers.mp hmem).1

end

end ShardState

/-! ### A cluster with exact views -/

section Cluster

variable {ι : Type*} (shards : ι → ShardState)

/-- Every shard's view of every group is the set of connected members on the other shards. -/
def ExactViews : Prop :=
  ∀ i group c, c ∈ ((shards i).sharedRemote.lookup group).getD [] ↔
    ∃ j, j ≠ i ∧ c ∈ (shards j).members group

variable {shards} {hash : ContentHash} {publish : Publish} {publisher : ι → Option String}
  {group : String}

/-- The view of a shard is consulted exactly when there are connected members elsewhere. -/
lemma ExactViews.remoteMembers (hviews : ExactViews shards) (i : ι) (group : String) :
    ((shards i).remoteMembers group = none ∧ ∀ j ≠ i, (shards j).members group = ∅) ∨
      ∃ remote, (shards i).remoteMembers group = some remote ∧
        (∃ j ≠ i, ((shards j).members group).Nonempty) ∧
        ∀ c, c ∈ remote ↔ ∃ j, j ≠ i ∧ c ∈ (shards j).members group := by
  have hview := hviews i group
  rw [ShardState.remoteMembers]
  generalize (shards i).sharedRemote.lookup group = view at hview
  rcases hnil : view.getD [] with _ | ⟨c, cs⟩
  · left
    refine ⟨?_, fun j hj => Finset.eq_empty_of_forall_notMem fun c hc => ?_⟩
    · cases view with
      | none => rfl
      | some remote =>
        rw [Option.getD_some] at hnil
        simp [hnil]
    · have hmem := (hview c).mpr ⟨j, hj, hc⟩
      rw [hnil] at hmem
      exact not_mem_nil hmem
  · right
    cases view with
    | none => cases hnil
    | some remote =>
      rw [Option.getD_some] at hnil hview
      obtain ⟨j, hj, hc⟩ := (hview c).mp (hnil ▸ mem_cons_self)
      exact ⟨remote, by simp [hnil], ⟨j, hj, c, hc⟩, hview⟩

/-- The connected members of a group are all on one shard. -/
def OneShard (shards : ι → ShardState) (group : String) : Prop :=
  ∃ i, ∀ j ≠ i, (shards j).members group = ∅

/-- Every connected member of a group holds a filter of it that matches the topic. -/
def AllMatch (shards : ι → ShardState) (group topic : String) : Prop :=
  ∀ i, (shards i).members group ⊆ (shards i).matchingMembers group topic

section

variable (hviews : ExactViews shards) (hvalid : ∀ i, (shards i).ValidFilters)
  (htopic : ConcreteTopic publish.topic)
  (hmember : ∃ i, ((shards i).matchingMembers group publish.topic).Nonempty)
include hviews hvalid htopic hmember

/-- Whoever is handed a delivery is connected on that shard with a matching filter of the group. -/
lemma mem_matchingMembers_of_handed {i : ι}
    (h : (shards i).Handed hash publish (publisher i) group c) :
    c ∈ (shards i).matchingMembers group publish.topic := by
  obtain ⟨k, hk⟩ := hmember
  rcases hviews.remoteMembers i group with ⟨hremote, hempty⟩ | ⟨remote, hremote, -, -⟩
  · -- Nobody elsewhere: the connected candidate is here, so the pool is not the suspended ones.
    have hki : k = i := by
      by_contra hne
      obtain ⟨c', hc'⟩ := hk
      have hc' := (shards k).matchingMembers_subset group _ hc'
      rw [hempty k hne] at hc'
      exact Finset.notMem_empty c' hc'
    subst hki
    obtain ⟨c', hc', honly⟩ := exists_handed_of_local (hvalid k) htopic hremote hk
    rw [(honly c).mp h]
    exact hc'
  · exact ((handed_iff_of_remote (hvalid i) htopic hremote c).mp h).1

lemma existsUnique_handed_of_oneShard (hone : OneShard shards group) :
    ∃! c, ∃ i, (shards i).Handed hash publish (publisher i) group c := by
  have hmatching : ∀ i c, (shards i).Handed hash publish (publisher i) group c →
      c ∈ (shards i).members group := fun i c h =>
    (shards i).matchingMembers_subset _ _
      (mem_matchingMembers_of_handed hviews hvalid htopic hmember h)
  obtain ⟨i, hempty⟩ := hone
  have hhere : ∀ k c, c ∈ (shards k).members group → k = i := by
    intro k c hc
    by_contra hne
    rw [hempty k hne] at hc
    exact Finset.notMem_empty c hc
  -- The member the premise speaks of is on the one shard, which therefore picks locally.
  obtain ⟨k, c₀, hc₀⟩ := hmember
  obtain rfl := hhere k c₀ ((shards k).matchingMembers_subset _ _ hc₀)
  have hremote : (shards k).remoteMembers group = none := by
    rcases hviews.remoteMembers k group with ⟨hremote, -⟩ | ⟨_, -, ⟨j, hj, c, hc⟩, -⟩
    · exact hremote
    · exact absurd (hhere j c hc) hj
  obtain ⟨c, -, honly⟩ := exists_handed_of_local (hvalid k) htopic hremote ⟨c₀, hc₀⟩
  refine ⟨c, ⟨k, (honly c).mpr rfl⟩, ?_⟩
  rintro c' ⟨j, hj⟩
  obtain rfl := hhere j c' (hmatching j c' hj)
  exact (honly c').mp hj

/-- Shards that know the same members name the same one. -/
lemma existsUnique_handed_of_allMatch (hall : AllMatch shards group publish.topic) :
    ∃! c, ∃ i, (shards i).Handed hash publish (publisher i) group c := by
  by_cases hone : OneShard shards group
  · exact existsUnique_handed_of_oneShard hviews hvalid htopic hmember hone
  have hremote : ∀ i, ∃ remote, (shards i).remoteMembers group = some remote ∧
      ∀ c, c ∈ remote ↔ ∃ j, j ≠ i ∧ c ∈ (shards j).members group := by
    intro i
    rcases hviews.remoteMembers i group with ⟨-, hempty⟩ | ⟨remote, hremote, -, hmem⟩
    · exact absurd ⟨i, hempty⟩ hone
    · exact ⟨remote, hremote, hmem⟩
  choose remote hremote hmem using hremote
  -- Each shard merges to the set of all connected members.
  have hset : ∀ i c, c ∈ (shards i).matchingMembers group publish.topic ∪ (remote i).toFinset ↔
      ∃ j, c ∈ (shards j).members group := by
    intro i c
    rw [Finset.mem_union, mem_toFinset, hmem]
    constructor
    · rintro (hc | ⟨j, -, hc⟩)
      · exact ⟨i, (shards i).matchingMembers_subset _ _ hc⟩
      · exact ⟨j, hc⟩
    · rintro ⟨j, hc⟩
      by_cases hj : j = i
      · exact .inl (hall i (hj ▸ hc))
      · exact .inr ⟨j, hj, hc⟩
  have hsame : ∀ i j, (shards i).matchingMembers group publish.topic ∪ (remote i).toFinset =
      (shards j).matchingMembers group publish.topic ∪ (remote j).toFinset := by
    intro i j
    ext c
    rw [hset, hset]
  obtain ⟨k, c₀, hc₀⟩ := hmember
  obtain ⟨c, hc, hpick⟩ := exists_pick ⟨c₀, Finset.mem_union_left (remote k).toFinset hc₀⟩
    (contentHash hash publish)
  obtain ⟨j, hj⟩ := (hset k c).mp hc
  refine ⟨c, ⟨j, ?_⟩, ?_⟩
  · rw [handed_iff_of_remote (hvalid j) htopic (hremote j), hsame j k]
    exact ⟨hall j hj, hpick⟩
  · rintro c' ⟨i, hi⟩
    rw [handed_iff_of_remote (hvalid i) htopic (hremote i), hsame i k, hpick] at hi
    exact (Option.some.inj hi.2).symm

omit hmember in
/-- Otherwise the shards' lists differ, and for some content hash nobody is handed a delivery. -/
lemma exists_hash_unhanded [Fintype ι]
    (hdisj : Pairwise fun i j => Disjoint ((shards i).members group) ((shards j).members group))
    (hsize : (∑ i, ((shards i).members group).card) ^ 3 < 2 ^ 64)
    (hone : ¬ OneShard shards group) (hall : ¬ AllMatch shards group publish.topic) :
    ∃ hash, ∀ i c, ¬ (shards i).Handed hash publish (publisher i) group c := by
  classical
  obtain ⟨i₀, hi₀⟩ := not_forall.mp hall
  have hremote : ∀ i, ∃ remote, (shards i).remoteMembers group = some remote ∧
      (∃ j ≠ i, ((shards j).members group).Nonempty) ∧
      ∀ c, c ∈ remote ↔ ∃ j, j ≠ i ∧ c ∈ (shards j).members group := by
    intro i
    rcases hviews.remoteMembers i group with ⟨-, hempty⟩ | h
    · exact absurd ⟨i, hempty⟩ hone
    · exact h
  choose remote hremote hother hmem using hremote
  obtain ⟨h, hlt, hunpicked⟩ := exists_unpicked hdisj
    (fun i => (shards i).matchingMembers_subset group publish.topic)
    (fun h => hi₀ h.symm.subset) (hother i₀) hsize
  refine ⟨fun _ => UInt64.ofNat h, fun i c hc => ?_⟩
  have hhash : contentHash (fun _ => UInt64.ofNat h) publish = h := by
    rw [contentHash, UInt64.toNat_ofNat_of_lt' hlt]
  have hmerged : (shards i).matchingMembers group publish.topic ∪ (remote i).toFinset =
      merged (fun i => (shards i).members group)
        (fun i => (shards i).matchingMembers group publish.topic) i := by
    ext c
    simp only [merged, Finset.mem_union, mem_toFinset, hmem, Finset.mem_biUnion,
      Finset.mem_erase, Finset.mem_univ, and_true]
  rw [handed_iff_of_remote (hvalid i) htopic (hremote i), hhash, hmerged] at hc
  exact hunpicked i c hc.1 hc.2

end

variable (publish publisher group) in
/-- Shards with exact views that process one publish each: whoever is handed a delivery for a group
holds a matching filter of it. Whatever the content hash, exactly one client is handed one if the
connected members are on one shard or all hold a matching filter, and only then. -/
theorem shared_delivery_exactly_once [Fintype ι] (hviews : ExactViews shards)
    (hvalid : ∀ i, (shards i).ValidFilters) (htopic : ConcreteTopic publish.topic)
    (hmember : ∃ i, ((shards i).matchingMembers group publish.topic).Nonempty) :
    (∀ hash i c, (shards i).Handed hash publish (publisher i) group c →
      c ∈ (shards i).matchingMembers group publish.topic) ∧
    (OneShard shards group ∨ AllMatch shards group publish.topic →
      ∀ hash, ∃! c, ∃ i, (shards i).Handed hash publish (publisher i) group c) ∧
    ((Pairwise fun i j => Disjoint ((shards i).members group) ((shards j).members group)) →
      (∑ i, ((shards i).members group).card) ^ 3 < 2 ^ 64 →
      (∀ hash, ∃! c, ∃ i, (shards i).Handed hash publish (publisher i) group c) →
      OneShard shards group ∨ AllMatch shards group publish.topic) := by
  refine ⟨fun hash i c h => mem_matchingMembers_of_handed hviews hvalid htopic hmember h, ?_, ?_⟩
  · rintro (hone | hall) hash
    · exact existsUnique_handed_of_oneShard hviews hvalid htopic hmember hone
    · exact existsUnique_handed_of_allMatch hviews hvalid htopic hmember hall
  · intro hdisj hsize hexactly
    by_contra hcond
    rw [not_or] at hcond
    obtain ⟨hash, hnobody⟩ :=
      exists_hash_unhanded hviews hvalid htopic hdisj hsize hcond.1 hcond.2
    obtain ⟨c, ⟨i, hi⟩, -⟩ := hexactly hash
    exact hnobody i c hi

end Cluster

/-! ### Two shards with one member each -/

/-- A shard with one connected client, which subscribes to the given (group, filter) pairs and has
heard that `other` joined the same groups elsewhere. -/
def pairShard (c other : String) (subs : List (String × String)) : ShardState :=
  let s := (({} : ShardState).openSession c 0 true).1
  let s := subs.foldl (fun s x =>
    (s.subscribe x.2 c { qos := .atLeastOnce, shareGroup := some x.1 }).1) s
  subs.foldl (fun s x => s.applySharedEvent (.join x.1 other)) s

/-- Clients `x` and `y`, each on a shard of its own. -/
def pair (xs ys : List (String × String)) : Bool → ShardState
  | false => pairShard "x" "y" xs
  | true => pairShard "y" "x" ys

lemma ShardState.mem_members_of_keys {s : ShardState} (hkeys : s.sessions.keys = [c])
    (honline : (s.sessions.lookup c).any (·.online)) (group c' : String) : c' ∈ s.members group ↔
      c' = c ∧ some group ∈ (s.trie.clientSubscriptions c).map FlatSub.shareGroup := by
  rw [mem_connected]
  constructor
  · rintro ⟨hon, sub, hsub, hgroup, -⟩
    have hmem : c' ∈ s.sessions.keys := by
      rw [← AList.mem_keys, ← AList.lookup_isSome]
      exact Option.isSome_of_any hon
    rw [hkeys, mem_singleton] at hmem
    subst hmem
    exact ⟨rfl, mem_map.mpr ⟨sub, hsub, hgroup⟩⟩
  · rintro ⟨rfl, hgroup⟩
    obtain ⟨sub, hsub, hgroup⟩ := mem_map.mp hgroup
    exact ⟨honline, sub, hsub, hgroup, rfl⟩

/-- Two shards with one connected client each have exact views if each has heard of the other's
groups. -/
lemma exactViews_of_two {shards : Bool → ShardState} (client : Bool → String)
    (groups : Bool → List (Option String)) (hkeys : ∀ b, (shards b).sessions.keys = [client b])
    (honline : ∀ b, ((shards b).sessions.lookup (client b)).any (·.online))
    (hgroups : ∀ b, ((shards b).trie.clientSubscriptions (client b)).map FlatSub.shareGroup =
      groups b) (hview : ∀ b group c, c ∈ ((shards b).sharedRemote.lookup group).getD [] ↔
      c = client (!b) ∧ some group ∈ groups (!b)) : ExactViews shards := by
  intro b group c
  rw [hview, Bool.exists_bool]
  simp only [mem_members_of_keys (hkeys _) (honline _), hgroups]
  cases b <;> simp

/-- The client of each shard of a pair. -/
def pairClient : Bool → String
  | false => "x"
  | true => "y"

/-- A publish on `a`. -/
def onA : Publish := { topic := "a", qos := .atLeastOnce, payload := [] }

/-- Two members of one group, with the same filter. -/
def aligned : Bool → ShardState :=
  pair [("g", "a")] [("g", "a")]

lemma exactViews_aligned : ExactViews aligned := by
  refine exactViews_of_two pairClient (fun _ => [some "g"]) (by decide) (by decide) (by decide)
    fun b group c => ?_
  have hremote : (aligned b).sharedRemote =
      (∅ : HashMap String (List String)).insert "g" [pairClient !b] := by
    cases b <;> rfl
  rw [hremote, AList.lookup_insert_eq_ite]
  by_cases h : group = "g" <;> simp [h]

theorem shared_delivery_exactly_once_aligned :
    ∃! c, ∃ b, (aligned b).Handed (fun _ => 0) onA none "g" c :=
  (shared_delivery_exactly_once onA (fun _ => none) "g" exactViews_aligned (by decide) (by decide)
    (by decide)).2.1
    (.inr (show ∀ b, (aligned b).members "g" ⊆ (aligned b).matchingMembers "g" "a" by decide)) _

/-- Members of two groups whose filters are crossed: in `g1` the filter of `x` matches the topic
`a`, in `g2` that of `y`. -/
def crossed : Bool → ShardState :=
  pair [("g1", "a"), ("g2", "b")] [("g1", "b"), ("g2", "a")]

lemma exactViews_crossed : ExactViews crossed := by
  refine exactViews_of_two pairClient (fun _ => [some "g1", some "g2"]) (by decide) (by decide)
    (by decide) fun b group c => ?_
  have hremote : (crossed b).sharedRemote =
      ((∅ : HashMap String (List String)).insert "g1" [pairClient !b]).insert "g2"
        [pairClient !b] := by
    cases b <;> rfl
  rw [hremote, AList.lookup_insert_eq_ite, AList.lookup_insert_eq_ite]
  by_cases h₁ : group = "g1" <;> by_cases h₂ : group = "g2" <;> simp [h₁, h₂]

/-- The shards of `crossed` pick from the same two members in both groups, so the pick falls on the
wrong one in one of them: whatever the content hash, one of the two groups with a connected and
matching member has no recipient anywhere. -/
theorem shared_delivery_misses_group :
    ExactViews crossed ∧ (∀ b, (crossed b).ValidFilters) ∧ ConcreteTopic onA.topic ∧
      (∀ group ∈ ["g1", "g2"], ∃ b, ((crossed b).matchingMembers group onA.topic).Nonempty) ∧
      ∀ hash, ∃ group ∈ ["g1", "g2"], ∀ b c, ¬ (crossed b).Handed hash onA none group c := by
  have hvalid : ∀ b, (crossed b).ValidFilters := by decide
  have hremote : ∀ b, ∀ group ∈ ["g1", "g2"],
      (crossed b).remoteMembers group = some [pairClient !b] := by decide
  refine ⟨exactViews_crossed, hvalid, by decide, by decide, fun hash => ?_⟩
  have hhanded : ∀ b, ∀ group ∈ ["g1", "g2"], ∀ c, (crossed b).Handed hash onA none group c →
      c ∈ (crossed b).matchingMembers group onA.topic ∧
        pick ((crossed b).matchingMembers group onA.topic ∪ {pairClient !b})
          (contentHash hash onA) = some c := by
    intro b group hgroup c h
    exact (handed_iff_of_remote (hvalid b) (by decide) (hremote b group hgroup) c).mp h
  -- The set both shards pick from is the same, and the pick is `x` or it is not.
  have hx : (crossed false).matchingMembers "g1" onA.topic = {"x"} := by decide
  have hy : (crossed true).matchingMembers "g2" onA.topic = {"y"} := by decide
  by_cases hpick : pick {"x", "y"} (contentHash hash onA) = some "x"
  · refine ⟨"g2", by decide, ?_⟩
    rintro (_ | _) c h
    · exact absurd (hhanded _ _ (by decide) _ h).1
        (Finset.eq_empty_iff_forall_notMem.mp (by decide) c)
    · obtain ⟨hc, hc'⟩ := hhanded _ _ (by decide) _ h
      rw [hy, Finset.mem_singleton] at hc
      rw [hy, Finset.union_comm, hc] at hc'
      exact absurd (Option.some.inj (hpick.symm.trans hc')) (by decide)
  · refine ⟨"g1", by decide, ?_⟩
    rintro (_ | _) c h
    · obtain ⟨hc, hc'⟩ := hhanded _ _ (by decide) _ h
      rw [hx, Finset.mem_singleton] at hc
      rw [hx, hc] at hc'
      exact hpick hc'
    · exact absurd (hhanded _ _ (by decide) _ h).1
        (Finset.eq_empty_iff_forall_notMem.mp (by decide) c)

end Rusquitto
