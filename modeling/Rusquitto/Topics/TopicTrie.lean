import Rusquitto.Topics.Trie

/-!
# The trie as a table of subscriptions

`TopicTrie` packs a root node with its well-formedness, so that every trie the broker can build
is one. `stored` is what a trie holds: a list of filters with their subscriptions, at most one for
each filter, client and group. Each operation is described by what it does to `stored`, and the
later modules only use these descriptions.
-/

namespace Rusquitto

open List Node Subscription

/-- A topic trie. A filter has at least one level, so no subscription ends at the root. -/
structure TopicTrie where
  root : Node
  wf : root.WF
  root_subscribers : root.subscribers = []

namespace TopicTrie

/-- The empty trie. -/
def empty : TopicTrie := ⟨.empty, Node.wf_empty, rfl⟩

instance : Inhabited TopicTrie := ⟨empty⟩

/-- Inserts or refreshes a subscription for `filter`: an entry of the same client and share group
is replaced. Returns `true` if this was a new subscription. -/
def insert (trie : TopicTrie) (filter clientId : String) (opts : SubOptions) :
    TopicTrie × Bool :=
  ({ root := trie.root.insert (opts.subscription clientId) (levels filter)
     wf := Node.wf_insert _ (fun _ h => slash_notMem_of_mem_levels h) trie.wf
     root_subscribers := by
      obtain ⟨seg, segs, h⟩ := levels_eq_cons filter
      obtain ⟨⟨children, subscribers⟩, hwf, hroot⟩ := trie
      rw [h]
      exact hroot },
    !(trie.root.subscribersAt (levels filter)).any fun s => s.same clientId opts.shareGroup)

/-- Removes a single subscription. `shareGroup` selects the ordinary or the shared entry. Returns
whether an entry was actually removed. -/
def remove (trie : TopicTrie) (filter clientId : String) (shareGroup : Option String) :
    TopicTrie × Bool :=
  let result := trie.root.removeRec clientId shareGroup (levels filter)
  ({ root := result.1
     wf := Node.wf_removeRec _ _ _ trie.wf
     root_subscribers := by
      obtain ⟨seg, segs, h⟩ := levels_eq_cons filter
      obtain ⟨⟨children, subscribers⟩, hwf, hroot⟩ := trie
      simp only [result, h, Node.removeRec]
      split <;> exact hroot },
    result.2)

/-- Removes every subscription belonging to a client. -/
def removeClient (trie : TopicTrie) (clientId : String) : TopicTrie where
  root := trie.root.removeClientRec clientId
  wf := Node.wf_removeClientRec _ trie.wf
  root_subscribers := by
    obtain ⟨⟨children, subscribers⟩, hwf, hroot⟩ := trie
    have hsubs : subscribers = [] := hroot
    simp [Node.removeClientRec, Node.subscribers, hsubs]

/-- Removes every subscription belonging to a client and returns them. -/
def takeClient (trie : TopicTrie) (clientId : String) : TopicTrie × List FlatSub :=
  let result := trie.root.takeClientRec clientId []
  ({ root := result.1
     wf := by
      simp only [result, Node.takeClientRec_eq]
      exact (trie.removeClient clientId).wf
     root_subscribers := by
      simp only [result, Node.takeClientRec_eq]
      exact (trie.removeClient clientId).root_subscribers },
    result.2)

/-- A client's subscriptions, which stay in the trie. -/
def clientSubscriptions (trie : TopicTrie) (clientId : String) : List FlatSub :=
  trie.root.collectClientRec clientId []

/-- Every subscription whose filter matches the concrete `topic`. -/
def matching (trie : TopicTrie) (topic : String) : List Subscription :=
  let segments := levels topic
  let dollarTop := segments.head?.any fun s => startsWith s '$'
  trie.root.matchRec dollarTop 0 segments

/-- What the trie holds: each subscription with its filter. -/
def stored (trie : TopicTrie) : List (String × Subscription) :=
  trie.root.entries.map fun e => (joinLevels e.1, e.2)

/-! ## What the operations do to the table -/

variable (trie : TopicTrie)

/-- Splitting the filter of a stored subscription gives back its path. -/
lemma levels_joinLevels_of_mem_entries {trie : TopicTrie} {e : List String × Subscription}
    (he : e ∈ trie.root.entries) : levels (joinLevels e.1) = e.1 := by
  refine levels_joinLevels (slash_notMem_of_mem_entries trie.wf he) ?_
  intro hnil
  have hmem := (mem_entries_iff trie.wf).mp (hnil ▸ he : ([], e.2) ∈ trie.root.entries)
  rw [subscribersAt, trie.root_subscribers] at hmem
  exact not_mem_nil hmem

lemma mem_stored_iff {filter : String} {s : Subscription} :
    (filter, s) ∈ trie.stored ↔ s ∈ trie.root.subscribersAt (levels filter) := by
  rw [stored, mem_map, ← mem_entries_iff trie.wf]
  constructor
  · rintro ⟨e, he, heq⟩
    simp only [Prod.mk.injEq] at heq
    rw [← heq.1, ← heq.2, levels_joinLevels_of_mem_entries he]
    exact he
  · intro h
    exact ⟨_, h, by rw [joinLevels_levels]⟩

/-- At most one stored subscription for each filter, client and group. -/
lemma nodup_stored : (trie.stored.map fun x => (x.1, x.2.clientId, x.2.shareGroup)).Nodup := by
  rw [stored, map_map]
  have hkeys := nodup_entries trie.wf
  refine Nodup.of_map (fun k => (levels k.1, k.2)) ?_
  rw [map_map]
  refine (map_congr_left fun e he => ?_) ▸ hkeys
  simp [levels_joinLevels_of_mem_entries he]

@[simp]
lemma stored_empty : empty.stored = [] := rfl

/-- A new entry replaces the one of the same filter, client and group. -/
lemma mem_stored_insert {filter clientId : String} {opts : SubOptions}
    {x : String × Subscription} : x ∈ (trie.insert filter clientId opts).1.stored ↔
      (x ∈ trie.stored ∧ ¬(x.1 = filter ∧ x.2.same clientId opts.shareGroup = true)) ∨
        x = (filter, opts.subscription clientId) := by
  obtain ⟨filter', s⟩ := x
  rw [mem_stored_iff, mem_stored_iff, insert, subscribersAt_insert]
  by_cases hfilter : filter' = filter
  · simp [hfilter, SubOptions.subscription]
  · have hlevels : levels filter' ≠ levels filter := by
      intro h
      exact hfilter (by rw [← joinLevels_levels filter', h, joinLevels_levels])
    simp [hfilter, hlevels]

section

variable (filter clientId : String)

lemma stored_insert_perm (opts : SubOptions) : (trie.insert filter clientId opts).1.stored.Perm
      (trie.stored.filter (fun x => !(x.1 == filter && x.2.same clientId opts.shareGroup)) ++
        [(filter, opts.subscription clientId)]) := by
  have hnd := fun trie : TopicTrie => Nodup.of_map _ trie.nodup_stored
  refine (perm_ext_iff_of_nodup (hnd _) ?_).mpr fun x => ?_
  · rw [nodup_append]
    refine ⟨(hnd trie).filter _, nodup_singleton _, ?_⟩
    rintro x hx y hy rfl
    rw [mem_singleton] at hy
    simp [hy, same, SubOptions.subscription] at hx
  · rw [mem_stored_insert, mem_append, mem_filter, mem_singleton]
    simp [imp_iff_not_or]

/-- An unsubscribe deletes the entry of the filter, client and group. -/
lemma stored_remove (group : Option String) : (trie.remove filter clientId group).1.stored =
      trie.stored.filter fun x => !(x.1 == filter && x.2.same clientId group) := by
  rw [stored, stored, remove, entries_removeRec _ _ _ trie.wf, filter_map]
  refine congrArg _ (filter_congr fun e he => ?_)
  have hpath : (e.1 == levels filter) = (joinLevels e.1 == filter) := by
    rw [Bool.eq_iff_iff, beq_iff_eq, beq_iff_eq]
    constructor
    · intro h
      rw [h, joinLevels_levels]
    · intro h
      rw [← h, levels_joinLevels_of_mem_entries he]
  simp [hpath]

/-- The result of `insert` is whether no entry of the filter, client and group was there. -/
lemma insert_snd_eq_false_iff (opts : SubOptions) : (trie.insert filter clientId opts).2 = false ↔
      ∃ s, (filter, s) ∈ trie.stored ∧ s.same clientId opts.shareGroup = true := by
  simp only [insert, Bool.not_eq_false', any_eq_true, mem_stored_iff]

/-- The result of `remove` is whether an entry of the filter, client and group was there. -/
lemma remove_snd_eq_true_iff (group : Option String) :
    (trie.remove filter clientId group).2 = true ↔
      ∃ s, (filter, s) ∈ trie.stored ∧ s.same clientId group = true := by
  simp only [remove, removeRec_snd, any_eq_true, mem_stored_iff]

end

lemma stored_removeClient (clientId : String) : (trie.removeClient clientId).stored =
      trie.stored.filter fun x => x.2.clientId != clientId := by
  rw [stored, stored, removeClient, entries_removeClientRec, filter_map]
  rfl

lemma takeClient_eq (clientId : String) : trie.takeClient clientId =
      (trie.removeClient clientId, trie.clientSubscriptions clientId) := by
  rw [takeClient]
  simp only [takeClientRec_eq]
  rfl

lemma clientSubscriptions_eq (clientId : String) : trie.clientSubscriptions clientId =
      (trie.stored.filter fun x => x.2.clientId == clientId).map fun x => x.2.flat x.1 := by
  rw [clientSubscriptions, collectClientRec_eq, stored, filter_map, map_map]
  rfl

/-! ### The subscriptions of one client -/

variable {clientId other : String}

/-- An insertion for one client leaves the list of another client as it is. -/
lemma clientSubscriptions_insert_of_ne (hne : other ≠ clientId) (filter : String)
    (opts : SubOptions) : (trie.insert filter clientId opts).1.clientSubscriptions other =
      trie.clientSubscriptions other := by
  have hother : ∀ s : Subscription, s.same (opts.subscription clientId).clientId
      (opts.subscription clientId).shareGroup = true → (s.clientId == other) = false := by
    intro s hsame
    simp only [same, SubOptions.subscription, Bool.and_eq_true, beq_iff_eq] at hsame
    simpa [hsame.1] using Ne.symm hne
  rw [clientSubscriptions, clientSubscriptions, collectClientRec_eq, collectClientRec_eq]
  exact congrArg _ (filter_entries_insert hother (levels filter) trie.wf)

lemma clientSubscriptions_remove_of_ne (hne : other ≠ clientId) (filter : String)
    (group : Option String) : (trie.remove filter clientId group).1.clientSubscriptions other =
      trie.clientSubscriptions other := by
  rw [clientSubscriptions_eq, clientSubscriptions_eq, stored_remove, filter_filter]
  refine congrArg _ (filter_congr fun x _ => ?_)
  by_cases hx : x.2.clientId = other
  · simp [hx, same, hne]
  · simp [hx]

lemma clientSubscriptions_removeClient_of_ne (hne : other ≠ clientId) :
    (trie.removeClient clientId).clientSubscriptions other = trie.clientSubscriptions other := by
  rw [clientSubscriptions_eq, clientSubscriptions_eq, stored_removeClient, filter_filter]
  refine congrArg _ (filter_congr fun x _ => ?_)
  by_cases hx : x.2.clientId = other
  · simp [hx, hne]
  · simp [hx]

/-- The subscriptions of a client after it subscribes once more. -/
lemma clientSubscriptions_insert_self_perm (filter c : String) (opts : SubOptions) :
    ((trie.insert filter c opts).1.clientSubscriptions c).Perm
      ((trie.clientSubscriptions c).filter (fun sub => sub.key ≠ (filter, opts.shareGroup)) ++
        [(opts.subscription c).flat filter]) := by
  rw [clientSubscriptions_eq, clientSubscriptions_eq]
  have hperm := ((trie.stored_insert_perm filter c opts).filter
    (fun x => x.2.clientId == c)).map fun x => x.2.flat x.1
  refine hperm.trans (.of_eq ?_)
  rw [filter_append, map_append, filter_map, filter_filter, filter_filter]
  congr 1
  · refine congrArg _ (filter_congr fun x _ => ?_)
    -- an entry of this client is replaced exactly when filter and group agree
    by_cases hc : x.2.clientId = c <;> by_cases hf : x.1 = filter <;>
      by_cases hg : x.2.shareGroup = opts.shareGroup <;>
      simp [hc, hf, hg, same, FlatSub.key, flat]
  · simp [SubOptions.subscription]

/-- The subscriptions of a client after it unsubscribes. -/
lemma clientSubscriptions_remove_self (filter c : String) (group : Option String) :
    (trie.remove filter c group).1.clientSubscriptions c =
      (trie.clientSubscriptions c).filter fun sub => sub.key ≠ (filter, group) := by
  rw [clientSubscriptions_eq, clientSubscriptions_eq, stored_remove, filter_map,
    filter_filter, filter_filter]
  refine congrArg _ (filter_congr fun x _ => ?_)
  by_cases hc : x.2.clientId = c <;> by_cases hf : x.1 = filter <;>
    by_cases hg : x.2.shareGroup = group <;>
    simp [hc, hf, hg, same, FlatSub.key, flat]

lemma nodup_clientSubscriptions (c : String) :
    ((trie.clientSubscriptions c).map FlatSub.key).Nodup := by
  rw [clientSubscriptions_eq, map_map]
  have hnd := trie.nodup_stored
  rw [nodup_map_iff_inj_on (Nodup.of_map _ hnd)] at hnd
  refine (nodup_map_iff_inj_on ((Nodup.of_map _ trie.nodup_stored).filter _)).mpr ?_
  intro x hx y hy hxy
  obtain ⟨hx, hxc⟩ := mem_filter.mp hx
  obtain ⟨hy, hyc⟩ := mem_filter.mp hy
  have hkey : x.1 = y.1 ∧ x.2.shareGroup = y.2.shareGroup := Prod.ext_iff.mp hxy
  refine hnd x hx y hy ?_
  rw [hkey.1, hkey.2, beq_iff_eq.mp hxc, beq_iff_eq.mp hyc]

@[simp]
lemma clientSubscriptions_removeClient_self :
    (trie.removeClient clientId).clientSubscriptions clientId = [] := by
  rw [clientSubscriptions_eq, stored_removeClient, filter_filter, map_eq_nil_iff,
    filter_eq_nil_iff]
  simp

end TopicTrie

end Rusquitto
