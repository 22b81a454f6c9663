import Mathlib.Data.List.Induction
import Rusquitto.Topics.TopicTrie

/-!
# The trie and the plain matcher agree

`TopicTrie.matching` walks the trie with `+`, `#`, parent-level `#` and first-level `$` cases;
`filterMatches` scans one filter. For every trie reached by valid insertions and removals, the walk
returns each stored subscription whose filter matches exactly once and no other
(`matching_run_perm`).
-/

namespace Rusquitto

open Lib List TopicTrie Node

variable {node : Node} {kc : String × Node} {topic : String} {trie : TopicTrie}

namespace Node

/-- The scan of `filter_matches` on a path, where `blocked` keeps a wildcard from matching the
first level. -/
def levelMatches (blocked : Bool) (path segs : List String) : Bool :=
  if blocked && (path.head? == some "+" || path.head? == some "#") then false
  else matchesLevels path segs

lemma levelMatches_false (path segs : List String) :
    levelMatches false path segs = matchesLevels path segs := rfl

/-- A wildcard edge `#` of a valid filter ends it. -/
lemma eq_nil_of_validLevels_hash {path : List String}
    (h : validLevels ("#" :: path) = true) : path = [] := by
  rw [validLevels] at h
  by_contra hne
  simp [hne] at h

lemma validLevels_of_cons {seg : String} {path : List String}
    (h : validLevels (seg :: path) = true) : validLevels path = true := by
  rw [validLevels] at h
  split_ifs at h
  exact h

/-- A node whose paths are all empty has its own subscribers as entries. -/
lemma map_snd_entries_of_nil (h : ∀ e ∈ node.entries, e.1 = []) :
    node.entries.map Prod.snd = node.subscribers := by
  obtain ⟨children, subscribers⟩ := node
  rw [entries_mk] at h ⊢
  have hbelow : (children.flatMap fun kc => kc.2.entries.map fun e => (kc.1 :: e.1, e.2)) = [] := by
    rw [eq_nil_iff_forall_not_mem]
    intro e he
    obtain ⟨kc, -, hin⟩ := mem_flatMap.mp he
    obtain ⟨e', -, rfl⟩ := mem_map.mp hin
    exact cons_ne_nil _ _ (h _ (mem_append_right _ he))
  rw [hbelow, append_nil, map_map]
  exact map_id _

/-- What the child `kc` of a node contributes to the subscriptions that match `segs`. -/
private def contribution (blocked : Bool) (segs : List String) (kc : String × Node) :
    List Subscription :=
  ((kc.2.entries.filter fun e => levelMatches blocked (kc.1 :: e.1) segs)).map Prod.snd

private lemma matching_entries_mk (blocked : Bool) (segs : List String)
    (children : List (String × Node)) (subscribers : List Subscription) :
    ((mk children subscribers).entries.filter fun e => levelMatches blocked e.1 segs).map Prod.snd =
      (if levelMatches blocked [] segs then subscribers else []) ++
        children.flatMap (contribution blocked segs) := by
  rw [entries_mk, filter_append, map_append, filter_flatMap, map_flatMap]
  congr 1
  · rw [filter_map]
    by_cases h : levelMatches blocked [] segs = true <;> simp [h, Function.comp_def]
  · refine flatMap_congr fun kc _ => ?_
    rw [contribution, filter_map, map_map]
    rfl

section Children

variable {children : List (String × Node)}
  (hvalid : ∀ kc ∈ children, ∀ e ∈ kc.2.entries, validLevels (kc.1 :: e.1) = true)

include hvalid in
private lemma entries_hash_child (hkc : kc ∈ children) (hhash : kc.1 = "#") :
    kc.2.entries.map Prod.snd = kc.2.subscribers :=
  map_snd_entries_of_nil fun e he => eq_nil_of_validLevels_hash (hhash ▸ hvalid kc hkc e he)

include hvalid in
/-- At the end of the topic only the `#` child contributes. -/
private lemma contribution_nil (hkc : kc ∈ children) :
    contribution false [] kc = if kc.1 = "#" then kc.2.subscribers else [] := by
  rw [contribution]
  split_ifs with hhash
  · rw [← entries_hash_child hvalid hkc hhash]
    simp [hhash, levelMatches_false]
  · simp [levelMatches_false, matchesLevels_cons_nil hhash]

/-- Before the end, the child of the topic's level contributes its matches below, and, unless
blocked, so does the `+` child, and the `#` child its subscribers. -/
private def parts (blocked : Bool) (seg : String) (segs : List String) (kc : String × Node) :
    List Subscription × List Subscription × List Subscription :=
  let below := (kc.2.entries.filter fun e => levelMatches false e.1 segs).map Prod.snd
  (if kc.1 = seg then below else [],
    if blocked then [] else if kc.1 = "+" then below else [],
    if blocked then [] else if kc.1 = "#" then kc.2.subscribers else [])

include hvalid in
private lemma contribution_cons (blocked : Bool) {seg : String} (hhash : seg ≠ "#")
    (hplus : seg ≠ "+") (segs : List String) (hkc : kc ∈ children) :
    contribution blocked (seg :: segs) kc = (parts blocked seg segs kc).1 ++
      ((parts blocked seg segs kc).2.1 ++ (parts blocked seg segs kc).2.2) := by
  rw [contribution, parts]
  by_cases h1 : kc.1 = "#"
  · have hsubs := entries_hash_child hvalid hkc h1
    cases blocked <;> simp [h1, levelMatches, Ne.symm hhash, hsubs]
  · by_cases h2 : kc.1 = "+"
    · cases blocked <;> simp [h2, levelMatches, Ne.symm hplus]
    · by_cases h3 : kc.1 = seg <;>
        simp [h1, h2, h3, levelMatches, matchesLevels_cons_cons, hhash, hplus]

end Children

lemma mem_entries_of_child {children : List (String × Node)} {subscribers : List Subscription}
    (hkc : kc ∈ children) {e : List String × Subscription} (he : e ∈ kc.2.entries) :
    (kc.1 :: e.1, e.2) ∈ (mk children subscribers).entries := by
  rw [entries_mk]
  exact mem_append_right _ (mem_flatMap.mpr ⟨kc, hkc, mem_map_of_mem he⟩)

/-- The walk returns the subscriptions whose path matches, each as often as it is stored. -/
lemma matchRec_perm (dollarTop : Bool) (idx : ℕ) {segs : List String} (hwf : node.WF)
    (hvalid : ∀ e ∈ node.entries, validLevels e.1 = true)
    (hsegs : ∀ seg ∈ segs, seg ≠ "#" ∧ seg ≠ "+") (hidx : idx = 0 → segs ≠ []) :
    (node.matchRec dollarTop idx segs).Perm
      ((node.entries.filter fun e => levelMatches (idx == 0 && dollarTop) e.1 segs).map
        Prod.snd) := by
  induction segs generalizing node idx with
  | nil =>
    obtain ⟨children, subscribers⟩ := node
    obtain ⟨hnd, -, -⟩ := wf_mk.mp hwf
    have hbelow : ∀ kc ∈ children, ∀ e ∈ kc.2.entries, validLevels (kc.1 :: e.1) = true :=
      fun kc hkc e he => hvalid _ (mem_entries_of_child hkc he)
    have hblocked : (idx == 0 && dollarTop) = false := by
      have hne : idx ≠ 0 := fun h => hidx h rfl
      simp [hne]
    have hhash : children.flatMap (contribution false []) =
        ((children.lookup "#").map Node.subscribers).getD [] := by
      rw [flatMap_congr fun kc hkc => contribution_nil hbelow hkc]
      rw [Assoc.flatMap_eq_lookup (k := "#") hnd fun kc _ hne => if_neg hne]
      simp
    rw [hblocked, matching_entries_mk, hhash]
    exact Perm.refl _
  | cons seg segs ih =>
    obtain ⟨children, subscribers⟩ := node
    obtain ⟨hnd, -, hchildren⟩ := wf_mk.mp hwf
    obtain ⟨⟨hhash, hplus⟩, hsegs⟩ := forall_mem_cons.mp hsegs
    have hbelow : ∀ kc ∈ children, ∀ e ∈ kc.2.entries, validLevels (kc.1 :: e.1) = true :=
      fun kc hkc e he => hvalid _ (mem_entries_of_child hkc he)
    -- the matches below the child at a key are those of the walk there
    have hwalk : ∀ key, (((children.lookup key).map
          (matchRec dollarTop (idx + 1) segs)).getD []).Perm
        (((children.lookup key).map fun child =>
          (child.entries.filter fun e => levelMatches false e.1 segs).map Prod.snd).getD []) := by
      intro key
      cases hlook : children.lookup key with
      | none => exact Perm.refl _
      | some child =>
        have hmem := Assoc.mem_of_lookup hlook
        exact ih (idx + 1) (hchildren _ hmem).2.2
          (fun e he => validLevels_of_cons (hbelow _ hmem e he)) hsegs (fun h => by simp at h)
    generalize hblocked : (idx == 0 && dollarTop) = blocked
    have hseg : children.flatMap (fun kc => (parts blocked seg segs kc).1) =
        ((children.lookup seg).map fun child =>
          (child.entries.filter fun e => levelMatches false e.1 segs).map Prod.snd).getD [] := by
      rw [Assoc.flatMap_eq_lookup (k := seg) hnd fun kc _ hne => by simp [parts, hne]]
      simp [parts]
    rw [matching_entries_mk, matchRec, hblocked]
    have hhere : levelMatches blocked [] (seg :: segs) = false := by
      simp [levelMatches, matchesLevels]
    rw [hhere, flatMap_congr fun kc hkc => contribution_cons hbelow blocked hhash hplus segs hkc]
    refine Perm.trans ?_ (flatMap_append_perm _ _ _)
    refine Perm.append ((hwalk seg).trans (hseg ▸ Perm.refl _)) ?_
    refine Perm.trans ?_ (flatMap_append_perm _ _ _)
    cases blocked with
    | true => simp [parts]
    | false =>
      have hone : children.flatMap (fun kc => (parts false seg segs kc).2.1) =
          ((children.lookup "+").map fun child =>
            (child.entries.filter fun e => levelMatches false e.1 segs).map Prod.snd).getD [] := by
        rw [Assoc.flatMap_eq_lookup (k := "+") hnd fun kc _ hne => by simp [parts, hne]]
        simp [parts]
      have hmany : children.flatMap (fun kc => (parts false seg segs kc).2.2) =
          ((children.lookup "#").map Node.subscribers).getD [] := by
        rw [Assoc.flatMap_eq_lookup (k := "#") hnd fun kc _ hne => by simp [parts, hne]]
        simp [parts]
      rw [hone, hmany]
      exact (hwalk "+").append_right _

end Node

/-! ## The whole trie -/

lemma level_ne_wildcard_of_concreteTopic {l : String} (h : ConcreteTopic topic)
    (hl : l ∈ levels topic) : l ≠ "#" ∧ l ≠ "+" := by
  have hmem := fun {c : Char} (hc : c ∈ l.toList) => Lib.mem_toList_of_mem_splitOnChar hl hc
  constructor
  · rintro rfl
    exact contains_eq_false_iff.mp h.2 (hmem (by decide))
  · rintro rfl
    exact contains_eq_false_iff.mp h.1 (hmem (by decide))

/-- The scan of a valid filter's levels is `filterMatches`. -/
lemma levelMatches_levels {filter : String} (hvalid : validSubscribeFilter filter = true)
    (topic : String) : levelMatches (startsWith topic '$') (levels filter) (levels topic) =
      filterMatches filter topic := by
  obtain ⟨l, ls, hl⟩ := levels_eq_cons filter
  have hwild : startsWithWildcard filter = ((levels filter).head? == some "+" ||
      (levels filter).head? == some "#") := by
    rw [Bool.eq_iff_iff, startsWithWildcard_iff hvalid hl, hl]
    simp
  rw [levelMatches, filterMatches, hwild]

/-- The walk of a trie with valid filters returns each stored subscription whose filter matches
the topic once. -/
lemma TopicTrie.matching_perm (trie : TopicTrie)
    (hvalid : ∀ x ∈ trie.stored, validSubscribeFilter x.1 = true) (htopic : ConcreteTopic topic) :
    (trie.matching topic).Perm
      ((trie.stored.filter fun x => filterMatches x.1 topic).map Prod.snd) := by
  have hentry : ∀ e ∈ trie.root.entries, validSubscribeFilter (joinLevels e.1) = true :=
    fun e he => hvalid _ (mem_map_of_mem he)
  obtain ⟨l, ls, hl⟩ := levels_eq_cons topic
  have hdollar : (levels topic).head?.any (fun s => startsWith s '$') = startsWith topic '$' := by
    rw [startsWith_eq_of_levels (by decide) hl, hl]
    rfl
  have hwalk := matchRec_perm (startsWith topic '$') 0 trie.wf
    (fun e he => levels_joinLevels_of_mem_entries he ▸
      validLevels_of_validSubscribeFilter (hentry e he))
    (fun _ h => level_ne_wildcard_of_concreteTopic htopic h) fun _ => levels_ne_nil topic
  rw [matching, hdollar]
  refine hwalk.trans (Perm.of_eq ?_)
  rw [stored, filter_map, map_map]
  refine congrArg _ (filter_congr fun e he => ?_)
  have hscan := levelMatches_levels (hentry e he) topic
  rw [levels_joinLevels_of_mem_entries he] at hscan
  exact hscan

lemma TopicTrie.mem_matching_iff (hvalid : ∀ x ∈ trie.stored, validSubscribeFilter x.1 = true)
    (htopic : ConcreteTopic topic) {sub : Subscription} : sub ∈ trie.matching topic ↔
      ∃ filter, (filter, sub) ∈ trie.stored ∧ filterMatches filter topic = true := by
  rw [(trie.matching_perm hvalid htopic).mem_iff, mem_map]
  constructor
  · rintro ⟨x, hx, rfl⟩
    exact ⟨x.1, mem_filter.mp hx⟩
  · rintro ⟨filter, hx⟩
    exact ⟨_, mem_filter.mpr hx, rfl⟩

/-- Whatever the topic, a subscription that matches it is a stored one. -/
lemma Node.exists_subscribersAt_of_matchRec {dollarTop : Bool} {idx : ℕ} {segs : List String}
    {s : Subscription} (h : s ∈ node.matchRec dollarTop idx segs) :
    ∃ path, s ∈ node.subscribersAt path := by
  -- a match below a child is a match below the node
  have hchild {node child : Node} {seg : String} (hchild : node.child? seg = some child)
      (path : List String) (hs : s ∈ child.subscribersAt path) :
      ∃ path, s ∈ node.subscribersAt path := by
    refine ⟨seg :: path, ?_⟩
    rw [subscribersAt, hchild]
    exact hs
  have hhash {node : Node} (hs : s ∈ ((node.child? "#").map subscribers).getD []) :
      ∃ path, s ∈ node.subscribersAt path := by
    cases hlookup : node.child? "#" with
    | none => simp [hlookup] at hs
    | some child =>
      rw [hlookup] at hs
      exact hchild hlookup [] hs
  induction segs generalizing node idx with
  | nil =>
    rcases mem_append.mp h with h | h
    · exact ⟨[], h⟩
    · exact hhash h
  | cons seg segs ih =>
    have hbelow {seg : String}
        (hs : s ∈ ((node.child? seg).map (matchRec dollarTop (idx + 1) segs)).getD []) :
        ∃ path, s ∈ node.subscribersAt path := by
      cases hlookup : node.child? seg with
      | none => simp [hlookup] at hs
      | some child =>
        rw [hlookup] at hs
        obtain ⟨path, hpath⟩ := ih hs
        exact hchild hlookup path hpath
    rcases mem_append.mp h with h | h
    · exact hbelow h
    · split at h
      · exact (mem_append.mp h).elim hbelow hhash
      · exact absurd h not_mem_nil

lemma TopicTrie.exists_stored_of_mem_matching {s : Subscription} (h : s ∈ trie.matching topic) :
    ∃ filter, (filter, s) ∈ trie.stored := by
  obtain ⟨path, hpath⟩ := exists_subscribersAt_of_matchRec h
  have hentry := (mem_entries_iff trie.wf).mpr hpath
  exact ⟨joinLevels path, mem_map.mpr ⟨_, hentry, rfl⟩⟩

/-! ## Runs of trie operations -/

/-- An operation on a trie. -/
inductive TrieOp where
  | insert (filter clientId : String) (opts : SubOptions)
  | remove (filter clientId : String) (shareGroup : Option String)
  | removeClient (clientId : String)
  | takeClient (clientId : String)

namespace TrieOp

/-- Only filters that SUBSCRIBE accepts are inserted. -/
def Valid : TrieOp → Prop
  | insert filter _ _ => validSubscribeFilter filter = true
  | _ => True

instance : DecidablePred Valid
  | insert filter _ _ => inferInstanceAs (Decidable (validSubscribeFilter filter = true))
  | remove .. => isTrue trivial
  | removeClient .. => isTrue trivial
  | takeClient .. => isTrue trivial

/-- The operation on the trie. -/
def apply (trie : TopicTrie) : TrieOp → TopicTrie
  | insert filter clientId opts => (trie.insert filter clientId opts).1
  | remove filter clientId shareGroup => (trie.remove filter clientId shareGroup).1
  | removeClient clientId => trie.removeClient clientId
  | takeClient clientId => (trie.takeClient clientId).1

/-- The operation on a plain list of filters with their subscriptions. -/
def applyTable (table : List (String × Subscription)) : TrieOp → List (String × Subscription)
  | insert filter clientId opts =>
    table.filter (fun x => !(x.1 == filter && x.2.same clientId opts.shareGroup)) ++
      [(filter, opts.subscription clientId)]
  | remove filter clientId shareGroup =>
    table.filter fun x => !(x.1 == filter && x.2.same clientId shareGroup)
  | removeClient clientId => table.filter fun x => x.2.clientId != clientId
  | takeClient clientId => table.filter fun x => x.2.clientId != clientId

/-- The trie reached from empty by a sequence of operations. -/
def run (ops : List TrieOp) : TopicTrie := ops.foldl apply .empty

/-- The table that the same operations leave. -/
def runTable (ops : List TrieOp) : List (String × Subscription) := ops.foldl applyTable []

/-- One operation keeps trie and table in agreement. -/
lemma stored_apply_perm (op : TrieOp) {table : List (String × Subscription)}
    (h : trie.stored.Perm table) : (apply trie op).stored.Perm (applyTable table op) := by
  cases op with
  | insert filter clientId opts =>
    exact (trie.stored_insert_perm filter clientId opts).trans ((h.filter _).append_right _)
  | remove filter clientId shareGroup =>
    rw [apply, applyTable, stored_remove]
    exact h.filter _
  | removeClient clientId =>
    rw [apply, applyTable, stored_removeClient]
    exact h.filter _
  | takeClient clientId =>
    rw [apply, applyTable, takeClient_eq, stored_removeClient]
    exact h.filter _

/-- One valid operation keeps the filters of a table valid. -/
lemma valid_applyTable {op : TrieOp} (hop : op.Valid) {table : List (String × Subscription)}
    (h : ∀ x ∈ table, validSubscribeFilter x.1 = true) :
    ∀ x ∈ applyTable table op, validSubscribeFilter x.1 = true := by
  intro x hx
  cases op with
  | insert filter clientId opts =>
    rcases mem_append.mp hx with hx | hx
    · exact h x (mem_of_mem_filter hx)
    · rw [mem_singleton.mp hx]
      exact hop
  | remove filter clientId shareGroup => exact h x (mem_of_mem_filter hx)
  | removeClient clientId => exact h x (mem_of_mem_filter hx)
  | takeClient clientId => exact h x (mem_of_mem_filter hx)

/-- A run of operations keeps trie and table in agreement. -/
lemma stored_run_perm (ops : List TrieOp) : (run ops).stored.Perm (runTable ops) := by
  rw [run, runTable]
  induction ops using reverseRecOn with
  | nil => exact Perm.refl _
  | append_singleton ops op ih =>
    rw [foldl_append, foldl_append]
    exact stored_apply_perm op ih

lemma valid_runTable {ops : List TrieOp} (hops : ∀ op ∈ ops, op.Valid) :
    ∀ x ∈ runTable ops, validSubscribeFilter x.1 = true := by
  rw [runTable]
  induction ops using reverseRecOn with
  | nil => simp
  | append_singleton ops op ih =>
    rw [foldl_append]
    exact valid_applyTable (hops op (by simp)) (ih fun op' h => hops op' (by simp [h]))

end TrieOp

/-- `retained_matching`: the retained messages whose topic matches a subscription filter. -/
def retainedMatching (retained : List Publish) (filter : String) : List Publish :=
  retained.filter fun p => filterMatches filter p.topic

/-- The trie and the plain matcher agree. After any sequence of operations with valid filters, the
stored table has one entry for each filter, client and group; a topic without wildcards matches
exactly the stored subscriptions whose filter matches it, each once, also when a retained message is
replayed. -/
theorem matching_run_perm {ops : List TrieOp} (hops : ∀ op ∈ ops, op.Valid) {topic : String}
    (htopic : ConcreteTopic topic) :
    ((TrieOp.runTable ops).map fun x => (x.1, x.2.clientId, x.2.shareGroup)).Nodup ∧
      ((TrieOp.run ops).matching topic).Perm
        (((TrieOp.runTable ops).filter fun x => filterMatches x.1 topic).map Prod.snd) ∧
      ∀ retained : List Publish, ∀ p ∈ retained, p.topic = topic →
        ((TrieOp.run ops).matching topic).Perm
          (((TrieOp.runTable ops).filter fun x => decide (p ∈ retainedMatching retained x.1)).map
            Prod.snd) := by
  have hstored := TrieOp.stored_run_perm ops
  have hmatch : ((TrieOp.run ops).matching topic).Perm
      (((TrieOp.runTable ops).filter fun x => filterMatches x.1 topic).map Prod.snd) := by
    refine (TopicTrie.matching_perm _ ?_ htopic).trans ((hstored.filter _).map _)
    exact fun x hx => TrieOp.valid_runTable hops x (hstored.mem_iff.mp hx)
  refine ⟨((hstored.map _).nodup_iff).mp (TopicTrie.nodup_stored _), hmatch, ?_⟩
  intro retained p hp htopic'
  have hreplay : ∀ filter, decide (p ∈ retainedMatching retained filter) =
      filterMatches filter topic := by
    intro filter
    simp [retainedMatching, hp, htopic']
  simpa only [hreplay] using hmatch

/-- Three subscriptions with overlapping wildcards, and an unsubscribe that removes nothing. -/
def overlapOps : List TrieOp :=
  [.insert "a/+" "c" { qos := .atLeastOnce }, .insert "#" "d" { qos := .atMostOnce },
    .insert "$SYS/#" "c" { qos := .atMostOnce }, .remove "a/b" "c" none]

/-- The topic `a/b` reaches the two subscriptions outside `$SYS`. -/
theorem matching_run_overlap : ((TrieOp.run overlapOps).matching "a/b").Perm
      [{ qos := .atLeastOnce : SubOptions }.subscription "c",
        { qos := .atMostOnce : SubOptions }.subscription "d"] := by
  have h := (matching_run_perm (show ∀ op ∈ overlapOps, op.Valid by decide)
    (show ConcreteTopic "a/b" by decide)).2.1
  exact h.trans (Perm.of_eq (by decide))

end Rusquitto
