import Mathlib.Data.Set.Finite.Lemmas
import Rusquitto.Lib.Machine
import Rusquitto.Topics.Matching

/-!
# The trie as a finite map

What the trie is for, without its tree: a finite map from a filter, any string, a client and a share
group to the options granted (`TopicTrie.flatMap`). Each operation of the trie does to this map what
its name says and answers what the map answers (`TrieCall.spec_exec`).
-/

namespace Rusquitto

open List

/-- What a subscription is filed under. -/
structure SubKey where
  filter : String
  clientId : String
  shareGroup : Option String
  deriving DecidableEq

/-- The options of a subscription that are not part of its key. -/
structure Granted where
  qos : QoS
  nolocal : Bool
  retainAsPublished : Bool
  subId : Option ℕ
  deriving DecidableEq

/-- The options a SUBSCRIBE asks to be filed. -/
def SubOptions.granted (opts : SubOptions) : Granted :=
  ⟨opts.qos, opts.nolocal, opts.retainAsPublished, opts.subId⟩

/-- The options of a stored subscription. -/
def Subscription.granted (s : Subscription) : Granted :=
  ⟨s.qos, s.nolocal, s.retainAsPublished, s.subId⟩

/-- The key of a subscription stored under `filter`. -/
def Subscription.key (s : Subscription) (filter : String) : SubKey :=
  ⟨filter, s.clientId, s.shareGroup⟩

/-- The options of a flattened subscription. -/
def FlatSub.granted (f : FlatSub) : Granted :=
  ⟨f.qos, f.nolocal, f.retainAsPublished, f.subId⟩

/-- The key of a flattened subscription of `clientId`. -/
def FlatSub.subKey (f : FlatSub) (clientId : String) : SubKey :=
  ⟨f.filter, clientId, f.shareGroup⟩

/-- A finite map from keys to options. -/
@[ext]
structure FlatMap where
  get : SubKey → Option Granted
  finite : {key | get key ≠ none}.Finite

namespace FlatMap

/-- The map without entries. -/
def empty : FlatMap := ⟨fun _ => none, by simp⟩

/-- Sets one key. -/
def set (map : FlatMap) (key : SubKey) (granted : Granted) : FlatMap where
  get := Function.update map.get key (some granted)
  finite := by
    refine (map.finite.insert key).subset fun other hother => ?_
    by_cases h : other = key
    · exact .inl h
    · rw [Set.mem_ofPred_eq, Function.update_of_ne h] at hother
      exact .inr hother

/-- Keeps the entries whose key satisfies `p`. -/
def keep (map : FlatMap) (p : SubKey → Bool) : FlatMap where
  get key := if p key then map.get key else none
  finite := map.finite.subset fun key hkey h => hkey (by rw [h, ite_self])

/-- Deletes one key. -/
def erase (map : FlatMap) (key : SubKey) : FlatMap := map.keep (· != key)

/-- Deletes the keys of one client. -/
def eraseClient (map : FlatMap) (clientId : String) : FlatMap := map.keep (·.clientId != clientId)

/-- The list holds each entry of the client once, and nothing else. -/
def Lists (map : FlatMap) (clientId : String) (list : List FlatSub) : Prop :=
  (list.map (·.subKey clientId)).Nodup ∧ ∀ f, f ∈ list ↔ map.get (f.subKey clientId) =
    some f.granted

end FlatMap

/-- An operation on a trie together with the read that changes nothing. -/
inductive TrieCall where
  | update (op : TrieOp)
  | clientSubscriptions (clientId : String)

/-- What a trie operation returns. -/
inductive TrieAnswer where
  | unit
  | flag (b : Bool)
  | entries (list : List FlatSub)

namespace TrieCall

/-- The operation on the trie with what it returns. -/
def exec (trie : TopicTrie) : TrieCall → TopicTrie × TrieAnswer
  | update (.insert filter clientId opts) =>
    ((trie.insert filter clientId opts).1, .flag (trie.insert filter clientId opts).2)
  | update (.remove filter clientId shareGroup) =>
    ((trie.remove filter clientId shareGroup).1, .flag (trie.remove filter clientId shareGroup).2)
  | update (.removeClient clientId) => (trie.removeClient clientId, .unit)
  | update (.takeClient clientId) =>
    ((trie.takeClient clientId).1, .entries (trie.takeClient clientId).2)
  | clientSubscriptions clientId => (trie, .entries (trie.clientSubscriptions clientId))

/-- What the operation does to a flat map and returns. -/
def Spec (map : FlatMap) : TrieCall → TrieAnswer → FlatMap → Prop
  | update (.insert filter clientId opts), answer, map' =>
    let key : SubKey := ⟨filter, clientId, opts.shareGroup⟩
    -- `true` exactly when the key was absent
    answer = .flag (map.get key).isNone ∧ map' = map.set key opts.granted
  | update (.remove filter clientId shareGroup), answer, map' =>
    let key : SubKey := ⟨filter, clientId, shareGroup⟩
    -- `true` exactly when the key was present
    answer = .flag (map.get key).isSome ∧ map' = map.erase key
  | update (.removeClient clientId), answer, map' =>
    answer = .unit ∧ map' = map.eraseClient clientId
  | update (.takeClient clientId), answer, map' =>
    (∃ list, answer = .entries list ∧ map.Lists clientId list) ∧ map' = map.eraseClient clientId
  | clientSubscriptions clientId, answer, map' =>
    (∃ list, answer = .entries list ∧ map.Lists clientId list) ∧ map' = map

end TrieCall

namespace TopicTrie

variable (trie : TopicTrie) {key : SubKey}

/-- The options filed under a key. -/
def granted (key : SubKey) : Option Granted :=
  (trie.stored.find? fun x => x.2.key x.1 == key).map (·.2.granted)

/-- A key has the options of the one stored subscription that is filed under it. -/
lemma granted_eq_some_iff {granted : Granted} : trie.granted key = some granted ↔
      ∃ x ∈ trie.stored, x.2.key x.1 = key ∧ x.2.granted = granted := by
  rw [TopicTrie.granted, Option.map_eq_some_iff]
  constructor
  · rintro ⟨x, hfind, hgranted⟩
    exact ⟨x, mem_of_find?_eq_some hfind, by simpa using find?_some hfind, hgranted⟩
  · rintro ⟨x, hx, hkey, hgranted⟩
    cases hfind : trie.stored.find? fun x => x.2.key x.1 == key with
    | none => exact absurd hkey (by simpa using find?_eq_none.mp hfind x hx)
    | some y =>
      -- the key determines the stored entry
      have hkeys : (y.1, y.2.clientId, y.2.shareGroup) = (x.1, x.2.clientId, x.2.shareGroup) := by
        have hy : y.2.key y.1 = x.2.key x.1 := by
          rw [hkey]
          simpa using find?_some hfind
        simpa [Subscription.key] using hy
      have hyx : y = x := inj_on_of_nodup_map trie.nodup_stored
        (mem_of_find?_eq_some hfind) hx hkeys
      exact ⟨y, rfl, hyx ▸ hgranted⟩

lemma granted_ne_none_iff : trie.granted key ≠ none ↔ ∃ x ∈ trie.stored, x.2.key x.1 = key := by
  rw [Option.ne_none_iff_exists']
  constructor
  · rintro ⟨granted, h⟩
    obtain ⟨x, hx, hkey, -⟩ := (trie.granted_eq_some_iff).mp h
    exact ⟨x, hx, hkey⟩
  · rintro ⟨x, hx, hkey⟩
    exact ⟨_, (trie.granted_eq_some_iff).mpr ⟨x, hx, hkey, rfl⟩⟩

/-- The map that a trie represents. -/
def flatMap : FlatMap where
  get := trie.granted
  finite := by
    refine ((trie.stored.map fun x => x.2.key x.1).finite_toSet).subset fun key hkey => ?_
    obtain ⟨x, hx, rfl⟩ := (trie.granted_ne_none_iff).mp hkey
    exact mem_map.mpr ⟨x, hx, rfl⟩

lemma get_flatMap_eq_some_iff {granted : Granted} : trie.flatMap.get key = some granted ↔
      ∃ x ∈ trie.stored, x.2.key x.1 = key ∧ x.2.granted = granted :=
  trie.granted_eq_some_iff

/-- Two maps with the same entries are one. -/
lemma flatMap_eq_of_entries {map : FlatMap} (h : ∀ key granted, map.get key = some granted ↔
      ∃ x ∈ trie.stored, x.2.key x.1 = key ∧ x.2.granted = granted) : trie.flatMap = map := by
  ext key granted
  rw [get_flatMap_eq_some_iff, h]

lemma flatMap_empty : empty.flatMap = .empty := by
  refine empty.flatMap_eq_of_entries fun key granted => ?_
  simp [FlatMap.empty]

/-- The entry `same` recognises is the one filed under the key. -/
lemma same_iff_key {x : String × Subscription} {filter clientId : String}
    {group : Option String} :
    (x.1 = filter ∧ x.2.same clientId group = true) ↔ x.2.key x.1 = ⟨filter, clientId, group⟩ := by
  simp [Subscription.same, Subscription.key]

lemma flatMap_insert (filter clientId : String) (opts : SubOptions) :
    (trie.insert filter clientId opts).1.flatMap =
      trie.flatMap.set ⟨filter, clientId, opts.shareGroup⟩ opts.granted := by
  refine flatMap_eq_of_entries _ fun key granted => ?_
  simp only [FlatMap.set, Function.update_apply, mem_stored_insert, same_iff_key]
  by_cases hkey : key = ⟨filter, clientId, opts.shareGroup⟩
  · -- the key set: only the new entry is filed under it
    rw [if_pos hkey, Option.some.injEq]
    constructor
    · intro h
      exact ⟨_, .inr rfl, hkey.symm, h⟩
    · rintro ⟨x, ⟨-, hne⟩ | rfl, hx, hgranted⟩
      · exact absurd (hx.trans hkey) hne
      · exact hgranted
  · rw [if_neg hkey, get_flatMap_eq_some_iff]
    constructor
    · rintro ⟨x, hx, hxkey, hgranted⟩
      exact ⟨x, .inl ⟨hx, hxkey ▸ hkey⟩, hxkey, hgranted⟩
    · rintro ⟨x, ⟨hx, -⟩ | rfl, hxkey, hgranted⟩
      · exact ⟨x, hx, hxkey, hgranted⟩
      · exact absurd hxkey.symm hkey

/-- A trie that stores what another one stores under the keys with `p` represents its map cut
down to these keys. -/
lemma flatMap_eq_keep {trie trie' : TopicTrie} {p : SubKey → Bool}
    (h : ∀ x, x ∈ trie'.stored ↔ x ∈ trie.stored ∧ p (x.2.key x.1) = true) :
    trie'.flatMap = trie.flatMap.keep p := by
  refine flatMap_eq_of_entries _ fun key granted => ?_
  simp only [FlatMap.keep, Option.ite_none_right_eq_some, get_flatMap_eq_some_iff, h]
  constructor
  · rintro ⟨hp, x, hx, hkey, hgranted⟩
    exact ⟨x, ⟨hx, hkey ▸ hp⟩, hkey, hgranted⟩
  · rintro ⟨x, ⟨hx, hp⟩, hkey, hgranted⟩
    exact ⟨hkey ▸ hp, x, hx, hkey, hgranted⟩

lemma flatMap_remove (filter clientId : String) (group : Option String) :
    (trie.remove filter clientId group).1.flatMap =
      trie.flatMap.erase ⟨filter, clientId, group⟩ := by
  refine flatMap_eq_keep fun x => ?_
  rw [stored_remove, mem_filter, bne_iff_ne, ne_eq, ← same_iff_key]
  simp [imp_iff_not_or]

lemma flatMap_removeClient (clientId : String) :
    (trie.removeClient clientId).flatMap = trie.flatMap.eraseClient clientId := by
  refine flatMap_eq_keep fun x => ?_
  rw [stored_removeClient, mem_filter]
  rfl

lemma exists_same_iff_granted {filter clientId : String} {group : Option String} :
    (∃ s, (filter, s) ∈ trie.stored ∧ s.same clientId group = true) ↔
      trie.flatMap.get ⟨filter, clientId, group⟩ ≠ none := by
  rw [flatMap, granted_ne_none_iff]
  constructor
  · rintro ⟨s, hs, hsame⟩
    exact ⟨_, hs, same_iff_key.mp ⟨rfl, hsame⟩⟩
  · rintro ⟨x, hx, hkey⟩
    obtain ⟨rfl, hsame⟩ := same_iff_key.mpr hkey
    exact ⟨x.2, hx, hsame⟩

/-- The subscriptions read off for a client are its entries, each once. -/
lemma lists_clientSubscriptions (clientId : String) :
    trie.flatMap.Lists clientId (trie.clientSubscriptions clientId) := by
  constructor
  · -- among the entries of one client filter and group tell them apart
    have hkeys := (trie.nodup_clientSubscriptions clientId).map
      (f := fun key : String × Option String => (⟨key.1, clientId, key.2⟩ : SubKey)) fun a b h => by
        simpa [Prod.ext_iff] using h
    rwa [map_map] at hkeys
  · intro f
    rw [clientSubscriptions_eq, mem_map, get_flatMap_eq_some_iff]
    constructor
    · rintro ⟨x, hx, rfl⟩
      obtain ⟨hx, hclient⟩ := mem_filter.mp hx
      refine ⟨x, hx, ?_, rfl⟩
      rw [← beq_iff_eq.mp hclient]
      rfl
    · rintro ⟨x, hx, hkey, hgranted⟩
      simp only [Subscription.key, FlatSub.subKey, SubKey.mk.injEq] at hkey
      simp only [Subscription.granted, FlatSub.granted, Granted.mk.injEq] at hgranted
      refine ⟨x, mem_filter.mpr ⟨hx, by simp [hkey]⟩, ?_⟩
      obtain ⟨filter, qos, nolocal, rap, group, subId⟩ := f
      simp_all [Subscription.flat]

end TopicTrie

namespace TrieCall

/-- One operation does to the represented map, and answers, what the specification says. -/
lemma spec_exec (trie : TopicTrie) (call : TrieCall) :
    Spec trie.flatMap call (call.exec trie).2 (call.exec trie).1.flatMap := by
  match call with
  | update (.insert filter clientId opts) =>
    refine ⟨congrArg TrieAnswer.flag ?_, trie.flatMap_insert filter clientId opts⟩
    have h := (trie.insert_snd_eq_false_iff filter clientId opts).trans trie.exists_same_iff_granted
    rw [← Bool.not_eq_true, ← not_iff_not, not_not] at h
    rw [Bool.eq_iff_iff, h, Option.isNone_iff_eq_none, not_not]
  | update (.remove filter clientId shareGroup) =>
    refine ⟨congrArg TrieAnswer.flag ?_, trie.flatMap_remove filter clientId shareGroup⟩
    have h := (trie.remove_snd_eq_true_iff filter clientId shareGroup).trans
      trie.exists_same_iff_granted
    rw [Bool.eq_iff_iff, h, Option.isSome_iff_ne_none]
  | update (.removeClient clientId) => exact ⟨rfl, trie.flatMap_removeClient clientId⟩
  | update (.takeClient clientId) =>
    rw [exec, TopicTrie.takeClient_eq]
    exact ⟨⟨_, rfl, trie.lists_clientSubscriptions clientId⟩, trie.flatMap_removeClient clientId⟩
  | clientSubscriptions clientId =>
    exact ⟨⟨_, rfl, trie.lists_clientSubscriptions clientId⟩, rfl⟩

end TrieCall

/-- The trie refines a flat map. Every sequence of operations on the empty trie, with any filters,
is a run of a finite map from filter, client and group to options that gives the same answers, and
the trie represents the map this run ends in. -/
theorem TopicTrie.trace_allowed (calls : List TrieCall) :
    Lib.Allows TrieCall.Spec .empty (Lib.trace TrieCall.exec .empty calls).2
      (Lib.trace TrieCall.exec .empty calls).1.flatMap := by
  have h := Lib.allows_trace TopicTrie.flatMap TrieCall.spec_exec .empty calls
  rwa [TopicTrie.flatMap_empty] at h

end Rusquitto
