import Rusquitto.Broker.Recipients
import Rusquitto.Server.Pages
import Rusquitto.Server.Steps

/-!
# Subscriptions and the sessions they belong to

Nothing that writes into the trie looks at the table of sessions: a SUBSCRIBE that a task had read
before a peer's claim ended its session leaves an entry without one (`displaced_leaves_orphan`). As
long as the trie is only written for clients that have a session (`Server.Attended`), every entry
belongs to one.
-/

namespace Rusquitto

open ClientView Option

/-- A client with subscriptions has a session. -/
def ClientView.Anchored (v : ClientView) : Prop :=
  v.subs ≠ [] → v.session.isSome = true

namespace ClientView

variable {v v' : ClientView}

/-- With a session, or without subscriptions, all is well. -/
lemma Anchored.of_session {session : Session} (h : v.session = some session) : v.Anchored :=
  fun _ => h ▸ rfl

lemma Anchored.of_subs (h : v.subs = []) : v.Anchored :=
  fun hne => absurd h hne

lemma Anchored.lasts (h : v.Anchored) (hlasts : v.Lasts v') : v'.Anchored := by
  rcases hlasts with ⟨-, hnil⟩ | ⟨hsubs, hmap⟩
  · exact .of_subs hnil
  · intro hne
    have hsome := h (hsubs ▸ hne)
    rwa [← isSome_map (f := Session.generation), ← hmap, isSome_map] at hsome

lemma anchored_opened (v : ClientView) (mailbox generation : ℕ) (cleanStart : Bool) :
    (v.opened mailbox generation cleanStart).Anchored := by
  unfold opened
  split
  · exact .of_session rfl
  · split
    · exact .of_session rfl
    · exact .of_session rfl

end ClientView

namespace Server

variable {env : Env} {srv srv' : Server} {op : ServerOp} {k : String} {v v' : ClientView}

/-- The trie is written only for a client that has a session. -/
def Attended (srv : Server) : ServerOp → Prop
  | .packet id (.subscribe _) _ => ∀ c, srv.tasks id = some c → c.connected = true →
    (srv.shard.sessions.lookup c.clientId).isSome = true
  | .claimReply id _ => ∀ c migrated rest, srv.tasks id = some c →
    srv.shard.claimReplies id = some migrated :: rest → migrated.subscriptions ≠ [] →
    (srv.shard.sessions.lookup c.clientId).isSome = true
  | _ => True

/-- The work that may write new entries for clients that are connected. -/
def Enrols (op : ServerOp) : Prop :=
  (∃ id subscribe chance, op = .packet id (.subscribe subscribe) chance) ∨
    ∃ id chance, op = .claimReply id chance

/-- Such work ends no session. -/
lemma Edit.keeps_session (h : srv.Edit op k v v') (hop : Enrols op)
    (hsome : v.session.isSome = true) : v'.session.isSome = true := by
  have hnot {op' : ServerOp} (heq : op = op') (hno : ¬Enrols op') : False := hno (heq ▸ hop)
  cases h with
  | received hv =>
    have hmap := hv.session_map (fun _ => ()) fun _ _ _ => rfl
    rw [← isSome_map (f := fun _ : Session => ()), hmap, isSome_map]
    exact hsome
  | willArmed generation will delaySecs =>
    unfold ClientView.willArmed
    split
    · exact hsome
    · split
      · rfl
      · exact hsome
  | shed => rwa [ClientView.shed, isSome_map]
  | marked | subscribed | unsubscribed | installed => exact hsome
  | opened heq | closed heq | parked heq | reattached heq | swept heq | claimed heq | loaded heq =>
    exact (hnot heq (by simp [Enrols])).elim
  | suspended heq =>
    rcases heq with heq | ⟨chance, heq⟩
    · exact (hnot heq (by simp [Enrols])).elim
    · exact (hnot heq (by simp [Enrols])).elim

/-- One edit keeps every entry with its session. -/
lemma Edit.anchored (h : srv.Edit op k v v') (hop : srv.Attended op) (hv : v.Anchored)
    (hsession : Enrols op → (srv.shard.sessions.lookup k).isSome = true → v.session.isSome = true) :
    v'.Anchored := by
  cases h with
  | received hreceived => exact hv.lasts (lasts_receives hreceived)
  | marked wal => exact hv
  | opened => exact anchored_opened v _ _ _
  | closed => exact hv.lasts (v.lasts_closed ..)
  | parked => exact hv.lasts (v.lasts_parked ..)
  | reattached => exact hv.lasts (v.lasts_reattached ..)
  | suspended => exact hv.lasts (v.lasts_suspended ..)
  | willArmed => exact hv.lasts (v.lasts_willArmed ..)
  | swept => exact hv.lasts (v.lasts_swept ..)
  | claimed => exact hv.lasts v.lasts_claimed
  | shed => exact hv.lasts v.lasts_shed
  | subscribed heq hc hconnected hname =>
    subst heq hname
    intro _
    exact hsession (.inl ⟨_, _, _, rfl⟩) (hop _ hc hconnected)
  | unsubscribed =>
    refine fun hne => hv fun hnil => hne ?_
    rw [hnil]
    rfl
  | @installed _ _ _ _ _ migrated _ heq hc _ hname hreply subs hsubs =>
    subst heq hname
    by_cases hnone : migrated.subscriptions = []
    · rw [hnone] at hsubs
      -- nothing is armed
      cases hsubs
      exact hv
    · intro _
      exact hsession (.inr ⟨_, _, rfl⟩) (hop _ _ _ hc hreply hnone)
  | loaded => exact .of_session rfl

/-- One piece of work keeps every entry with its session. -/
lemma Move.anchored (hmove : Move env srv op srv') (hop : srv.Attended op)
    (h : ∀ k, (srv.shard.view k).Anchored) (k : String) : (srv'.shard.view k).Anchored := by
  have hchain {v' : ClientView}
    (hedits : Relation.ReflTransGen (srv.Edit op k) (srv.shard.view k) v') :
      v'.Anchored ∧
        (Enrols op → (srv.shard.sessions.lookup k).isSome = true → v'.session.isSome = true) := by
    induction hedits with
    | refl => exact ⟨h k, fun _ hsome => hsome⟩
    | tail _ hedit ih =>
      exact ⟨hedit.anchored hop ih.1 ih.2,
        fun henrols hsome => hedit.keeps_session henrols (ih.2 henrols hsome)⟩
  exact (hchain (hmove.edits k)).1

end Server

namespace ShardState

variable {s : ShardState}

/-- The clients with a stored subscription are those with subscriptions. -/
lemma session_of_stored (h : ∀ k, (s.view k).Anchored) {x : String × Subscription}
    (hx : x ∈ s.trie.stored) : (s.sessions.lookup x.2.clientId).isSome = true := by
  refine h x.2.clientId (List.ne_nil_of_mem (a := x.2.flat x.1) ?_)
  change _ ∈ s.trie.clientSubscriptions _
  rw [TopicTrie.clientSubscriptions_eq]
  exact List.mem_map_of_mem (List.mem_filter.mpr ⟨hx, beq_self_eq_true _⟩)

/-- A publish is handed to clients with a matching subscription only. -/
lemma exists_matching_of_handover {hash : ContentHash} {publish : Publish}
    {publisher : Option String}
    {h : Handover} (hmem : h ∈ s.publishHandovers hash publish publisher) :
    ∃ sub ∈ s.trie.matching publish.topic, sub.clientId = h.2.1 := by
  rcases List.mem_append.mp hmem with hbest | hgroup
  · obtain ⟨e, he, heq⟩ := List.mem_filterMap.mp hbest
    have hkey : e.1 ∈ (collapse (s.trie.matching publish.topic)).best :=
      AList.lookup_isSome.mp (isSome_of_mem (AList.mem_lookup_iff.mpr he))
    obtain ⟨sub, hsub, hclient, -⟩ := (mem_best_collapse _ e.1).mp hkey
    split at heq
    · exact nomatch heq
    · cases heq
      exact ⟨sub, hsub, hclient⟩
  · obtain ⟨e, he, heq⟩ := List.mem_filterMap.mp hgroup
    obtain ⟨c, m, -, -, rfl⟩ := (groupHandover_eq_some_iff ..).mp heq
    have hmembers := (s.mem_publishHandovers_group hash publish publisher e.1 c).mp ⟨_, hmem⟩
    obtain ⟨sub, hsub, -, hclient⟩ := (s.mem_groupMembers _ _ _).mp hmembers.1
    exact ⟨sub, hsub, hclient⟩

/-- A session that is not resumed starts without subscriptions. -/
lemma subs_of_fresh (h : ∀ k, (s.view k).Anchored) {c : String} {mailbox : ℕ} {cleanStart : Bool}
    (hfresh : (s.openSession c mailbox cleanStart).2.resumed = false) :
    (s.openSession c mailbox cleanStart).1.trie.clientSubscriptions c = [] := by
  have hview := s.view_openSession c c mailbox cleanStart
  rw [if_pos rfl] at hview
  refine (congrArg subs hview).trans ?_
  unfold opened
  split
  · next hnone =>
    by_contra hne
    have hsome := h c hne
    rw [hnone] at hsome
    exact nomatch hsome
  · next session hsession =>
    split
    · rfl
    · next hclean =>
      -- a record that is there is resumed
      rw [session_view] at hsession
      rw [Server.resumed_openSession, hsession] at hfresh
      simp [hclean] at hfresh

end ShardState

namespace Server

variable {env : Env} {srv₀ srv : Server}

/-- In every run in which the trie is written only for clients that have a session, every entry
belongs to a session. So a session that is not resumed starts without subscriptions, and no
delivery, to an ordinary subscriber or to the pick of a shared group, is for a client that does not
exist. -/
theorem subscriptions_have_sessions (h₀ : srv₀.shard.trie.stored = [])
    (hrun : Reached env Attended srv₀ srv) :
    (∀ x ∈ srv.shard.trie.stored, (srv.shard.sessions.lookup x.2.clientId).isSome = true) ∧
    (∀ c mailbox cleanStart, (srv.shard.openSession c mailbox cleanStart).2.resumed = false →
      (srv.shard.openSession c mailbox cleanStart).1.trie.clientSubscriptions c = []) ∧
    ∀ publish publisher, ∀ h ∈ srv.shard.publishHandovers env.hash publish publisher,
      (srv.shard.sessions.lookup h.2.1).isSome = true := by
  have hanchored : ∀ k, (srv.shard.view k).Anchored := by
    refine Lib.Reached.inv (fun srv => ∀ k, (srv.shard.view k).Anchored) (fun k => .of_subs ?_)
      (fun srv op h hop => (move_apply env srv op).anchored hop h) hrun
    change srv₀.shard.trie.clientSubscriptions k = []
    rw [TopicTrie.clientSubscriptions_eq, h₀]
    rfl
  refine ⟨fun x hx => ShardState.session_of_stored hanchored hx,
    fun c mailbox cleanStart hfresh => ShardState.subs_of_fresh hanchored hfresh, ?_⟩
  intro publish publisher h hmem
  obtain ⟨sub, hsub, hclient⟩ := ShardState.exists_matching_of_handover hmem
  obtain ⟨filter, hstored⟩ := TopicTrie.exists_stored_of_mem_matching hsub
  rw [← hclient]
  exact ShardState.session_of_stored hanchored hstored

/-- A client connects. -/
def greetedServer : Server :=
  Lib.run (fun srv op => srv.apply openEnv op) freshServer
    [.accept .none, .packet 0 (.connect { clientId := "a", cleanSession := true }) {}]

/-- The client subscribes to `t`. -/
def subscribedServer : Server :=
  greetedServer.apply openEnv
    (.packet 0 (.subscribe { pkid := 1, filters := [{ path := "t", qos := .atLeastOnce }] }) {})

theorem subscriptions_have_sessions_subscribed : subscribedServer.shard.trie.stored.length = 1 ∧
      ∀ x ∈ subscribedServer.shard.trie.stored,
        (subscribedServer.shard.sessions.lookup x.2.clientId).isSome = true := by
  have hgreeted : Reached openEnv Attended freshServer greetedServer :=
    Lib.Reached.start.run ⟨trivial, trivial, trivial⟩
  have hrun : Reached openEnv Attended freshServer subscribedServer := by
    refine hgreeted.step _ fun c hc _ => ?_
    -- the client that subscribes is the one that has connected
    have hsome : (greetedServer.tasks 0).all fun c =>
        (greetedServer.shard.sessions.lookup c.clientId).isSome := by decide
    rw [hc, Option.all_some] at hsome
    exact hsome
  exact ⟨by decide, (subscriptions_have_sessions rfl hrun).1⟩

/-- A client connects, a peer claims its session, and a SUBSCRIBE that was read before is processed.
-/
def orphanedServer : Server :=
  Lib.run (fun srv op => srv.apply openEnv op) freshServer
    [.accept .none, .packet 0 (.connect { clientId := "a", cleanSession := true }) {},
      .mesh (.control (.claim "a" 1 false)),
      .packet 0 (.subscribe { pkid := 1, filters := [{ path := "t", qos := .atLeastOnce }] }) {}]

/-- The trie then has an entry for a client without a session, and the client's next session, which
is not resumed, starts with the subscription. -/
theorem displaced_leaves_orphan : Reached openEnv (fun _ _ => True) freshServer orphanedServer ∧
    (orphanedServer.shard.trie.clientSubscriptions "a").length = 1 ∧
    (orphanedServer.shard.sessions.lookup "a").isSome = false ∧
    (orphanedServer.shard.openSession "a" 1 false).2.resumed = false ∧
    ((orphanedServer.shard.openSession "a" 1 false).1.trie.clientSubscriptions "a").length = 1 :=
  ⟨Lib.reached_run freshServer _, by decide, by decide, by decide, by decide⟩

end Server

end Rusquitto
