import Mathlib.Logic.Relation
import Rusquitto.Cluster.Network
import Rusquitto.Server.Vouching

/-!
# Who wrote what is routed

A broker over its whole history, restarts included. `Docket` keeps beside the shards what clients
have submitted and what the broker has published itself. Every message that any shard routes is one
of the broker's own, or was submitted on a connection whose identity may publish on its topic
(`Docket.routed_was_allowed`).
-/

namespace Rusquitto

open Function Option List Network ShardState

/-- A broker with the history of what was submitted, published by the broker itself and persisted.
-/
structure Docket where
  n : ℕ
  net : Network n
  submitted : List Submission := []
  own : List Publish := []
  archive : List PersistedSession := []

/-- A broker before its first connection, with nothing under way. -/
structure Network.Blank {n : ℕ} (net : Network n) : Prop extends Started net where
  links : ∀ i, (net i).links = []
  silent : ∀ i, (net i).shard.controlTx.getD [] = []
  replies : ∀ i id, (net i).shard.claimReplies id = []

namespace Docket

variable (env : Env)

/-- Where a piece of work is done, and what it is there: a message from a peer is handled by the
shard it was sent to. -/
def site (d : Docket) : NetworkOp d.n → Option (Fin d.n × ServerOp)
  | .act i op => some (i, op)
  | .control i j =>
    if i = j then none else ((d.net i).shard.outgoing j).head?.map fun msg => (j, .mesh msg)
  | .forward i j =>
    if i = j then none
    else ((d.net i).links.find? (·.1 = (j : ℕ))).map fun e => (j, .mesh (.publish e.2))

/-- The messages that the broker publishes itself. -/
def publishes (d : Docket) (op : NetworkOp d.n) : List Publish :=
  match d.site op with
  | some (_, .publish message _) => [message]
  | _ => []

/-- What a client submits with a piece of work. -/
def submits (d : Docket) (op : NetworkOp d.n) : List Submission :=
  ((d.site op).bind fun w => (d.net w.1).submits env w.2).toList

/-- The messages that a piece of work routes. -/
def routed (d : Docket) (op : NetworkOp d.n) : List Publish :=
  ((d.site op).map fun w => (d.net w.1).routed env w.2).getD []

/-- A shard's own work starts there, and it loads only what was persisted. -/
def Fair (d : Docket) : NetworkOp d.n → Prop
  | .act _ (.load sessions) => ∀ ps ∈ sessions, ps ∈ d.archive
  | op => op.Local

/-- The broker and its history after a piece of work. -/
def work (d : Docket) (op : NetworkOp d.n) : Docket :=
  { d with
    net := d.net.apply env op
    submitted := d.submitted ++ d.submits env op
    own := d.own ++ d.publishes op }

/-- What may happen to a broker. -/
inductive Step : Docket → Docket → Prop
  | work {d : Docket} (op : NetworkOp d.n) (hfair : d.Fair op) : Step d (d.work env op)
  /-- The suspended sessions of a shard are written to disk. -/
  | persist {d : Docket} (i : Fin d.n) :
    Step d { d with archive := d.archive ++ (d.net i).shard.persistSessions (d.net i).now }
  /-- The process ends, and the next one starts. -/
  | restart {d : Docket} {n : ℕ} {net : Network n} (hblank : Network.Blank net) :
    Step d { d with n, net }

/-- The message was submitted on a connection that may publish it, or is one of the broker's own. -/
def Authored (d : Docket) (message : Publish) : Prop :=
  message ∈ d.own ∨ ∃ s ∈ d.submitted, s.Allowed env ∧ s.message = message

/-- Everything that is kept anywhere has an author. -/
structure Inv (d : Docket) : Prop where
  servers : ∀ i, (d.net i).Inv
  vouched : ∀ i, (d.net i).Vouched (d.Authored env)
  archive : ∀ ps ∈ d.archive, VouchedQos2 (d.Authored env) ps.session.incomingQos2

variable {env} {d d' : Docket} {op : NetworkOp d.n}

lemma Authored.mono (hown : ∀ message ∈ d.own, message ∈ d'.own)
    (hsubmitted : ∀ s ∈ d.submitted, s ∈ d'.submitted) {message : Publish}
    (h : d.Authored env message) : d'.Authored env message :=
  h.imp (hown message) fun ⟨s, hs, hallowed⟩ => ⟨s, hsubmitted s hs, hallowed⟩

lemma Authored.work (op : NetworkOp d.n) {message : Publish} (h : d.Authored env message) :
    (d.work env op).Authored env message :=
  h.mono (fun _ => mem_append_left _) fun _ => mem_append_left _

/-! ### What a piece of work brings in -/

lemma exists_of_outgoing {s : ShardState} {peer : ℕ} {msg : MeshMsg}
    (h : (s.outgoing peer).head? = some msg) : ∃ e ∈ s.controlTx.getD [], e.2 = msg := by
  obtain ⟨e, he, rfl⟩ := mem_map.mp (mem_of_mem_head? h)
  exact ⟨e, mem_of_mem_filter he, rfl⟩

/-- A message from a peer has an author. -/
lemma Inv.mesh (h : d.Inv env) (hfair : d.Fair op) {j : Fin d.n} {msg : MeshMsg}
    (hsite : d.site op = some (j, .mesh msg)) : msg.Vouched (d.Authored env) := by
  cases op with
  | act i op =>
    obtain ⟨-, rfl⟩ := Prod.mk.injEq .. ▸ some.inj hsite
    exact hfair.elim
  | control i j' =>
    obtain ⟨-, hsite⟩ := ite_none_left_eq_some.mp hsite
    obtain ⟨msg', hmsg, heq⟩ := map_eq_some_iff.mp hsite
    obtain ⟨-, heq⟩ := Prod.mk.injEq .. ▸ heq
    obtain rfl := ServerOp.mesh.inj heq
    obtain ⟨e, he, rfl⟩ := exists_of_outgoing hmsg
    exact (h.vouched i).shard.outbox e he
  | forward i j' =>
    obtain ⟨-, hsite⟩ := ite_none_left_eq_some.mp hsite
    obtain ⟨e, he, heq⟩ := map_eq_some_iff.mp hsite
    obtain ⟨-, heq⟩ := Prod.mk.injEq .. ▸ heq
    obtain rfl := ServerOp.mesh.inj heq
    exact (h.vouched i).link e (mem_of_find?_eq_some he)

lemma Inv.brings (h : d.Inv env) (hfair : d.Fair op) {j : Fin d.n} {local' : ServerOp}
    (hsite : d.site op = some (j, local')) :
    Server.Brings env ((d.work env op).Authored env) (d.net j) local' where
  submitted s hs hallowed := by
    refine .inr ⟨s, mem_append_right _ ?_, hallowed, rfl⟩
    rw [submits, hsite, bind_some, hs]
    exact mem_singleton_self s
  mesh msg hmsg := by
    subst hmsg
    exact (h.mesh hfair hsite).mono fun _ => Authored.work op
  own message chance heq := by
    subst heq
    refine .inl (mem_append_right _ ?_)
    rw [publishes, hsite]
    exact mem_singleton_self message
  loaded sessions heq ps hps := by
    subst heq
    cases op with
    | act i op =>
      obtain ⟨-, rfl⟩ := Prod.mk.injEq .. ▸ some.inj hsite
      exact (h.archive ps (hfair ps hps)).mono fun _ => Authored.work _
    | control i j' =>
      obtain ⟨-, hsite⟩ := ite_none_left_eq_some.mp hsite
      obtain ⟨_, -, heq⟩ := map_eq_some_iff.mp hsite
      exact nomatch (Prod.mk.injEq .. ▸ heq).2
    | forward i j' =>
      obtain ⟨-, hsite⟩ := ite_none_left_eq_some.mp hsite
      obtain ⟨_, -, heq⟩ := map_eq_some_iff.mp hsite
      exact nomatch (Prod.mk.injEq .. ▸ heq).2

/-! ### Every step -/

/-- A shard of the broker after a piece of work: the one that did it, the one whose message was
taken, or another one. -/
lemma apply_cases (env : Env) (d : Docket) (op : NetworkOp d.n) (i : Fin d.n) :
    (∃ local', d.site op = some (i, local') ∧ d.net.apply env op i = (d.net i).apply env local') ∨
      (∃ peer, d.net.apply env op i = { d.net i with shard := (d.net i).shard.popControl peer }) ∨
      (∃ links, (∀ e ∈ links, e ∈ (d.net i).links) ∧ d.net.apply env op i =
        { d.net i with links }) ∨
      d.net.apply env op i = d.net i := by
  cases op with
  | act j op =>
    by_cases hi : i = j
    · subst hi
      exact .inl ⟨op, rfl, update_self ..⟩
    · exact .inr (.inr (.inr (update_of_ne hi ..)))
  | control j k =>
    cases hout : (d.net j).shard.outgoing k with
    | nil =>
      refine .inr (.inr (.inr ?_))
      simp only [apply, hout]
    | cons msg rest =>
      simp only [apply, hout, site, head?_cons, map_some]
      split
      · exact .inr (.inr (.inr rfl))
      · next hjk =>
        by_cases hi : i = k
        · subst hi
          exact .inl ⟨.mesh msg, rfl, update_self ..⟩
        · rw [update_of_ne hi]
          by_cases hj : i = j
          · subst hj
            exact .inr (.inl ⟨k, update_self ..⟩)
          · exact .inr (.inr (.inr (update_of_ne hj ..)))
  | forward j k =>
    cases hfind : (d.net j).links.find? (·.1 = (k : ℕ)) with
    | none =>
      refine .inr (.inr (.inr ?_))
      simp only [apply, hfind]
    | some e =>
      simp only [apply, hfind, site, map_some]
      split
      · exact .inr (.inr (.inr rfl))
      · next hjk =>
        by_cases hi : i = k
        · subst hi
          exact .inl ⟨.mesh (.publish e.2), rfl, update_self ..⟩
        · rw [update_of_ne hi]
          by_cases hj : i = j
          · subst hj
            exact .inr (.inr (.inl ⟨_, fun _ => mem_of_mem_eraseP, update_self ..⟩))
          · exact .inr (.inr (.inr (update_of_ne hj ..)))

lemma vouched_popControl {ok : Publish → Prop} {s : ShardState} (h : s.Vouched ok) (peer : ℕ) :
    (s.popControl peer).Vouched ok := by
  refine ⟨h.record, h.reply, fun e he => h.outbox e ?_⟩
  cases houtbox : s.controlTx with
  | none => simp [popControl, houtbox] at he
  | some outbox =>
    simp only [popControl, houtbox, map_some, getD_some] at he
    exact mem_of_mem_eraseP he

lemma Inv.work (h : d.Inv env) (hfair : d.Fair op) : (d.work env op).Inv env := by
  have hweaker (i : Fin d.n) : (d.net i).Vouched ((d.work env op).Authored env) :=
    (h.vouched i).mono fun _ => Authored.work op
  have hshard (i : Fin d.n) : (d.net.apply env op i).Inv ∧
      (d.net.apply env op i).Vouched ((d.work env op).Authored env) := by
    rcases apply_cases env d op i with ⟨local', hsite, heq⟩ | ⟨peer, heq⟩ |
      ⟨links, hlinks, heq⟩ | heq
    · rw [heq]
      exact ⟨(h.servers i).apply local',
        (hweaker i).apply (h.servers i) (h.brings hfair hsite)⟩
    · rw [heq]
      exact ⟨(h.servers i).tame (.of_eq rfl rfl rfl) rfl rfl rfl,
        (hweaker i).task, (hweaker i).slot, vouched_popControl (hweaker i).shard peer,
          (hweaker i).link⟩
    · rw [heq]
      exact ⟨(h.servers i).tame (.refl _) rfl rfl rfl,
        (hweaker i).task, (hweaker i).slot, (hweaker i).shard, fun e he =>
          (hweaker i).link e (hlinks e he)⟩
    · rw [heq]
      exact ⟨h.servers i, hweaker i⟩
  exact ⟨fun i => (hshard i).1, fun i => (hshard i).2,
    fun ps hps => (h.archive ps hps).mono fun _ => Authored.work op⟩

lemma Inv.persist (h : d.Inv env) (i : Fin d.n) : Inv env
    { d with archive := d.archive ++ (d.net i).shard.persistSessions (d.net i).now } := by
  refine ⟨h.servers, h.vouched, fun ps hps => ?_⟩
  rcases mem_append.mp hps with hps | hps
  · exact h.archive ps hps
  · obtain ⟨k, -, hone⟩ := mem_filterMap.mp hps
    unfold persistOne at hone
    simp only [bind, bind_eq_some_iff] at hone
    obtain ⟨session, hs, hone⟩ := hone
    split at hone
    · exact nomatch hone
    · obtain ⟨_, -, hone⟩ := bind_eq_some_iff.mp hone
      cases hone
      exact ((h.vouched i).shard.record k session hs).package _

lemma inv_of_blank {n : ℕ} {net : Network n} (hblank : Blank net) (d : Docket)
    (harchive : ∀ ps ∈ d.archive, VouchedQos2 (d.Authored env) ps.session.incomingQos2) :
    Inv env { d with n, net } := by
  refine ⟨fun i => (hblank.servers i).inv, fun i => ?_, harchive⟩
  have hstarted := hblank.servers i
  refine ⟨fun id c hc => ?_, fun slot r hr => ?_,
    ⟨fun k session hs => ?_, fun id migrated hmem => ?_,
    fun e he => ?_⟩, fun e he => ?_⟩
  · exact nomatch (hstarted.tasks id).symm.trans hc
  · rw [hstarted.slots] at hr
    exact nomatch hr
  · rw [session_view, hstarted.sessions] at hs
    exact nomatch hs
  · rw [hblank.replies i id] at hmem
    exact nomatch hmem
  · rw [hblank.silent i] at he
    exact nomatch he
  · rw [hblank.links i] at he
    exact nomatch he

lemma Inv.step (h : d.Inv env) (hstep : Step env d d') : d'.Inv env := by
  cases hstep with
  | work op hfair => exact h.work hfair
  | persist i => exact h.persist i
  | restart hblank => exact inv_of_blank hblank d h.archive

lemma inv_of_history {n : ℕ} {net₀ : Network n} (h₀ : Blank net₀)
    (hrun : Relation.ReflTransGen (Step env) { n, net := net₀ } d) : d.Inv env := by
  induction hrun with
  | refl => exact inv_of_blank h₀ { n, net := net₀ } (fun _ hps => nomatch hps)
  | tail _ hstep ih => exact ih.step hstep

/-- The shard that does a piece of work. -/
lemma apply_site {i : Fin d.n} {local' : ServerOp} (hsite : d.site op = some (i, local')) :
    d.net.apply env op i = (d.net i).apply env local' := by
  cases op with
  | act j op =>
    obtain ⟨rfl, rfl⟩ := Prod.mk.injEq .. ▸ some.inj hsite
    exact update_self ..
  | control j k =>
    obtain ⟨hjk, hsite⟩ := ite_none_left_eq_some.mp hsite
    obtain ⟨msg, hmsg, heq⟩ := map_eq_some_iff.mp hsite
    obtain ⟨rfl, rfl⟩ := Prod.mk.injEq .. ▸ heq
    obtain ⟨rest, hout⟩ := head?_eq_some_iff.mp hmsg
    simp only [apply, hout, if_neg hjk]
    exact update_self ..
  | forward j k =>
    obtain ⟨hjk, hsite⟩ := ite_none_left_eq_some.mp hsite
    obtain ⟨e, he, heq⟩ := map_eq_some_iff.mp hsite
    obtain ⟨rfl, rfl⟩ := Prod.mk.injEq .. ▸ heq
    simp only [apply, he, if_neg hjk]
    exact update_self ..

/-- In every history of a broker, every message that a piece of work routes anywhere is one of the
broker's own, or was submitted on a connection whose identity may publish on its topic, and that
topic is valid. These are all the messages that reach `deliverLocal`. -/
theorem routed_was_allowed (env : Env) {n : ℕ} {net₀ : Network n} (h₀ : Network.Blank net₀)
    (hrun : Relation.ReflTransGen (Step env) { n, net := net₀ } d) {op : NetworkOp d.n}
    (hfair : d.Fair op) :
    (∀ message ∈ d.routed env op, message ∈ (d.work env op).own ∨
      ∃ s ∈ (d.work env op).submitted, s.message = message ∧
        validPublishTopic message.topic = true ∧
        env.auth.authorizePublish s.identity message.topic = true) ∧
      ∀ i local', d.site op = some (i, local') →
        ShardState.Calls env.hash (d.net i).shard (d.routed env op)
          (d.net.apply env op i).shard := by
  have hinv := inv_of_history h₀ hrun
  refine ⟨fun message hmem => ?_, fun i local' hsite => ?_⟩
  · cases hsite : d.site op with
    | none =>
      rw [routed, hsite] at hmem
      exact nomatch hmem
    | some w =>
      rw [routed, hsite] at hmem
      have hkept := (hinv.vouched w.1).mono fun _ => Authored.work op
      refine (hkept.routed (hinv.brings hfair hsite) message hmem).imp_right ?_
      rintro ⟨s, hs, ⟨hvalid, hauth⟩, rfl⟩
      exact ⟨s, hs, rfl, hvalid, hauth⟩
  · rw [apply_site hsite, routed, hsite]
    exact (Server.routes_apply env (d.net i) local').calls

/-! ### A message that is released by a later connection -/

lemma fair_of_local (h : op.Local) : d.Fair op := by
  unfold Fair
  split
  · exact h.elim
  · exact h

/-- A broker and its history after a list of work. -/
def after (env : Env) {n : ℕ} (net : Network n) (submitted : List Submission) (own : List Publish)
    (archive : List PersistedSession) : List (NetworkOp n) → Docket
  | [] => { n, net, submitted, own, archive }
  | op :: ops =>
    let d : Docket := { n, net, submitted, own, archive }
    after env (net.apply env op) (submitted ++ d.submits env op) (own ++ d.publishes op) archive ops

lemma reaches_after (env : Env) {n : ℕ} (net : Network n) (submitted : List Submission)
    (own : List Publish) (archive : List PersistedSession) {ops : List (NetworkOp n)}
    (hops : ∀ op ∈ ops, op.Local) :
    Relation.ReflTransGen (Step env) { n, net, submitted, own, archive }
      (after env net submitted own archive ops) := by
  induction ops generalizing net submitted own with
  | nil => exact .refl
  | cons op ops ih =>
    have hfair : Docket.Fair { n, net, submitted, own, archive } op :=
      fair_of_local (hops op mem_cons_self)
    have hrest := ih (net.apply env op)
      (submitted ++ Docket.submits env { n, net, submitted, own, archive } op)
      (own ++ Docket.publishes { n, net, submitted, own, archive } op)
      fun op' hop' => hops op' (mem_cons_of_mem _ hop')
    exact .head (Step.work (d := { n, net, submitted, own, archive }) op hfair) hrest

lemma fresh_blank (n : ℕ) : Blank (fresh n) where
  toStarted := fresh_started n
  links _ := rfl
  silent _ := rfl
  replies _ _ := rfl

/-- Clients without a name may publish under one topic. -/
def sensorEnv : Env :=
  { Server.openEnv with
    auth := { allowAnonymous := true, users := ∅, anonymousPublishAcl := some ["sensors/#"] } }

/-- A client submits a QoS 2 message, loses its connection before it has released the message, and
comes back. -/
def interrupted : Docket :=
  after sensorEnv (Network.fresh 1) [] [] []
    (Network.connecting 0 0 "a" ++
      [.act 0 (.packet 0 (.publish
          { topic := "sensors/t", qos := .exactlyOnce, pkid := 1, payload := [7] }) {}),
        .act 0 (.hangUp 0 .eof), .act 0 (.close 0)] ++
      Network.connecting 0 1 "a")

theorem routed_was_allowed_interrupted :
    interrupted.routed sensorEnv (.act (0 : Fin 1) (.packet 1 (.pubRel 1) {})) ≠ [] ∧
      ∀ message ∈ interrupted.routed sensorEnv (.act (0 : Fin 1) (.packet 1 (.pubRel 1) {})),
        message ∈ (interrupted.work sensorEnv (.act (0 : Fin 1) (.packet 1 (.pubRel 1) {}))).own ∨
        ∃ s ∈ (interrupted.work sensorEnv (.act (0 : Fin 1) (.packet 1 (.pubRel 1) {}))).submitted,
          s.message = message ∧ validPublishTopic message.topic = true ∧
          sensorEnv.auth.authorizePublish s.identity message.topic = true := by
  have hrun : Relation.ReflTransGen (Step sensorEnv) { n := 1, net := Network.fresh 1 }
    interrupted :=
    reaches_after sensorEnv (Network.fresh 1) [] [] []
      (by simp [Network.connecting, NetworkOp.Local, ServerOp.Local])
  have hfair : interrupted.Fair (.act (0 : Fin 1) (.packet 1 (.pubRel 1) {})) := trivial
  exact ⟨by decide, (routed_was_allowed sensorEnv (fresh_blank 1) hrun hfair).1⟩

end Docket

end Rusquitto
