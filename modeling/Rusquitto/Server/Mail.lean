import Rusquitto.Server.Pages
import Rusquitto.Server.Steps

/-!
# What a piece of work leaves for other shards

Sessions travel between shards in hand-offs, which wait in the outbox of the shard that gives them
up and then in the channel of a claim. Only a claim of a peer puts a session into the outbox
(`Server.Move.outbox`), and only a hand-off puts one into a channel (`Server.Move.replies`).
-/

namespace Rusquitto

open ShardState

/-- A message that carries no publish and no session. -/
def MeshMsg.Plain : MeshMsg → Prop
  | .control (.claim ..) | .control (.handoff _ none) | .shared _ => True
  | _ => False

namespace Server

variable {env : Env} {srv srv' : Server} {op : ServerOp} {s s' : ShardState} {e : ℕ × MeshMsg}

/-- Where nothing is sent but claims, nothing else gets into the outbox. -/
lemma plain_of_posts {sent : List (ℕ × SessionControl)} (h : s.Posts s' sent)
    (hsent : ∀ e ∈ sent, ∃ c requester resume, e.2 = .claim c requester resume)
    (he : e ∈ s'.controlTx.getD []) : e ∈ s.controlTx.getD [] ∨ e.2.Plain := by
  rcases h.mem_outbox he with hold | ⟨event, hevent⟩ | ⟨control, hcontrol, hmem⟩
  · exact .inl hold
  · exact .inr (hevent ▸ trivial)
  · obtain ⟨c, requester, resume, hclaim⟩ := hsent _ hmem
    dsimp only at hclaim
    rw [hcontrol, hclaim]
    exact .inr trivial

lemma Hushed.plain (h : Hushed s s') (he : e ∈ s'.controlTx.getD []) :
    e ∈ s.controlTx.getD [] ∨ e.2.Plain :=
  @plain_of_posts (s.amid s') s' e [] h.posts nofun he

section

variable (c : Connection) (s : ShardState) (chance : Chance) (cleanStart assigned : Bool)

/-- A CONNECT sends claims at most. -/
lemma plain_openHandle
    (he : e ∈ (c.openHandle env s chance cleanStart assigned).shard.controlTx.getD []) :
    e ∈ s.controlTx.getD [] ∨ e.2.Plain := by
  revert he
  refine Connection.shard_openHandle env c s chance cleanStart assigned (fun he => ?_)
    (fun _ h => h)
    fun s₁ resume h he => ?_
  · have hplain := plain_of_posts (s.posts_openSession c.clientId c.mailboxRx cleanStart) nofun he
    exact hplain
  refine (plain_of_posts (s₁.posts_broadcastClaim c.clientId resume) (fun e he => ?_) he).elim
    h .inr
  obtain ⟨_, -, rfl⟩ := List.mem_map.mp he
  exact ⟨_, _, _, rfl⟩

lemma replies_openHandle :
    (c.openHandle env s chance cleanStart assigned).shard.claimReplies = s.claimReplies :=
  Connection.shard_openHandle env c s chance cleanStart assigned
    (s.posts_openSession c.clientId c.mailboxRx cleanStart).claimReplies (fun _ h => h)
    fun _ _ h => (posts_broadcastClaim ..).claimReplies.trans h

end

/-- A message in the outbox was there before, or carries no session, or hands over the session that
a peer claims. -/
lemma Move.outbox (hmove : Move env srv op srv') (he : e ∈ srv'.shard.controlTx.getD []) :
    e ∈ srv.shard.controlTx.getD [] ∨ e.2.Plain ∨ ∃ c requester resume migrated,
      op = .mesh (.control (.claim c requester resume)) ∧
        (srv.shard.view c).handedOver resume = some migrated ∧
        e.2 = .control (.handoff c (some migrated)) := by
  by_cases hop : op.Local
  · rcases hmove.hushed_or_opens hop with hhush | ⟨_, _, _, _, _, -, hopens⟩
    · exact (hhush.plain he).imp_right .inl
    · obtain ⟨_, c₁, chance, assigned, nextAssignedId, -, -, -, -, -, rfl⟩ := hopens
      exact (plain_openHandle c₁ { srv.shard with nextAssignedId } chance _ assigned
        he).imp_right .inl
  cases hmove with
  | load sessions =>
    obtain ⟨n, -, hposts⟩ := srv.shard.posts_loadSessions sessions srv.now
    exact (plain_of_posts hposts nofun he).imp_right .inl
  | mesh msg =>
    cases msg with
    | publish publish =>
      have hcalm := srv.shard.calm_deliverLocal env.hash publish none
      exact ((hushed_of_calm hcalm).plain he).imp_right .inl
    | shared event =>
      exact (plain_of_posts (srv.shard.posts_applySharedEvent event) nofun he).imp_right .inl
    | control control =>
      cases control with
      | claim c requester resume =>
        rcases (srv.shard.posts_handleClaim c requester resume).mem_outbox he with
          hold | ⟨event, hevent⟩ | ⟨control, hcontrol, hmem⟩
        · exact .inl hold
        · exact .inr (.inl (hevent ▸ trivial))
        · obtain rfl : control = _ := congrArg Prod.snd (List.mem_singleton.mp hmem)
          cases hover : (srv.shard.view c).handedOver resume with
          | none => exact .inr (.inl (by rw [hcontrol, hover]; trivial))
          | some migrated =>
            exact .inr (.inr ⟨c, requester, resume, migrated, rfl, hover, by rw [hcontrol, hover]⟩)
      | handoff c session =>
        refine .inl ?_
        simp only [handleMeshMsg, onControl] at he
        split at he <;> exact he
  | idle => exact .inl he
  | _ => exact (hop trivial).elim

/-- A reply in a channel was there before, or a peer hands it over now. -/
lemma Move.replies (hmove : Move env srv op srv') {id : ℕ} {reply : Option MigratedSession}
    (h : reply ∈ srv'.shard.claimReplies id) : reply ∈ srv.shard.claimReplies id ∨
      ∃ c, op = .mesh (.control (.handoff c reply)) ∧ srv.shard.pendingClaims.lookup c =
        some id := by
  by_cases hop : op.Local
  · rcases hmove.hushed_or_opens hop with hhush | ⟨_, _, _, _, _, -, hopens⟩
    · exact .inl (hhush.replies id reply h)
    · obtain ⟨_, c₁, chance, assigned, nextAssignedId, -, -, -, -, -, rfl⟩ := hopens
      have heq := @replies_openHandle env c₁ { srv.shard with nextAssignedId } chance
      exact .inl (by rw [finishTurn, heq] at h; exact h)
  cases hmove with
  | load sessions =>
    obtain ⟨n, -, hposts⟩ := srv.shard.posts_loadSessions sessions srv.now
    exact .inl (hposts.claimReplies ▸ h)
  | mesh msg =>
    cases msg with
    | publish publish =>
      exact .inl ((srv.shard.calm_deliverLocal env.hash publish none).replies ▸ h)
    | shared event => exact .inl ((srv.shard.posts_applySharedEvent event).claimReplies ▸ h)
    | control control =>
      cases control with
      | claim c requester resume =>
        exact .inl ((srv.shard.posts_handleClaim c requester resume).claimReplies ▸ h)
      | handoff c session =>
        simp only [handleMeshMsg, onControl] at h
        split at h
        · exact .inl h
        · next channel hchannel =>
          dsimp only at h
          rw [Function.update_apply] at h
          split at h
          · next hid =>
            rcases List.mem_append.mp h with h | h
            · exact .inl (hid ▸ h)
            · obtain rfl := List.mem_singleton.mp h
              exact .inr ⟨c, rfl, hid ▸ hchannel⟩
          · exact .inl h
  | idle => exact .inl h
  | _ => exact (hop trivial).elim

end Server

end Rusquitto
