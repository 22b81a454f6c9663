import Rusquitto.Persistence.Packet
import Rusquitto.Server.Moves
import Rusquitto.Server.Ownership

/-!
# Runs of a shard with its connections

Every piece of work on a shard keeps `Server.Inv`, so it holds in every state of every run that
starts with an empty shard. The law of session records (`session_lifecycle`) is what it says about
the shard alone.
-/

namespace Rusquitto

open ShardState Connection ClientView Option Session AList

namespace Server

section

variable {env : Env} {srv : Server} {c : Connection} {id generation : ℕ} {s : ShardState}
  {k : String}
  {session : Session} {r : ResumeState} {p : Parking}

/-! ### The event loop -/

lemma settle_eq (r : Connection × Outcome) :
    settle r = r.1 ∨ settle r = { r.1 with phase := .ending } := by
  unfold settle
  split
  · exact .inl rfl
  · exact .inr rfl

lemma exists_settle_eq (r : Connection × Outcome) : ∃ phase,
    settle r = { r.1 with phase } ∧ (phase = r.1.phase ∨ phase = .ending) := by
  rcases settle_eq r with h | h
  · exact ⟨_, h, .inl rfl⟩
  · exact ⟨_, h, .inr rfl⟩

lemma Connection.sound_running (hrx : c.mailboxRx = id) (hbalanced : c.Balanced)
    (hconn : c.connected = true) (hphase : c.phase = .running) : c.Sound id where
  mailboxRx := hrx
  balanced _ := hbalanced
  blank := by simp [hconn, hphase]
  resuming := by simp [hphase]
  claiming := by simp [hphase]

section

variable (h : srv.Inv) (hc : srv.tasks id = some c)
include h hc

/-- A turn of a task that speaks for its session, before and after. -/
lemma Inv.turn {turn : Turn} (hgen : turn.conn.sessionGeneration = c.sessionGeneration)
    (hclient : turn.conn.clientId = c.clientId) (hphase : c.phase.holding = true)
    (hphase' : turn.conn.phase.holding = true)
    (hunopened : turn.conn.connected = false → turn.conn.phase = .running → c.connected = false ∧
      c.phase = .running) (hsound : turn.conn.Sound id) (htame : srv.shard.Tame turn.shard) :
    (srv.finishTurn id turn).Inv := by
  have hholds {c' : Connection} (hgen' : c'.sessionGeneration = turn.conn.sessionGeneration)
      (hclient' : c'.clientId = turn.conn.clientId) (hphase' : c'.phase.holding = true) :
      c'.Holds ↔ c.Holds := by
    rw [hgen] at hgen'
    rw [hclient] at hclient'
    constructor
    · rintro ⟨h₁, h₂, -⟩
      exact ⟨hclient' ▸ h₁, hgen' ▸ h₂, hphase⟩
    · rintro ⟨h₁, h₂, -⟩
      exact ⟨hclient'.symm ▸ h₁, hgen'.symm ▸ h₂, hphase'⟩
  have htask : (srv.setTask id (some (settle (turn.conn, turn.outcome)))).Inv := by
    have hsettled := hsound.settle hphase' turn.outcome
    rcases settle_eq (turn.conn, turn.outcome) with heq | heq
    · rw [heq] at hsettled ⊢
      exact h.replaceTask hc hgen (hholds rfl rfl hphase') (fun _ => hclient) hunopened hsettled
    · rw [heq] at hsettled ⊢
      exact h.replaceTask hc hgen (hholds rfl rfl rfl) (fun _ => hclient) nofun hsettled
  exact htask.tame htame rfl rfl rfl

/-- A turn in the event loop that leaves the connection itself. -/
lemma Inv.keepsTurn (hphase : c.phase = .running) {turn : Turn} (hkeeps : c.Keeps turn.conn)
    (hsound : turn.conn.Sound id) (htame : srv.shard.Tame turn.shard) :
    (srv.finishTurn id turn).Inv := by
  have hid := hkeeps.identity
  have hphase' : turn.conn.phase = c.phase := congrArg Identity.phase hid
  have hconn : turn.conn.connected = c.connected := congrArg Identity.connected hid
  refine h.turn hc (congrArg Identity.sessionGeneration hid)
    (congrArg Identity.clientId hid) ?_ ?_ (fun h₁ _ => ⟨hconn ▸ h₁, hphase⟩) hsound htame
  · rw [hphase]
    rfl
  · rw [hphase', hphase]
    rfl

lemma Inv.receive (hphase : c.phase = .running) {d : Delivery} {rest : List Delivery}
    (hchannel : srv.shard.channels id = d :: rest) :
    (srv.finishTurn id (.ofConn
      { srv.shard with channels := Function.update srv.shard.channels id rest }
      (c.receive env d))).Inv := by
  have hkeeps := keeps_receive env c d
  have hconn : c.connected = true :=
    ((h.quiet id (by simp [hchannel])).2 c hc).resolve_right (not_not.mpr hphase)
  have hsound := (h.sound id c hc).keeps hkeeps hconn (by simp [hphase])
  exact (h.popMailbox hchannel).keepsTurn hc hphase hkeeps hsound (.refl _)

/-- A task that goes on to another phase in which it speaks for its session. -/
lemma Inv.setPhase (hphase : c.phase.holding = true) (outbound : List Reply)
    (will : Option Publish) (phase : Phase) (hphase' : phase.holding = true)
    (hrunning : phase ≠ .running)
    (hclaiming : ∀ remaining assigned, phase = .claiming remaining assigned → c.connected = false) :
    (srv.setTask id (some { c with outbound, will, phase })).Inv := by
  have hsound := h.sound id c hc
  refine h.replaceTask hc rfl ⟨fun hh => ⟨hh.1, hh.2, hphase⟩, fun hh => ⟨hh.1, hh.2, hphase'⟩⟩
    (fun _ => rfl) (fun _ hp => absurd hp hrunning) ⟨hsound.mailboxRx, fun _ => hsound.balanced ?_,
      fun hblank => hsound.blank (.inl (hblank.resolve_right ?_)), fun hp => ?_, hclaiming⟩
  · intro will hp
    rw [hp] at hphase
    exact nomatch hphase
  · rintro rfl
    exact nomatch hphase'
  · obtain rfl : phase = .resuming := hp
    exact nomatch hphase'

end

/-! ### Connecting -/

/-- A session is opened: the new record is attached to the connection that opened it. -/
lemma Inv.opened (h : srv.Inv) {c' : Connection} (hc : srv.tasks id = some c)
    (hzero : c.sessionGeneration = 0) (cleanStart : Bool)
    (hgen : c'.sessionGeneration = srv.shard.nextGeneration + 1) (hholds : c'.Holds)
    (hunopened : c'.connected = true ∨ c'.phase ≠ .running) (hsound : c'.Sound id) :
    { srv.setTask id (some c') with
      shard := (srv.shard.openSession c'.clientId id cleanStart).1 }.Inv := by
  have hposts := srv.shard.posts_openSession c'.clientId id cleanStart
  have hview := srv.shard.view_openSession c'.clientId
  obtain ⟨session, hs, hlawful, hsgen, hattached, -⟩ := exists_opened
    (srv.shard.view c'.clientId) id (srv.shard.nextGeneration + 1) cleanStart
  refine h.openStep hc hzero (fun k hk => ?_) hposts.nextGeneration hposts.channels ?_ hlawful hsgen
    hattached hgen hholds hunopened hsound
  · exact congrArg ClientView.session ((hview k id cleanStart).trans (if_neg hk))
  · rw [← hs]
    exact congrArg ClientView.session ((hview c'.clientId id cleanStart).trans (if_pos rfl))

lemma tame_openHandle (env : Env) (c : Connection) (shard : ShardState) (chance : Chance)
    (cleanStart assigned : Bool) : (shard.openSession c.clientId c.mailboxRx cleanStart).1.Tame
      (c.openHandle env shard chance cleanStart assigned).shard :=
  shard_openHandle env c shard chance cleanStart assigned (.refl _)
    (fun _ h => h.trans (.of_eq rfl rfl rfl)) fun _ _ h => h.trans (tame_broadcastClaim _ _ _)

section

variable (h : srv.Inv) (hc : srv.tasks id = some c)
include h hc

lemma Inv.handleConnect (hphase : c.phase = .running) (hconn : c.connected = false)
    (chance : Chance) (connect : Connect) :
    (srv.finishTurn id (c.handleConnect env srv.shard chance connect)).Inv := by
  have hzero := h.unopened id c hc hconn hphase
  obtain ⟨c₁, nextAssignedId, hvet, hcases⟩ :=
    handleConnect_cases env c srv.shard chance connect
  obtain ⟨hrx, hbalanced₁, hinflight, hconn₁, hgen₁⟩ := (h.sound id c hc).vetted hvet hphase hconn
  rcases hcases with ⟨code, heq⟩ | ⟨hname, heq⟩
  · -- refused: the task goes on to its end without a session
    rw [heq]
    have hnot {c' : Connection} (hgen : c'.sessionGeneration = 0) : ¬ c'.Holds :=
      fun hh => hh.generation.ne' hgen
    have htask : (srv.setTask id (some { c₁.send (.connAck code false {}) with
        phase := .ending })).Inv :=
      h.replaceTask hc hgen₁ ⟨fun hh => absurd hh (hnot (hgen₁.trans hzero)),
        fun hh => absurd hh (hnot hzero)⟩ (fun hh => absurd hh (hnot hzero)) nofun
        ⟨hrx, fun _ => hbalanced₁, fun _ => hinflight, nofun, nofun⟩
    exact htask.tame (.of_eq rfl rfl rfl) rfl rfl rfl
  · rw [heq]
    obtain ⟨connected, phase, hwhere, hkeeps⟩ := keeps_openHandle env hinflight
      { srv.shard with nextAssignedId } chance connect.cleanSession (connect.clientId = "")
    have htame := tame_openHandle env c₁ { srv.shard with nextAssignedId } chance
      connect.cleanSession (connect.clientId = "")
    generalize c₁.openHandle env { srv.shard with nextAssignedId } chance connect.cleanSession
      (connect.clientId = "") = turn at hwhere hkeeps htame ⊢
    have hid := hkeeps.identity
    obtain rfl : turn.conn.phase = phase := congrArg Identity.phase hid
    obtain rfl : turn.conn.connected = connected := congrArg Identity.connected hid
    have hsound' : turn.conn.Sound id := by
      refine ⟨(congrArg Identity.mailboxRx hid).trans hrx, fun _ => hkeeps.balanced hbalanced₁,
        ?_, ?_, ?_⟩
      all_goals
        rcases hwhere with ⟨hw, hp⟩ | ⟨hw, hp, hempty⟩
        · simp [hw, hp]
        · simp [hw, hp, hempty, hconn₁]
    have hholding : turn.conn.phase.holding = true := by
      rcases hwhere with ⟨-, hp⟩ | ⟨-, hp, -⟩ <;> rw [hp] <;> rfl
    have h₁ : { srv with shard := { srv.shard with nextAssignedId } }.Inv :=
      h.tame (.of_eq rfl rfl rfl) rfl rfl rfl
    obtain ⟨phase, hsettled, hphase'⟩ := exists_settle_eq (turn.conn, turn.outcome)
    have hclient : (settle (turn.conn, turn.outcome)).clientId = c₁.clientId := by
      rw [hsettled]
      exact congrArg Identity.clientId hid
    have hgen : (settle (turn.conn, turn.outcome)).sessionGeneration =
        srv.shard.nextGeneration + 1 := by
      rw [hsettled]
      exact congrArg Identity.sessionGeneration hid
    have hopened := h₁.opened hc hzero connect.cleanSession hgen
      ⟨hclient.trans_ne hname, hgen ▸ Nat.succ_pos _, ?_⟩ ?_ (hsound'.settle hholding turn.outcome)
    · rw [hclient] at hopened
      rw [hrx] at htame
      exact hopened.tame htame rfl rfl rfl
    all_goals
      rw [hsettled]
      rcases hphase' with rfl | rfl
    · exact hholding
    · rfl
    · exact hwhere.imp (·.1) fun hw => by simp [hw.2.1]
    · exact .inr nofun

lemma Inv.packet (hphase : c.phase = .running) (p : Packet) (chance : Chance) :
    (srv.finishTurn id (c.processOne env srv.shard chance p)).Inv := by
  unfold processOne
  by_cases hconn : c.connected = true
  · rw [if_pos hconn]
    have hkeeps := keeps_dispatch env c srv.shard chance p
    exact h.keepsTurn hc hphase hkeeps ((h.sound id c hc).keeps hkeeps hconn (by simp [hphase]))
      (calm_dispatch c srv.shard chance p).toTame
  · rw [if_neg hconn]
    split
    · exact h.handleConnect hc hphase (by simpa using hconn) chance _
    · exact h.keepsTurn hc hphase (.refl c) (h.sound id c hc) (.refl _)

/-- The wait for a claim's replies ends. -/
lemma Inv.claimed {remaining : ℕ} {assigned : Bool}
    (hphase : c.phase = .claiming remaining assigned) (chance : Chance)
    (found : Option MigratedSession) :
    (srv.finishTurn id (c.claimed env srv.shard chance assigned found)).Inv := by
  have hsound := h.sound id c hc
  have hinflight := hsound.blank (.inl (hsound.claiming _ _ hphase))
  have hkeeps := keeps_claimed env hinflight srv.shard chance assigned found
  have htame : srv.shard.Tame (c.claimed env srv.shard chance assigned found).shard := by
    have hunregister : srv.shard.Tame (srv.shard.unregisterClaim c.clientId) := .of_eq rfl rfl rfl
    unfold Connection.claimed
    split
    · exact hunregister
    · exact hunregister.trans (calm_installMigrated _ _ _).toTame
  generalize c.claimed env srv.shard chance assigned found = turn at hkeeps htame
  have hid := hkeeps.identity
  have hphase' : turn.conn.phase = .running := congrArg Identity.phase hid
  have hconn' : turn.conn.connected = true := congrArg Identity.connected hid
  refine h.turn hc (congrArg Identity.sessionGeneration hid)
    (congrArg Identity.clientId hid) (by rw [hphase]; rfl) (by rw [hphase']; rfl) ?_ ?_
    htame
  · rw [hconn']
    exact nofun
  · exact Connection.sound_running
      ((congrArg Identity.mailboxRx hid).trans hsound.mailboxRx)
      (hkeeps.balanced (hsound.balanced (by simp [hphase]))) hconn' hphase'

end

/-! ### Closing -/

lemma closeSession_of_stranger
    (h : ∀ session, s.sessions.lookup k = some session → session.generation ≠ generation) (now : ℕ)
    (expirySecs : UInt32) (snapshot : SessionSnapshot) (pending : List Delivery) :
    s.closeSession now k generation expirySecs snapshot pending = (s, false) := by
  cases hclose : s.closeSession now k generation expirySecs snapshot pending with
  | mk s' owned =>
    obtain ⟨rfl, rfl, -⟩ | ⟨-, session, hs, hg, -⟩ := closeSession_cases hclose
    · rfl
    · exact absurd hg (h session hs)

/-- The record a connection leaves behind. -/
lemma lookup_closeSession (hs : s.sessions.lookup k = some session)
    (hg : session.generation = generation) (now : ℕ) (expirySecs : UInt32)
    (snapshot : SessionSnapshot) (pending : List Delivery) :
    (s.closeSession now k generation expirySecs snapshot pending).1.sessions.lookup k =
      if expirySecs = 0 then none else some (session.close now expirySecs snapshot pending) := by
  obtain ⟨-, -, hnot⟩ | ⟨-, _, hs', -, hlookup⟩ :=
    closeSession_cases (s := s) (Prod.mk.eta (p := s.closeSession now k generation _ _ _)).symm
  · exact absurd hg (hnot session hs)
  · obtain rfl := some.inj (hs.symm.trans hs')
    rw [hlookup, if_pos rfl]

lemma lookup_armWill_of_ne (s : ShardState) {k' : String} (hk : k' ≠ k) (now generation : ℕ)
    (will : Publish) (delaySecs : UInt32) :
    (s.armWill now k generation will delaySecs).sessions.lookup k' = s.sessions.lookup k' :=
  congrArg session
    ((s.view_armWill now k k' generation will delaySecs).trans (if_neg hk))

/-- A record after a Will was armed on it. -/
lemma lookup_armWill (s : ShardState) (k : String) (now generation : ℕ) (will : Publish)
    (delaySecs : UInt32) : (s.armWill now k generation will delaySecs).sessions.lookup k =
      (s.sessions.lookup k).map fun session =>
        if session.generation = generation then session.armWill will (afterSecs now delaySecs)
        else session := by
  have hlookup := congrArg session (s.view_armWill now k k generation will delaySecs)
  rw [if_pos rfl, willArmed, session_view, session_view] at hlookup
  rw [hlookup]
  cases hs : s.sessions.lookup k with
  | none => exact hs
  | some session =>
    dsimp only
    rw [map_some]
    split
    · rfl
    · exact hs

section

variable (h : srv.Inv) (hc : srv.tasks id = some c)
include h hc

/-- The task that speaks for a session gives it up. -/
lemma Inv.giveUp (hs : srv.shard.sessions.lookup k = some session)
    (hg : session.generation = c.sessionGeneration) (shard : ShardState) (task : Option Connection)
    (hother : ∀ k', k' ≠ k → shard.sessions.lookup k' = srv.shard.sessions.lookup k')
    (hnext : shard.nextGeneration = srv.shard.nextGeneration)
    (hchannels : shard.channels = srv.shard.channels)
    (hrecord : ∀ session', shard.sessions.lookup k = some session' → session'.Lawful ∧
      session'.generation = session.generation ∧ session'.mailbox = none)
    (htask : ∀ c', task = some c' → c'.Sound id ∧ c'.sessionGeneration = c.sessionGeneration ∧
      c'.phase.holding = false) :
    { srv.setTask id task with shard }.Inv := by
  refine h.ownerStep hc hs hg hother hnext hchannels
    (fun session' hs' => ⟨(hrecord session' hs').1, (hrecord session' hs').2.1⟩)
    (fun session' x hs' hm => ?_) fun c' hc' => ?_
  · rw [(hrecord session' hs').2.2] at hm
    exact nomatch hm
  · obtain ⟨hsound, hgen, hphase⟩ := htask c' hc'
    have hrun : c'.phase ≠ .running := fun hp => by
      rw [hp] at hphase
      exact nomatch hphase
    refine ⟨hsound, hgen, .inr hrun, fun hholds => ?_⟩
    have hholding := hholds.phase
    rw [hphase] at hholding
    exact nomatch hholding

/-- A task that never spoke for a session, or no longer does, has no mailbox in the shard. -/
lemma Inv.not_mailbox
    (hnot : ∀ session, c.Holds → srv.shard.sessions.lookup c.clientId = some session →
      session.generation = c.sessionGeneration → session.mailbox ≠ some id)
    (k : String) (session : Session) (hs : srv.shard.sessions.lookup k = some session) :
    session.mailbox ≠ some id := by
  intro hm
  obtain ⟨d, hd, hholds, hk, hg⟩ := h.owned k session id hs hm
  rw [hc, some.injEq] at hd
  subst hd
  exact hnot session hholds (hk.symm ▸ hs) hg.symm hm

/-- A connection ends and has no session to release. -/
lemma Inv.leave (hnot : ∀ session, c.Holds → srv.shard.sessions.lookup c.clientId = some session →
      session.generation = c.sessionGeneration → session.mailbox = none) :
    (srv.setTask id none).Inv :=
  h.removeTask hc (h.not_mailbox hc fun session hholds hs hg hm =>
    nomatch hm.symm.trans (hnot session hholds hs hg))

/-- A connection releases its session. What becomes of the record besides is the will. -/
lemma Inv.close (hphase : c.phase = .ending) (hname : c.clientId ≠ "") {shard shard' : ShardState}
    {task : Option Connection} (hclose : srv.tearDown c = (shard, true))
    (hshard : shard' = shard ∨ ∃ will, shard' = shard.armWill srv.now c.clientId c.sessionGeneration
      will (min c.willDelay c.sessionExpiry))
    (htask : task = none ∨ ∃ will, task = some { c.emptied with phase := .willing will }) :
    { srv.setTask id task with shard := shard' }.Inv := by
  obtain ⟨hnot, -⟩ | ⟨-, session, hs, hg, hlookup⟩ := closeSession_cases hclose
  · exact nomatch hnot
  have hholds : c.Holds := ⟨hname, hg ▸ h.generation_pos _ session hs, by rw [hphase]; rfl⟩
  have hattached := h.attached id c session hc hholds hs hg
  have hclosed := (h.lawful _ session hs).close hattached srv.now c.sessionExpiry c.snapshot
    c.pendingOutbound
  have hposts := srv.shard.posts_closeSession srv.now c.clientId c.sessionGeneration c.sessionExpiry
    c.snapshot c.pendingOutbound
  rw [show (srv.tearDown c).1 = shard from congrArg Prod.fst hclose] at hposts
  have hrecord (session' : Session) (hs' : shard.sessions.lookup c.clientId = some session') :
      session' = session.close srv.now c.sessionExpiry c.snapshot c.pendingOutbound := by
    rw [hlookup, if_pos rfl] at hs'
    exact (some.inj (ite_none_left_eq_some.mp hs').2).symm
  have htask' (c' : Connection) (hc' : task = some c') : c'.Sound id ∧
      c'.sessionGeneration = c.sessionGeneration ∧ c'.phase.holding = false := by
    obtain rfl | ⟨will, rfl⟩ := htask
    · cases hc'
    obtain rfl := some.inj hc'
    exact ⟨⟨(h.sound id c hc).mailboxRx, fun hw => absurd rfl (hw will),
      fun _ => rfl, nofun, nofun⟩,
      rfl, rfl⟩
  rcases hshard with rfl | ⟨will, rfl⟩
  · refine h.giveUp hc hs hg _ task (fun k' hk => (hlookup k').trans (if_neg hk))
      hposts.nextGeneration hposts.channels (fun session' hs' => ?_) htask'
    rw [hrecord session' hs']
    exact ⟨hclosed, rfl, rfl⟩
  · have hwill := shard.posts_armWill srv.now c.clientId c.sessionGeneration will
      (min c.willDelay c.sessionExpiry)
    refine h.giveUp hc hs hg _ task (fun k' hk => ?_)
      (hwill.nextGeneration.trans hposts.nextGeneration)
      (hwill.channels.trans hposts.channels) (fun session' hs' => ?_) htask'
    · exact (lookup_armWill_of_ne shard hk _ _ _ _).trans ((hlookup k').trans (if_neg hk))
    · rw [lookup_armWill] at hs'
      obtain ⟨session₁, hs₁, rfl⟩ := map_eq_some_iff.mp hs'
      rw [hrecord session₁ hs₁]
      split
      · exact ⟨hclosed.armWill rfl hattached.parked _ _, rfl, rfl⟩
      · exact ⟨hclosed, rfl, rfl⟩

end

/-! ### Parking -/

lemma Connection.sound_resume (id shardId : ℕ) (limits : LimitsConfig) (hname : r.clientId ≠ "") :
    (resume id shardId limits r).Sound id where
  mailboxRx := rfl
  balanced _ := rfl
  blank _ := rfl
  resuming _ := ⟨hname, rfl⟩
  claiming := nofun

/-- A parked connection becomes a task again. -/
lemma Inv.resume (h : srv.Inv) (hname : r.clientId ≠ "")
    (hgen : r.sessionGeneration ≤ srv.shard.nextGeneration)
    (hfree : 0 < r.sessionGeneration → ∀ x, srv.generationOf x ≠ some r.sessionGeneration) :
    (srv.spawn fun id => .resume id srv.shardId srv.limits r).Inv :=
  h.spawn hgen hfree (fun hholds => Bool.noConfusion hholds.phase) nofun
    (Connection.sound_resume _ _ _ hname)

lemma parkSession_of_stranger
    (h : ∀ session, s.sessions.lookup k = some session → session.generation = generation →
      session.mailbox = none) (snapshot : SessionSnapshot) :
    s.parkSession k generation snapshot = (s, false) := by
  cases hpark : s.parkSession k generation snapshot with
  | mk s' owned =>
    obtain ⟨heq, -⟩ | ⟨session, hs, hown, -⟩ := parkSession_cases hpark
    · exact heq
    · exact absurd (or_iff_not_imp_left.mpr fun hg => h session hs (not_not.mp hg)) hown

/-- Without its task nobody carries a generation. -/
lemma Inv.free_of_removed (h : srv.Inv) (hc : srv.tasks id = some c)
    (hpos : 0 < c.sessionGeneration) (x : Carrier) :
    (srv.setTask id none).generationOf x ≠ some c.sessionGeneration := by
  rw [generationOf_setTask]
  split
  · exact nofun
  · next hx => exact fun hcarries => hx (h.carried_once _ _ _ hpos hcarries (Inv.carries_task hc))

/-- A connection parks: its task is gone, and may be rebuilt or put in a slot. -/
lemma Inv.park (h : srv.Inv) (hc : srv.tasks id = some c) {shard : ShardState}
    (hflip : srv.flipping c = (shard, true)) : { srv.setTask id none with shard }.Inv ∧
      c.clientId ≠ "" ∧ c.sessionGeneration ≤ shard.nextGeneration ∧ (0 < c.sessionGeneration →
        ∀ x, generationOf { srv.setTask id none with shard } x ≠ some c.sessionGeneration) := by
  obtain ⟨heq, -⟩ | ⟨session, hs, hown, heq⟩ := parkSession_cases hflip
  · cases heq
  cases heq
  rw [not_or, not_not] at hown
  obtain ⟨hg, hm⟩ := hown
  -- the mailbox is this task's, for only one task carries the generation
  obtain ⟨x, hx⟩ := ne_none_iff_exists'.mp hm
  obtain ⟨d, hd, hholds, -, hdg⟩ := h.owned _ session x hs hx
  have hpos : 0 < c.sessionGeneration := hg ▸ h.generation_pos _ session hs
  have hcarries := (hdg.trans hg) ▸ Inv.carries_task hd
  have hxid : x = id :=
    Carrier.task.inj (h.carried_once _ _ _ hpos hcarries (Inv.carries_task hc))
  rw [hxid, hc, some.injEq] at hd
  subst hd
  refine ⟨?_, hholds.clientId, h.carried_le _ _ (Inv.carries_task hc),
    fun _ => h.free_of_removed hc hpos⟩
  refine h.giveUp hc hs hg _ none (fun k' hk => lookup_insert_ne hk) rfl rfl
    (fun session' hs' => ?_) fun _ hn => absurd hn.symm (some_ne_none _)
  obtain rfl := some.inj ((lookup_insert _).symm.trans hs')
  exact ⟨(h.lawful _ session hs).park (isSome_iff_ne_none.mpr hm) _, rfl, rfl⟩

variable {slot : ℕ}

/-- What was taken from the registry left it. -/
lemma takeSlot_spec {p' : Parking} (h : p.takeSlot slot = some (p', r)) :
    p.slots.lookup slot = some r ∧ p'.slots = p.slots.erase slot ∧ p'.nextSlot = p.nextSlot := by
  obtain ⟨r', hr', heq⟩ := map_eq_some_iff.mp h
  cases heq
  exact ⟨hr', rfl, rfl⟩

lemma takeByClient_spec {p' : Parking} {clientId : String} {generation : Option ℕ}
    (h : p.takeByClient clientId generation = some (p', r)) :
    ∃ slot, p.takeSlot slot = some (p', r) := by
  obtain ⟨slot, -, htake⟩ := bind_eq_some_iff.mp h
  exact ⟨slot, (filter_eq_some_iff.mp htake).1⟩

section

variable (h : srv.Inv) (htake : srv.parking.takeSlot slot = some (p, r))
include h htake

/-- A slot is freed: nobody carries its generation any more. -/
lemma Inv.takeSlot : { srv with parking := p }.Inv ∧
      (0 < r.sessionGeneration →
        ∀ x, generationOf { srv with parking := p } x ≠ some r.sessionGeneration) := by
  obtain ⟨hr, hslots, hnext⟩ := takeSlot_spec htake
  have hlookup (slot' : ℕ) : p.slots.lookup slot' =
      if slot' = slot then none else srv.parking.slots.lookup slot' := by
    rw [hslots]
    split
    · next heq => rw [heq, lookup_erase]
    · next hne => exact lookup_erase_ne hne
  refine ⟨h.freeSlots (fun slot' r' hr' => ?_) hnext, fun hpos x hx => ?_⟩
  · rw [hlookup] at hr'
    split at hr'
    · cases hr'
    · exact hr'
  · have hold : srv.generationOf (.slot slot) = some r.sessionGeneration := by
      rw [generationOf, hr, map_some]
    cases x with
    | task id =>
      have hx : srv.generationOf (.task id) = some r.sessionGeneration := hx
      exact Carrier.noConfusion (h.carried_once _ _ _ hpos hold hx)
    | slot slot' =>
      simp only [generationOf, hlookup] at hx
      split at hx
      · cases hx
      · next hne => exact hne (Carrier.slot.inj (h.carried_once _ _ _ hpos hx hold))

/-- A parked connection is rebuilt. -/
lemma Inv.wake :
    ({ srv with parking := p }.spawn fun id => .resume id srv.shardId srv.limits r).Inv := by
  obtain ⟨hfreed, hfree⟩ := h.takeSlot htake
  obtain ⟨hr, -, -⟩ := takeSlot_spec htake
  have hcarried : srv.generationOf (.slot slot) = some r.sessionGeneration := by
    rw [generationOf, hr, map_some]
  exact hfreed.resume (h.named slot r hr) (h.carried_le _ _ hcarried) hfree

end

/-- A command is taken from the queue of the parking task. -/
lemma Inv.popCmd (h : srv.Inv) (rest : List UnparkCmd) :
    { srv with shard := { srv.shard with unparkTx := some rest } }.Inv :=
  h.tame (.of_eq rfl rfl rfl) rfl rfl rfl

/-- A parked connection is reaped: its session is suspended, with the Will armed. -/
lemma calm_suspendParked_armWill {now : ℕ} {expirySecs : UInt32}
    (howned : (s.suspendParked now k generation expirySecs).2 = true) (will : Publish)
    (delaySecs : UInt32) :
    s.Calm ((s.suspendParked now k generation expirySecs).1.armWill now k generation will
      delaySecs) := by
  obtain ⟨hnot, -⟩ | ⟨-, session, hs, hown, -⟩ :=
    suspendParked_cases (s := s) (Prod.mk.eta (p := s.suspendParked now k generation _)).symm
  · exact nomatch howned.symm.trans hnot
  rw [not_or, not_not, Bool.not_eq_false] at hown
  obtain ⟨hg, hp⟩ := hown
  have hposts := (s.posts_suspendParked now k generation expirySecs).trans
    (posts_armWill _ now k generation will delaySecs)
  refine .of_posts hposts fun k' => ?_
  have hview := s.view_suspendParked now k k' generation expirySecs
  rw [view_armWill, hview]
  split
  · next heq =>
    subst heq
    intro session' hs'
    refine ⟨session, hs, ?_⟩
    have hrecord : session' = (session.suspend now expirySecs).armWill will
        (afterSecs now delaySecs) := by
      have hsession : (s.view k').session = some session := hs
      simp only [suspended, hsession, hg, hp] at hs'
      by_cases hzero : expirySecs = 0
      · simp [hzero, willArmed, discarded, marked] at hs'
      · simpa [hzero, willArmed, marked, suspend, hg, eq_comm]
          using hs'
    rw [hrecord]
    have hsuspend := evolves_suspend hp now expirySecs
    exact
      { generation := rfl
        mailbox := .inl rfl
        lawful := fun h => (hsuspend.lawful h).armWill (h.parked hp).1 rfl _ _
        attached := fun id ha => by
          rw [ha.parked] at hp
          cases hp }
  · exact .refl _

lemma Inv.broadcast (h : srv.Inv) (chance : Chance) (message : Publish) :
    (srv.broadcast env chance message).Inv :=
  h.tame (srv.shard.calm_deliverLocal env.hash message none).toTame rfl rfl rfl

/-- A parked connection is closed, and its session suspended if it is still there. -/
lemma Inv.reap (h : srv.Inv) (htake : srv.parking.takeSlot slot = some (p, r))
    {shard : ShardState} {owned : Bool} (hsuspend : srv.suspending r = (shard, owned)) :
    { srv with parking := p, shard }.Inv := by
  have hcalm := srv.shard.calm_suspendParked srv.now r.clientId r.sessionGeneration r.sessionExpiry
  rw [show (srv.suspending r).1 = shard from congrArg Prod.fst hsuspend] at hcalm
  exact (h.takeSlot htake).1.tame hcalm.toTame rfl rfl rfl

section

variable (h : srv.Inv) (hc : srv.tasks id = some c)
include h hc

/-- A rebuilt connection takes its session back. -/
lemma Inv.reattached {c' : Connection} (hs : srv.shard.sessions.lookup c.clientId = some session)
    (hg : session.generation = c.sessionGeneration) (hp : session.parked = true)
    (hclient : c'.clientId = c.clientId) (hgen : c'.sessionGeneration = c.sessionGeneration)
    (hholds : c'.Holds) (hconn : c'.connected = true) (hsound : c'.Sound id) :
    { srv.setTask id (some c') with
      shard := { srv.shard with
        sessions := srv.shard.sessions.insert c.clientId (session.reattach id) } }.Inv := by
  have hlawful := h.lawful _ session hs
  have hrecord (session' : Session) (hs' : (srv.shard.sessions.insert c.clientId
      (session.reattach id)).lookup c.clientId = some session') : session' =
        session.reattach id := by
    rw [lookup_insert, some.injEq] at hs'
    exact hs'.symm
  refine h.ownerStep hc hs hg (fun k' hk => lookup_insert_ne hk) rfl rfl
    (fun session' hs' => ?_) (fun session' x hs' hm => ?_) fun d hd => ?_
  · rw [hrecord session' hs']
    exact ⟨hlawful.reattach hp id, rfl⟩
  · rw [hrecord session' hs'] at hm
    exact ⟨(some.inj hm).symm, c', rfl, hholds, hclient⟩
  · rw [← some.inj hd]
    refine ⟨hsound, hgen, .inl hconn, fun _ => ⟨hclient, fun session' hs' => ?_⟩⟩
    rw [hrecord session' hs']
    exact hlawful.attached_reattach hp id

lemma Inv.reattach (hphase : c.phase = .resuming) (chance : Chance) {shard : ShardState}
    {snapshot : SessionSnapshot} {queued : List Delivery}
    (hreattach : srv.shard.reattachParked c.clientId c.sessionGeneration id =
      (shard, some (snapshot, queued))) :
    (srv.finishTurn id (.ofConn shard
      (({ c with mailboxTx := none, phase := .running }.restore snapshot).resumeDelivery env
        chance.flushFails queued))).Inv := by
  have hsound := h.sound id c hc
  obtain ⟨hname, hconn⟩ := hsound.resuming hphase
  obtain ⟨heq, -⟩ | ⟨session, hs, hown, heq⟩ := reattachParked_cases hreattach
  · cases heq
  cases heq
  rw [not_or, not_not, Bool.not_eq_false] at hown
  have hkeeps := (@keeps_restore { c with mailboxTx := none, phase := .running }
    (hsound.blank (.inr hphase)) (session.snapshot.getD {})).trans
    (keeps_resumeDelivery env _ chance.flushFails session.offlineQueue)
  generalize resumeDelivery env _ chance.flushFails session.offlineQueue = turn at hkeeps ⊢
  have hid := hkeeps.identity
  have hrunning : turn.1.phase = .running := congrArg Identity.phase hid
  have hconn' : turn.1.connected = true := (congrArg Identity.connected hid).trans hconn
  have hsound' : turn.1.Sound id := Connection.sound_running
    ((congrArg Identity.mailboxRx hid).trans hsound.mailboxRx)
    (hkeeps.balanced (hsound.balanced (by simp [hphase]))) hconn' hrunning
  have hpos : 0 < turn.1.sessionGeneration := by
    have hpos := h.generation_pos _ session hs
    rw [hown.1] at hpos
    exact hpos.trans_eq (congrArg Identity.sessionGeneration hid).symm
  obtain ⟨phase, hsettled, hwhere⟩ := exists_settle_eq turn
  have hsettled' := hsound'.settle (by rw [hrunning]; rfl) turn.2
  refine Inv.tame (h.reattached hc hs hown.1 hown.2 ?_ ?_ ⟨?_, ?_, ?_⟩ ?_ hsettled') (.refl _)
    rfl rfl rfl
  all_goals rw [hsettled]
  · exact congrArg Identity.clientId hid
  · exact congrArg Identity.sessionGeneration hid
  · exact (congrArg Identity.clientId hid).trans_ne hname
  · exact hpos
  · rcases hwhere with hw | hw
    · rw [hw, hrunning]
      rfl
    · rw [hw]
      rfl
  · exact hconn'

/-- The session is gone when the connection wakes up. -/
lemma Inv.reattachLost (hphase : c.phase = .resuming) :
    (srv.setTask id (some
      { c with mailboxTx := none, will := none, clientId := "", phase := .ending })).Inv := by
  have hsound := h.sound id c hc
  have hnot : ¬ c.Holds := fun hholds => by
    have := hholds.phase
    rw [hphase] at this
    exact nomatch this
  exact h.replaceTask hc rfl ⟨fun hh => absurd rfl hh.clientId, fun hh => absurd hh hnot⟩
    (fun hh => absurd hh hnot) nofun ⟨hsound.mailboxRx, fun _ => hsound.balanced (by simp [hphase]),
      fun _ => hsound.blank (.inr hphase), nofun, nofun⟩

end

/-! ### Everything else -/

lemma Inv.sweep (h : srv.Inv) (links : List (ℕ × Publish)) :
    { srv with shard := srv.sweptShard env, links }.Inv := by
  have hcalm : srv.shard.Calm (srv.sweptShard env) :=
    (srv.shard.calm_sweepExpired srv.now).trans
      (Lib.foldl_rel .refl .trans (fun s will => s.calm_deliverLocal env.hash will none) _ _)
  exact h.tame hcalm.toTame rfl rfl rfl

lemma calm_shutDown (srv : Server) : srv.shard.Calm srv.shutDown.shard :=
  srv.shard.calm_shutdownConnections.trans
    (Lib.foldl_rel .refl .trans (fun s (e : Sigma fun _ : ℕ => ResumeState) =>
      s.calm_suspendParked srv.now e.2.clientId e.2.sessionGeneration e.2.sessionExpiry) _ _)

section

variable (h : srv.Inv)
include h

lemma Inv.shutDown : srv.shutDown.Inv := by
  have hfreed : { srv with parking := { srv.parking with slots := ∅, byClient := ∅ } }.Inv :=
    h.freeSlots (fun slot r hr => nomatch hr) rfl
  exact hfreed.tame srv.calm_shutDown.toTame rfl rfl rfl

lemma Inv.accept (tlsIdentity : TlsIdentity) :
    (srv.spawn fun id => .new id srv.shardId srv.limits tlsIdentity).Inv :=
  h.spawn (Nat.zero_le _) (fun h => absurd h (Nat.lt_irrefl 0))
    (fun hholds => hholds.clientId rfl) (fun _ => rfl)
    ⟨rfl, fun _ => rfl, fun _ => rfl, nofun, nofun⟩

/-- A persisted session is installed, in place of whatever the client had. -/
lemma Inv.loadSession (now : ℕ) (ps : PersistedSession) :
    { srv with shard := srv.shard.loadSession now ps }.Inv := by
  have hlookup (k : String) (session : Session)
      (hs : (srv.shard.loadSession now ps).sessions.lookup k = some session) :
      (k = ps.clientId ∧ session.Lawful ∧ session.generation = srv.shard.nextGeneration + 1 ∧
          session.mailbox = none) ∨
        srv.shard.sessions.lookup k = some session := by
    have hs := (lookup_insert_eq_ite ..).symm.trans hs
    split at hs
    · next hk =>
      refine .inl ⟨hk, ?_⟩
      rw [← some.inj hs]
      exact ⟨⟨nofun, nofun, by simp, nofun⟩, rfl, rfl⟩
    · exact .inr hs
  -- the new generation is above all others
  have hnew (k : String) (session : Session) (hs : srv.shard.sessions.lookup k = some session) :
      session.generation ≠ srv.shard.nextGeneration + 1 :=
    (Nat.lt_succ_of_le (h.generation_le k session hs)).ne
  exact
    { h with
      carried_le := fun x g hx => (h.carried_le x g hx).trans (Nat.le_succ _)
      lawful := fun k session hs => by
        rcases hlookup k session hs with ⟨-, hlawful, -⟩ | hold
        · exact hlawful
        · exact h.lawful k session hold
      generation_pos := fun k session hs => by
        rcases hlookup k session hs with ⟨-, -, hg, -⟩ | hold
        · exact hg ▸ Nat.succ_pos _
        · exact h.generation_pos k session hold
      generation_le := fun k session hs => by
        rcases hlookup k session hs with ⟨-, -, hg, -⟩ | hold
        · exact hg.le
        · exact (h.generation_le k session hold).trans (Nat.le_succ _)
      distinct := fun k₁ k₂ s₁ s₂ hs₁ hs₂ heq => by
        rcases hlookup k₁ s₁ hs₁ with ⟨hk₁, -, hg₁, -⟩ | hold₁ <;>
          rcases hlookup k₂ s₂ hs₂ with ⟨hk₂, -, hg₂, -⟩ | hold₂
        · rw [hk₁, hk₂]
        · exact absurd (heq.symm.trans hg₁) (hnew k₂ s₂ hold₂)
        · exact absurd (heq.trans hg₂) (hnew k₁ s₁ hold₁)
        · exact h.distinct k₁ k₂ s₁ s₂ hold₁ hold₂ heq
      attached := fun id c session hc hholds hs heq => by
        rcases hlookup _ session hs with ⟨-, -, hg, -⟩ | hold
        · have hle := h.carried_le _ _ (Inv.carries_task hc)
          rw [← heq, hg] at hle
          exact absurd hle (Nat.not_succ_le_self _)
        · exact h.attached id c session hc hholds hold heq
      owned := fun k session id hs hm => by
        rcases hlookup k session hs with ⟨-, -, -, hnone⟩ | hold
        · rw [hnone] at hm
          exact nomatch hm
        · exact h.owned k session id hold hm }

lemma Inv.load (sessions : List PersistedSession) (now : ℕ) :
    { srv with shard := srv.shard.loadSessions sessions now }.Inv := by
  induction sessions generalizing srv with
  | nil => exact h
  | cons ps sessions ih => exact ih (h.loadSession now ps)

lemma Inv.move {srv' : Server} {op : ServerOp} (hmove : Move env srv op srv') : srv'.Inv := by
  have hended {c : Connection} (hphase : c.phase = .running) : c.phase.holding = true := by
    rw [hphase]
    rfl
  cases hmove with
  | idle => exact h
  | elapse => exact h.tame (.refl _) rfl rfl rfl
  | accept tlsIdentity => exact h.accept tlsIdentity
  | packet p chance hc hphase => exact h.packet hc hphase p chance
  | receive hc hphase hchannel => exact h.receive hc hphase hchannel
  | hangUp _ _ hc hphase | mailboxClosed hc hphase | shutDownNoticed hc hphase =>
    exact h.setPhase hc (hended hphase) _ _ .ending rfl nofun nofun
  | @claimGoesOn _ remaining c assigned _ _ hc hphase =>
    have htask := h.setPhase hc (by rw [hphase]; rfl) c.outbound c.will
      (.claiming (remaining - 1) assigned) rfl nofun fun _ _ _ =>
        (h.sound _ c hc).claiming _ _ hphase
    exact htask.tame (.of_eq rfl rfl rfl) rfl rfl rfl
  | @claimReply id _ _ _ reply rest chance hc hphase =>
    have hpopped : { srv with shard := { srv.shard with
        claimReplies := Function.update srv.shard.claimReplies id rest } }.Inv :=
      h.tame (.of_eq rfl rfl rfl) rfl rfl rfl
    exact hpopped.claimed hc hphase chance reply
  | claimTimeout chance hc hphase => exact h.claimed hc hphase chance none
  | closeNameless hc _ hname => exact h.leave hc fun _ hholds => absurd hname hholds.clientId
  | @closeQuiet _ _ _ owned hc hphase hname hclose =>
    cases owned with
    | true => exact h.close hc hphase hname hclose (.inl rfl) (.inl rfl)
    | false =>
      obtain ⟨-, rfl, hnot⟩ | ⟨hown, -⟩ := closeSession_cases hclose
      · exact h.leave hc fun session _ hs hg => absurd hg (hnot session hs)
      · exact nomatch hown
  | closeWill hc hphase hname hclose =>
    exact h.close hc hphase hname hclose (.inl rfl) (.inr ⟨_, rfl⟩)
  | closeArm hc hphase hname hclose =>
    exact h.close hc hphase hname hclose (.inr ⟨_, rfl⟩) (.inl rfl)
  | publishWill chance hc hphase =>
    refine (h.leave hc fun _ hholds => ?_).tame
      (srv.shard.calm_deliverLocal env.hash _ none).toTame rfl rfl rfl
    have hholding := hholds.phase
    rw [hphase] at hholding
    exact nomatch hholding
  | parkDisplaced _ hc _ _ _ hflip =>
    obtain ⟨heq, hnot⟩ | ⟨_, -, -, heq⟩ := parkSession_cases hflip <;> cases heq
    exact h.leave hc fun session _ hs hg => (hnot session hs).resolve_left (not_not.mpr hg)
  | parkFails hc _ _ _ hflip =>
    obtain ⟨hparked, hname, hle, hfree⟩ := h.park hc hflip
    exact hparked.resume (r := Connection.intoParts _) hname hle hfree
  | park hc _ _ _ hflip =>
    obtain ⟨hparked, hname, hle, hfree⟩ := h.park hc hflip
    exact hparked.fillSlot (r := Connection.intoParts _) hname hle hfree
  | @wakeMissed _ rest | @dismissMissed _ _ rest => exact h.popCmd rest
  | @wake _ rest _ _ _ htaken =>
    obtain ⟨_, htake⟩ := takeByClient_spec htaken
    exact (h.popCmd rest).wake htake
  | @dismiss _ _ rest _ _ _ htaken =>
    obtain ⟨_, htake⟩ := takeByClient_spec htaken
    exact ((h.popCmd rest).takeSlot htake).1
  | ingress htake => exact h.wake htake
  | reapQuiet _ htake hsuspend => exact h.reap htake hsuspend
  | @reapWill _ _ _ _ will chance htake hsuspend =>
    exact (h.reap htake hsuspend).broadcast chance will
  | reapArm _ htake hsuspend =>
    have hcalm := calm_suspendParked_armWill (congrArg Prod.snd hsuspend)
    rw [congrArg Prod.fst hsuspend] at hcalm
    exact (h.takeSlot htake).1.tame (hcalm _ _).toTame rfl rfl rfl
  | reattachLost _ hc hphase hreattach =>
    obtain ⟨heq, -⟩ | ⟨_, -, -, heq⟩ := reattachParked_cases hreattach <;> cases heq
    exact h.reattachLost hc hphase
  | reattach chance hc hphase hreattach => exact h.reattach hc hphase chance hreattach
  | mesh msg => exact h.tame (srv.shard.tame_handleMeshMsg env.hash msg) rfl rfl rfl
  | publish message chance => exact h.broadcast chance message
  | sweep => exact h.sweep _
  | shed order max => exact h.tame (srv.shard.calm_shedConnections order max).toTame rfl rfl rfl
  | load sessions => exact h.load sessions srv.now
  | drainWal => exact h.tame (.of_eq rfl rfl rfl) rfl rfl rfl
  | shutDown => exact h.shutDown

/-- Every piece of work keeps the invariant. -/
lemma Inv.apply (op : ServerOp) : (srv.apply env op).Inv := h.move (move_apply env srv op)

end

/-! ### The law of session records -/

/-- The states a shard gets to, when each piece of work meets `P`. -/
abbrev Reached (env : Env) (P : Server → ServerOp → Prop) : Server → Server → Prop :=
  Lib.Reached (fun srv op => srv.apply env op) P

/-- A shard before its first connection. -/
structure Started (srv : Server) : Prop where
  sessions : srv.shard.sessions = ∅
  channels : ∀ id, srv.shard.channels id = []
  tasks : ∀ id, srv.tasks id = none
  slots : srv.parking.slots = ∅

lemma Started.inv (h : srv.Started) : srv.Inv := by
  have htask (id : ℕ) (c : Connection) : srv.tasks id ≠ some c := by simp [h.tasks id]
  have hslot (slot : ℕ) : srv.parking.slots.lookup slot = none := by rw [h.slots]; rfl
  have hsession (k : String) (session : Session) : srv.shard.sessions.lookup k ≠ some session := by
    rw [h.sessions]
    exact nofun
  have hcarried (x : Carrier) (g : ℕ) : srv.generationOf x ≠ some g := by
    cases x with
    | task id => simp [generationOf, h.tasks id]
    | slot slot => simp [generationOf, hslot slot]
  exact
    { sound := fun id c hc => absurd hc (htask id c)
      tasks_lt := fun id _ => h.tasks id
      slots_lt := fun slot _ => hslot slot
      named := fun slot r hr => by simp [hslot slot] at hr
      unopened := fun id c hc => absurd hc (htask id c)
      carried_le := fun x g hx => absurd hx (hcarried x g)
      carried_once := fun x _ g _ hx => absurd hx (hcarried x g)
      lawful := fun k session hs => absurd hs (hsession k session)
      generation_pos := fun k session hs => absurd hs (hsession k session)
      generation_le := fun k session hs => absurd hs (hsession k session)
      distinct := fun k _ session _ hs => absurd hs (hsession k session)
      attached := fun id c _ hc => absurd hc (htask id c)
      owned := fun k session _ hs => absurd hs (hsession k session)
      quiet := fun id hne => absurd (h.channels id) hne }

lemma Reached.inv {P : Server → ServerOp → Prop} {srv₀ : Server} (h₀ : srv₀.Started)
    (hrun : Reached env P srv₀ srv) : srv.Inv :=
  Lib.Reached.inv Inv h₀.inv (fun _ op h _ => h.apply op) hrun

/-- The law of a shard's session records. -/
structure SessionLaw (s : ShardState) : Prop where
  lawful : ∀ k session, s.sessions.lookup k = some session → session.Lawful
  generation : ∀ k session, s.sessions.lookup k = some session →
    1 ≤ session.generation ∧ session.generation ≤ s.nextGeneration
  distinct : ∀ k k' session session', s.sessions.lookup k = some session →
    s.sessions.lookup k' = some session' → session.generation = session'.generation → k = k'

/-- The sweep leaves the record of a connected or parked session as it is. -/
lemma lookup_sweepExpired (hs : s.sessions.lookup k = some session) (hlawful : session.Lawful)
    (honline : session.online = true) (now : ℕ) :
    (s.sweepExpired now).1.sessions.lookup k = some session := by
  have hexpired : session.expired now = false := by
    rw [online, Bool.or_eq_true] at honline
    rcases honline with hm | hp
    · simp [expired, (hlawful.live hm).2.2.1]
    · simp [expired, (hlawful.parked hp).2.2]
  have hwill : session.pendingWill = none := by
    by_contra hne
    obtain ⟨hm, hp⟩ := hlawful.will (isSome_iff_ne_none.mpr hne)
    simp [online, hm, hp] at honline
  have hlookup := congrArg ClientView.session (s.view_sweepExpired now k)
  rw [swept, session_view, session_view, hs] at hlookup
  rw [hlookup]
  simp [hexpired, fireWill, willDue, hwill]

/-- In every state of every run each session record obeys the law of its mode, generations are
distinct and never ahead of the counter, and no sweep touches a connected or parked session. -/
theorem session_lifecycle (env : Env) {srv₀ srv : Server} (h₀ : srv₀.Started)
    (hrun : Reached env (fun _ _ => True) srv₀ srv) :
    SessionLaw srv.shard ∧ ∀ now k session, srv.shard.sessions.lookup k = some session →
      session.online = true → (srv.shard.sweepExpired now).1.sessions.lookup k = some session := by
  have h := Reached.inv h₀ hrun
  refine ⟨⟨h.lawful, fun k session hs => ?_, h.distinct⟩, fun now k session hs honline => ?_⟩
  · exact ⟨h.generation_pos k session hs, h.generation_le k session hs⟩
  · exact lookup_sweepExpired hs (h.lawful k session hs) honline now

end

/-- A broker without users, on which everybody may do everything. -/
def openEnv : Env where
  wire := mqttWire
  -- a CONNACK as the default limits make it, or a bare acknowledgement
  packetLen := fun
    | .connAck .. => 25
    | _ => 4
  hash := fun _ => 0
  hashing := { sha256Hex := id, argon2Verify := fun _ _ => false }
  auth := { allowAnonymous := true, users := ∅ }

/-- A shard with its parking task. -/
def freshServer : Server := { shard := { unparkTx := some [] } }

lemma freshServer_started : freshServer.Started :=
  ⟨rfl, fun _ => rfl, fun _ => rfl, rfl⟩

/-- A client connects and its connection parks. -/
def parkedServer : Server :=
  Lib.run (fun srv op => srv.apply openEnv op) freshServer
    [.accept .none, .packet 0 (.connect { clientId := "a", cleanSession := false }) {},
      .park 0 false]

theorem session_lifecycle_parkedServer :
    (parkedServer.shard.sessions.lookup "a").any (·.parked) = true ∧
      SessionLaw parkedServer.shard :=
  ⟨by decide, (session_lifecycle openEnv freshServer_started
    (Lib.reached_run freshServer _)).1⟩

/-- In every state of every run the mailbox of a session is read by a connection that speaks for it,
and no other connection, running or parked, carries the generation of that session. -/
theorem session_has_one_connection (env : Env) {srv₀ srv : Server} (h₀ : srv₀.Started)
    (hrun : Reached env (fun _ _ => True) srv₀ srv) {k : String} {session : Session} {id : ℕ}
    (hs : srv.shard.sessions.lookup k = some session) (hm : session.mailbox = some id) :
    (∃ c, srv.tasks id = some c ∧ c.Holds ∧ c.clientId = k) ∧
      ∀ x, srv.generationOf x = some session.generation ↔ x = .task id := by
  have h := Reached.inv h₀ hrun
  obtain ⟨c, hc, hholds, hk, hgen⟩ := h.owned k session id hs hm
  have hcarries : srv.generationOf (.task id) = some session.generation := by
    rw [Inv.carries_task hc, hgen]
  refine ⟨⟨c, hc, hholds, hk⟩, fun x => ⟨fun hx => ?_, fun hx => hx ▸ hcarries⟩⟩
  exact h.carried_once x _ _ (h.generation_pos k session hs) hx hcarries

theorem session_has_one_connection_connected :
    let srv := Lib.run (fun srv op => srv.apply openEnv op) freshServer
      [.accept .none, .packet 0 (.connect { clientId := "a", cleanSession := false }) {}]
    ∃ c, srv.tasks 0 = some c ∧ c.Holds ∧ c.clientId = "a" :=
  (session_has_one_connection openEnv freshServer_started (Lib.reached_run freshServer _) rfl rfl).1

end Server

end Rusquitto
