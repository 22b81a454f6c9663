import Rusquitto.Server.Lifecycle

/-!
# Who speaks for a session

Exactly one connection, running or parked, speaks for a generation (`Server.Inv`). Steps of the
shard alone keep this (`Inv.tame`), and so does a connection that stays who it is
(`Inv.replaceTask`). What remains are the four steps in which a connection and its session change
together: open, close, park and re-attach.
-/

namespace Rusquitto

open Option

variable {c c' : Connection} {id : ℕ}

/-! ### The invariant of a server -/

/-- The phases in which a task speaks for its session. -/
def Phase.holding : Phase → Bool
  | .running | .claiming .. | .ending => true
  | .resuming | .willing .. => false

/-- The task has opened a session, or re-attached to one, and not yet released it. -/
structure Connection.Holds (c : Connection) : Prop where
  clientId : c.clientId ≠ ""
  generation : 0 < c.sessionGeneration
  phase : c.phase.holding = true

/-- What holds of a task on its own: it reads the mailbox it is known by, its accounts are in order
until it gives its session up, and empty before it takes its session on. -/
structure Connection.Sound (c : Connection) (id : ℕ) : Prop where
  mailboxRx : c.mailboxRx = id
  balanced : (∀ will, c.phase ≠ .willing will) → c.Balanced
  blank : c.connected = false ∨ c.phase = .resuming → c.inflight = ∅
  resuming : c.phase = .resuming → c.clientId ≠ "" ∧ c.connected = true
  claiming : ∀ remaining assigned, c.phase = .claiming remaining assigned → c.connected = false

/-- A step in the event loop. -/
lemma Connection.Sound.keeps (h : c.Sound id) (hkeeps : c.Keeps c')
    (hconnected : c.connected = true) (hphase : c.phase ≠ .resuming) : c'.Sound id := by
  have hid := hkeeps.identity
  have hphase' : c'.phase ≠ .resuming := fun h =>
    hphase ((congrArg Identity.phase hid).symm.trans h)
  refine
    { mailboxRx := (congrArg Identity.mailboxRx hid).trans h.mailboxRx
      balanced := fun hw => hkeeps.balanced
        (h.balanced fun will hp => hw will ((congrArg Identity.phase hid).trans hp))
      blank := fun hblank => ?_
      resuming := fun h => absurd h hphase'
      claiming := fun remaining assigned hp => by
        have hc := h.claiming remaining assigned ((congrArg Identity.phase hid).symm.trans hp)
        rw [hconnected] at hc
        exact nomatch hc }
  rcases hblank with hblank | hblank
  · rw [show c'.connected = c.connected from congrArg Identity.connected hid, hconnected] at hblank
    exact nomatch hblank
  · exact absurd hblank hphase'

/-- An error ends the event loop. -/
lemma Connection.Sound.settle (h : c.Sound id) (hphase : c.phase.holding = true)
    (outcome : Outcome) : (settle (c, outcome)).Sound id := by
  have hwill : ∀ will, c.phase ≠ .willing will := fun will hp => by
    rw [hp] at hphase
    exact nomatch hphase
  unfold Connection.settle
  split
  · exact h
  · exact ⟨h.mailboxRx, fun _ => h.balanced hwill,
      fun hblank => h.blank (.inl (hblank.resolve_right nofun)), nofun,
      nofun⟩

/-- What vetting leaves of a connection that has not connected. -/
lemma Connection.Sound.vetted (h : c.Sound id) (hvet : Connection.Vetted c c')
    (hphase : c.phase = .running) (hconn : c.connected = false) : c'.mailboxRx = id ∧ c'.Balanced ∧
      c'.inflight = ∅ ∧ c'.connected = false ∧ c'.sessionGeneration = c.sessionGeneration := by
  obtain ⟨_, _, _, _, _, _, _, _, rfl⟩ := hvet
  exact ⟨h.mailboxRx, h.balanced (by simp [hphase]), h.blank (.inl hconn), hconn, rfl⟩

/-- Where a generation is carried: by a connection task, or by a parked connection. -/
inductive Carrier where
  | task (id : ℕ)
  | slot (slot : ℕ)
  deriving DecidableEq

namespace Server

/-- The generation a task or parked connection carries. -/
def generationOf (srv : Server) : Carrier → Option ℕ
  | .task id => (srv.tasks id).map (·.sessionGeneration)
  | .slot slot => (srv.parking.slots.lookup slot).map (·.sessionGeneration)

/-- Sessions and the connections that speak for them. -/
structure Inv (srv : Server) : Prop where
  sound : ∀ id c, srv.tasks id = some c → c.Sound id
  tasks_lt : ∀ id, srv.nextChannel ≤ id → srv.tasks id = none
  slots_lt : ∀ slot, srv.parking.nextSlot ≤ slot → srv.parking.slots.lookup slot = none
  named : ∀ slot r, srv.parking.slots.lookup slot = some r → r.clientId ≠ ""
  /-- Before its CONNECT a connection has no generation. -/
  unopened : ∀ id c, srv.tasks id = some c → c.connected = false → c.phase = .running →
    c.sessionGeneration = 0
  carried_le : ∀ x g, srv.generationOf x = some g → g ≤ srv.shard.nextGeneration
  carried_once : ∀ x y g, 0 < g → srv.generationOf x = some g → srv.generationOf y = some g → x = y
  lawful : ∀ k session, srv.shard.sessions.lookup k = some session → session.Lawful
  generation_pos : ∀ k session, srv.shard.sessions.lookup k = some session → 0 < session.generation
  generation_le : ∀ k session, srv.shard.sessions.lookup k = some session →
    session.generation ≤ srv.shard.nextGeneration
  distinct : ∀ k k' session session', srv.shard.sessions.lookup k = some session →
    srv.shard.sessions.lookup k' = some session' → session.generation = session'.generation → k = k'
  attached : ∀ id c session, srv.tasks id = some c → c.Holds →
    srv.shard.sessions.lookup c.clientId = some session →
    session.generation = c.sessionGeneration → session.Attached id
  /-- A live mailbox has its task. -/
  owned : ∀ k session id, srv.shard.sessions.lookup k = some session → session.mailbox = some id →
    ∃ c, srv.tasks id = some c ∧ c.Holds ∧ c.clientId = k ∧
      c.sessionGeneration = session.generation
  /-- Nothing is placed in the mailbox of a connection before its CONNECT. -/
  quiet : ∀ id, srv.shard.channels id ≠ [] → id < srv.nextChannel ∧
    ∀ c, srv.tasks id = some c → c.connected = true ∨ c.phase ≠ .running

variable {srv srv' : Server} {task : Option Connection}

lemma Inv.lt_nextChannel (h : srv.Inv) (hc : srv.tasks id = some c) : id < srv.nextChannel := by
  by_contra hge
  rw [h.tasks_lt id (not_lt.mp hge)] at hc
  exact nomatch hc

lemma Inv.carries_task (hc : srv.tasks id = some c) :
    srv.generationOf (.task id) = some c.sessionGeneration := by
  rw [generationOf, hc, map_some]

/-- The task of a live mailbox is past its CONNECT. -/
lemma Inv.live (h : srv.Inv) (hl : srv.shard.Live id) : id < srv.nextChannel ∧
    ∀ c, srv.tasks id = some c → c.connected = true ∨ c.phase ≠ .running := by
  obtain ⟨k, session, hs, hm⟩ := hl
  obtain ⟨c, hc, hholds, -⟩ := h.owned k session id hs hm
  refine ⟨h.lt_nextChannel hc, fun c' hc' => ?_⟩
  rw [hc, some.injEq] at hc'
  subst hc'
  by_contra hnot
  rw [not_or, Bool.not_eq_true, not_not] at hnot
  exact hholds.generation.ne' (h.unopened id c hc hnot.1 hnot.2)

/-- A step of the shard alone. -/
lemma Inv.tame (h : srv.Inv) (ht : srv.shard.Tame srv'.shard) (htasks : srv'.tasks = srv.tasks)
    (hparking : srv'.parking = srv.parking) (hnext : srv'.nextChannel = srv.nextChannel) :
    srv'.Inv := by
  have hgen : srv'.generationOf = srv.generationOf := by
    funext x
    cases x with
    | task id => rw [generationOf, htasks, generationOf]
    | slot slot => rw [generationOf, hparking, generationOf]
  -- every record of the new state comes from one of the old state
  have hold (k : String) (session' : Session) (hs : srv'.shard.sessions.lookup k = some session') :
      ∃ session, srv.shard.sessions.lookup k = some session ∧ session.Evolves session' :=
    ht.evolves k session' hs
  refine
    { sound := by rw [htasks]; exact h.sound
      tasks_lt := by rw [htasks, hnext]; exact h.tasks_lt
      slots_lt := by rw [hparking]; exact h.slots_lt
      named := by rw [hparking]; exact h.named
      unopened := by rw [htasks]; exact h.unopened
      carried_le := by rw [hgen, ht.nextGeneration]; exact h.carried_le
      carried_once := by rw [hgen]; exact h.carried_once
      lawful := fun k session' hs => ?_
      generation_pos := fun k session' hs => ?_
      generation_le := fun k session' hs => ?_
      distinct := fun k k' s₁ s₂ hs₁ hs₂ heq => ?_
      attached := fun id c session' hc hholds hs heq => ?_
      owned := fun k session' id hs hm => ?_
      quiet := fun id hne => ?_ }
  · obtain ⟨session, hs, he⟩ := hold k session' hs
    exact he.lawful (h.lawful k session hs)
  · obtain ⟨session, hs, he⟩ := hold k session' hs
    exact he.generation ▸ h.generation_pos k session hs
  · obtain ⟨session, hs, he⟩ := hold k session' hs
    rw [he.generation, ht.nextGeneration]
    exact h.generation_le k session hs
  · obtain ⟨t₁, ht₁, he₁⟩ := hold k s₁ hs₁
    obtain ⟨t₂, ht₂, he₂⟩ := hold k' s₂ hs₂
    exact h.distinct k k' t₁ t₂ ht₁ ht₂ (by rw [← he₁.generation, ← he₂.generation, heq])
  · obtain ⟨session, hs, he⟩ := hold c.clientId session' hs
    rw [htasks] at hc
    exact he.attached id (h.attached id c session hc hholds hs (he.generation ▸ heq))
  · obtain ⟨session, hs, he⟩ := hold k session' hs
    rcases he.mailbox with hmail | hmail
    · obtain ⟨c, hc, hholds, hk, hg⟩ := h.owned k session id hs (hmail ▸ hm)
      exact ⟨c, htasks ▸ hc, hholds, hk, hg.trans he.generation.symm⟩
    · rw [hmail] at hm
      exact nomatch hm
  · rw [htasks, hnext]
    obtain ⟨placed, heq, hlive⟩ := ht.channels id
    by_cases hp : placed = []
    · exact h.quiet id (by rwa [heq, hp, List.append_nil] at hne)
    · exact h.live (hlive hp)

/-- A delivery is taken from a mailbox. -/
lemma Inv.popMailbox (h : srv.Inv) {d : Delivery} {rest : List Delivery}
    (hchannel : srv.shard.channels id = d :: rest) :
    { srv with
      shard := { srv.shard with
        channels := Function.update srv.shard.channels id rest } }.Inv :=
  { h with
    quiet := fun x hne => h.quiet x fun hx => hne <| by
      have hid : x ≠ id := fun hid => by
        rw [hid, hchannel] at hx
        exact nomatch hx
      exact (Function.update_of_ne hid ..).trans hx }

/-! ### Tasks and slots come and go -/

section

variable (srv : Server) (id : ℕ) (task : Option Connection)

@[simp]
lemma tasks_setTask (x : ℕ) :
    (srv.setTask id task).tasks x = if x = id then task else srv.tasks x :=
  Function.update_apply ..

lemma generationOf_setTask (x : Carrier) : (srv.setTask id task).generationOf x =
      if x = .task id then task.map (·.sessionGeneration) else srv.generationOf x := by
  cases x with
  | task x => by_cases hx : x = id <;> simp [generationOf, hx]
  | slot x => simp [generationOf, setTask]

end

lemma tasks_of_setTask {x : ℕ} {d : Connection} (hd : (srv.setTask id task).tasks x = some d) :
    (x = id ∧ task = some d) ∨ (x ≠ id ∧ srv.tasks x = some d) := by
  rw [tasks_setTask] at hd
  split at hd
  · next hx => exact .inl ⟨hx, hd⟩
  · next hx => exact .inr ⟨hx, hd⟩

lemma generationOf_of_setTask {x : Carrier} {g : ℕ}
    (hx : (srv.setTask id task).generationOf x = some g) :
    (x = .task id ∧ ∃ c', task = some c' ∧ c'.sessionGeneration = g) ∨
      (x ≠ .task id ∧ srv.generationOf x = some g) := by
  rw [generationOf_setTask] at hx
  split at hx
  · next heq => exact .inl ⟨heq, map_eq_some_iff.mp hx⟩
  · next hne => exact .inr ⟨hne, hx⟩

section

variable (h : srv.Inv)
include h

/-- A task under a generation that is nobody else's. -/
lemma Inv.carried_setTask
    (hfree : ∀ c', task = some c' → 0 < c'.sessionGeneration → ∀ x, x ≠ .task id →
      srv.generationOf x ≠ some c'.sessionGeneration)
    (x y : Carrier) (g : ℕ) (hg : 0 < g) (hx : (srv.setTask id task).generationOf x = some g)
    (hy : (srv.setTask id task).generationOf y = some g) : x = y := by
  rcases generationOf_of_setTask hx with ⟨hx', c', hc', rfl⟩ | ⟨hnx, hx⟩ <;>
    rcases generationOf_of_setTask hy with ⟨hy', c'', hc'', hg''⟩ | ⟨hny, hy⟩
  · rw [hx', hy']
  · exact absurd hy (hfree c' hc' hg y hny)
  · exact absurd (hg'' ▸ hx) (hfree c'' hc'' (hg'' ▸ hg) x hnx)
  · exact h.carried_once x y g hg hx hy

/-- A task starts, changes or ends, and the shard stays as it is. -/
lemma Inv.putTask {next : ℕ} (hid : id < next) (hnext : srv.nextChannel ≤ next)
    (htask : ∀ c', task = some c' → c'.Sound id ∧ (c'.connected = false → c'.phase = .running →
      c'.sessionGeneration = 0 ∧ srv.shard.channels id = []) ∧
      c'.sessionGeneration ≤ srv.shard.nextGeneration ∧
      (0 < c'.sessionGeneration → ∀ x, x ≠ .task id → srv.generationOf x ≠
        some c'.sessionGeneration) ∧
      (c'.Holds → ∀ session, srv.shard.sessions.lookup c'.clientId = some session →
      session.generation = c'.sessionGeneration → session.Attached id))
    (howned : ∀ k session, srv.shard.sessions.lookup k = some session → session.mailbox = some id →
      ∃ c', task = some c' ∧ c'.Holds ∧ c'.clientId = k ∧ c'.sessionGeneration =
        session.generation) :
    { srv.setTask id task with nextChannel := next }.Inv := by
  refine
    { h with
      sound := fun x d hd => ?_
      tasks_lt := fun x hx => ?_
      unopened := fun x d hd hconn hphase => ?_
      carried_le := fun x g hx => ?_
      carried_once := h.carried_setTask fun c' hc' => (htask c' hc').2.2.2.1
      attached := fun x d session hd hholds hs heq => ?_
      owned := fun k session x hs hm => ?_
      quiet := fun x hne => ⟨(h.quiet x hne).1.trans_le hnext, fun d hd => ?_⟩ }
  · rcases tasks_of_setTask hd with ⟨rfl, hthis⟩ | ⟨-, hold⟩
    · exact (htask d hthis).1
    · exact h.sound x d hold
  · have hne : x ≠ id := (hid.trans_le hx).ne'
    exact (tasks_setTask ..).trans ((if_neg hne).trans (h.tasks_lt x (hnext.trans hx)))
  · rcases tasks_of_setTask hd with ⟨-, hthis⟩ | ⟨-, hold⟩
    · exact ((htask d hthis).2.1 hconn hphase).1
    · exact h.unopened x d hold hconn hphase
  · rcases generationOf_of_setTask hx with ⟨-, c', hc', rfl⟩ | ⟨-, hold⟩
    · exact (htask c' hc').2.2.1
    · exact h.carried_le x g hold
  · rcases tasks_of_setTask hd with ⟨rfl, hthis⟩ | ⟨-, hold⟩
    · exact (htask d hthis).2.2.2.2 hholds session hs heq
    · exact h.attached x d session hold hholds hs heq
  · by_cases hx : x = id
    · subst hx
      obtain ⟨c', hc', hrest⟩ := howned k session hs hm
      exact ⟨c', by simp [hc'], hrest⟩
    · obtain ⟨d, hd, hrest⟩ := h.owned k session x hs hm
      exact ⟨d, by simpa [hx] using hd, hrest⟩
  · rcases tasks_of_setTask hd with ⟨rfl, hthis⟩ | ⟨-, hold⟩
    · by_contra hnot
      rw [not_or, Bool.not_eq_true, not_not] at hnot
      exact hne ((htask d hthis).2.1 hnot.1 hnot.2).2
    · exact (h.quiet x hne).2 d hold

/-- A task that speaks for the same session as before, or still for none. -/
lemma Inv.replaceTask (hc : srv.tasks id = some c)
    (hgen : c'.sessionGeneration = c.sessionGeneration) (hholds : c'.Holds ↔ c.Holds)
    (hclient : c.Holds → c'.clientId = c.clientId)
    (hunopened : c'.connected = false → c'.phase = .running → c.connected = false ∧ c.phase =
      .running)
    (hsound : c'.Sound id) : (srv.setTask id (some c')).Inv := by
  have hcarries := Inv.carries_task hc
  refine h.putTask (h.lt_nextChannel hc) le_rfl (fun d hd => ?_) fun k session hs hm => ?_
  · obtain rfl := some.inj hd
    refine ⟨hsound, fun hconn hrun => ?_, ?_, fun hpos x hx heq => hx ?_,
      fun hh session hs heq => ?_⟩
    · obtain ⟨hconn, hrun⟩ := hunopened hconn hrun
      refine ⟨hgen.trans (h.unopened id c hc hconn hrun), not_not.mp fun hne => ?_⟩
      rcases (h.quiet id hne).2 c hc with hopen | hopen
      · exact nomatch hconn.symm.trans hopen
      · exact hopen hrun
    · exact hgen ▸ h.carried_le _ _ hcarries
    · exact h.carried_once _ _ _ hpos heq (hgen ▸ hcarries)
    · have hh := hholds.mp hh
      exact h.attached id c session hc hh (hclient hh ▸ hs) (heq.trans hgen)
  · obtain ⟨d, hd, hh, hk, hg⟩ := h.owned k session id hs hm
    obtain rfl := some.inj (hc.symm.trans hd)
    exact ⟨c', rfl, hholds.mpr hh, (hclient hh).trans hk, hgen.trans hg⟩

/-- A task with no live mailbox ends. -/
lemma Inv.removeTask (hc : srv.tasks id = some c)
    (hmail : ∀ k session, srv.shard.sessions.lookup k = some session → session.mailbox ≠ some id) :
    (srv.setTask id none).Inv :=
  h.putTask (h.lt_nextChannel hc) le_rfl (fun _ hd => by cases hd)
    fun k session hs hm => absurd hm (hmail k session hs)

/-- A task starts that speaks for no session yet. -/
lemma Inv.spawn {conn : ℕ → Connection}
    (hgen : (conn srv.nextChannel).sessionGeneration ≤ srv.shard.nextGeneration)
    (hfree : 0 < (conn srv.nextChannel).sessionGeneration → ∀ x,
      srv.generationOf x ≠ some (conn srv.nextChannel).sessionGeneration)
    (hholds : ¬ (conn srv.nextChannel).Holds)
    (hunopened : (conn srv.nextChannel).connected = false →
      (conn srv.nextChannel).sessionGeneration = 0)
    (hsound : (conn srv.nextChannel).Sound srv.nextChannel) : (srv.spawn conn).Inv := by
  refine h.putTask (Nat.lt_succ_self _) (Nat.le_succ _) (fun d hd => ?_) fun k session hs hm => ?_
  · obtain rfl := some.inj hd
    exact ⟨hsound, fun hconn _ => ⟨hunopened hconn,
      not_not.mp fun hne => absurd (h.quiet _ hne).1 (lt_irrefl _)⟩, hgen,
      fun hpos x _ => hfree hpos x, fun hh => absurd hh hholds⟩
  · obtain ⟨d, hd, -⟩ := h.owned k session _ hs hm
    exact absurd (h.lt_nextChannel hd) (lt_irrefl _)

/-- Parked connections leave the registry. -/
lemma Inv.freeSlots {parking : Parking}
    (hsub : ∀ slot r, parking.slots.lookup slot = some r → srv.parking.slots.lookup slot = some r)
    (hnext : parking.nextSlot = srv.parking.nextSlot) : { srv with parking }.Inv := by
  have hcarried (x : Carrier) (g : ℕ) (hx : generationOf { srv with parking } x = some g) :
      srv.generationOf x = some g := by
    cases x with
    | task id => exact hx
    | slot slot =>
      obtain ⟨r, hr, hg⟩ := map_eq_some_iff.mp hx
      exact map_eq_some_iff.mpr ⟨r, hsub slot r hr, hg⟩
  exact
    { h with
      slots_lt := fun slot hslot => by
        refine eq_none_iff_forall_ne_some.mpr fun r hr => ?_
        have hnone := h.slots_lt slot (hnext ▸ hslot)
        rw [hsub slot r hr] at hnone
        exact nomatch hnone
      named := fun slot r hr => h.named slot r (hsub slot r hr)
      carried_le := fun x g hx => h.carried_le x g (hcarried x g hx)
      carried_once := fun x y g hg hx hy =>
        h.carried_once x y g hg (hcarried x g hx) (hcarried y g hy) }

/-- A connection whose task is gone is parked. -/
lemma Inv.fillSlot {r : ResumeState} (hname : r.clientId ≠ "")
    (hgen : r.sessionGeneration ≤ srv.shard.nextGeneration)
    (hfree : 0 < r.sessionGeneration → ∀ x, srv.generationOf x ≠ some r.sessionGeneration) :
    { srv with parking := srv.parking.park r }.Inv := by
  have hslot (slot : ℕ) : (srv.parking.park r).slots.lookup slot =
      if slot = srv.parking.nextSlot then some r else srv.parking.slots.lookup slot :=
    AList.lookup_insert_eq_ite ..
  have hcarried (x : Carrier) : generationOf { srv with parking := srv.parking.park r } x =
      if x = .slot srv.parking.nextSlot then some r.sessionGeneration else srv.generationOf x := by
    cases x with
    | task id => simp [generationOf]
    | slot slot =>
      simp only [generationOf, hslot, Carrier.slot.injEq]
      split <;> rfl
  exact
    { h with
      slots_lt := fun slot hle => by
        have hle : srv.parking.nextSlot + 1 ≤ slot := hle
        rw [hslot, if_neg (by omega)]
        exact h.slots_lt slot (by omega)
      named := fun slot r' hr => by
        rw [hslot] at hr
        split at hr
        · exact some.inj hr ▸ hname
        · exact h.named slot r' hr
      carried_le := fun x g hx => by
        rw [hcarried] at hx
        split at hx
        · exact some.inj hx ▸ hgen
        · exact h.carried_le x g hx
      carried_once := fun x y g hg hx hy => by
        rw [hcarried] at hx hy
        split at hx <;> split at hy
        · next hx' hy' => rw [hx', hy']
        · rw [← some.inj hx] at hg hy
          exact absurd hy (hfree hg y)
        · rw [← some.inj hy] at hg hx
          exact absurd hx (hfree hg x)
        · exact h.carried_once x y g hg hx hy }

end

/-! ### Connection and session change together -/

variable {shard : ShardState}

/-- A task and the record of a client change together, under a generation that is nobody else's. -/
lemma Inv.step (h : srv.Inv) {k : String} {g : ℕ} (hid : id < srv.nextChannel) (hpos : 0 < g)
    (hother : ∀ k', k' ≠ k → shard.sessions.lookup k' = srv.shard.sessions.lookup k')
    (hnext : srv.shard.nextGeneration ≤ shard.nextGeneration) (hg : g ≤ shard.nextGeneration)
    (hchannels : shard.channels = srv.shard.channels)
    (hcarried : ∀ x, x ≠ .task id → srv.generationOf x ≠ some g)
    (hnew : ∀ k' session', k' ≠ k → srv.shard.sessions.lookup k' = some session' →
      session'.generation ≠ g ∧ session'.mailbox ≠ some id)
    (hrecord : ∀ session', shard.sessions.lookup k = some session' → session'.Lawful ∧
      session'.generation = g)
    (hmail : ∀ session' x, shard.sessions.lookup k = some session' → session'.mailbox = some x →
      x = id ∧ ∃ c', task = some c' ∧ c'.Holds ∧ c'.clientId = k)
    (htask : ∀ c', task = some c' → c'.Sound id ∧ c'.sessionGeneration = g ∧
      (c'.connected = true ∨ c'.phase ≠ .running) ∧ (c'.Holds → c'.clientId = k ∧ ∀ session',
      shard.sessions.lookup k = some session' → session'.Attached id)) :
    { srv.setTask id task with shard }.Inv := by
  have hlookup {k' : String} {session' : Session} (hs : shard.sessions.lookup k' = some session') :
      (k' = k ∧ shard.sessions.lookup k = some session') ∨
        (k' ≠ k ∧ srv.shard.sessions.lookup k' = some session') := by
    by_cases hk : k' = k
    · exact .inl ⟨hk, hk ▸ hs⟩
    · exact .inr ⟨hk, (hother k' hk).symm.trans hs⟩
  refine
    { sound := fun x d hd' => ?_
      tasks_lt := fun x hx => ?_
      slots_lt := h.slots_lt
      named := h.named
      unopened := fun x d hd' hconn hphase => ?_
      carried_le := fun x g' hx' => ?_
      carried_once := h.carried_setTask fun c' hc' _ x hx => (htask c' hc').2.1 ▸ hcarried x hx
      lawful := fun k' session' hs' => ?_
      generation_pos := fun k' session' hs' => ?_
      generation_le := fun k' session' hs' => ?_
      distinct := fun k₁ k₂ s₁ s₂ hs₁ hs₂ heq => ?_
      attached := fun x d session' hd' hholds hs' heq => ?_
      owned := fun k' session' x hs' hm => ?_
      quiet := fun x hne => ?_ }
  · rcases tasks_of_setTask hd' with ⟨rfl, hthis⟩ | ⟨-, hold⟩
    · exact (htask d hthis).1
    · exact h.sound x d hold
  · have hne : x ≠ id := fun heq => absurd hid (not_lt.mpr (heq ▸ hx))
    exact (tasks_setTask ..).trans ((if_neg hne).trans (h.tasks_lt x hx))
  · rcases tasks_of_setTask hd' with ⟨-, hthis⟩ | ⟨-, hold⟩
    · rcases (htask d hthis).2.2.1 with hopen | hopen
      · rw [hopen] at hconn
        exact nomatch hconn
      · exact absurd hphase hopen
    · exact h.unopened x d hold hconn hphase
  · rcases generationOf_of_setTask hx' with ⟨-, c', hc', rfl⟩ | ⟨-, hold⟩
    · exact (htask c' hc').2.1 ▸ hg
    · exact (h.carried_le x g' hold).trans hnext
  · rcases hlookup hs' with ⟨-, hs⟩ | ⟨-, hs⟩
    · exact (hrecord session' hs).1
    · exact h.lawful k' session' hs
  · rcases hlookup hs' with ⟨-, hs⟩ | ⟨-, hs⟩
    · exact (hrecord session' hs).2 ▸ hpos
    · exact h.generation_pos k' session' hs
  · rcases hlookup hs' with ⟨-, hs⟩ | ⟨-, hs⟩
    · exact (hrecord session' hs).2 ▸ hg
    · exact (h.generation_le k' session' hs).trans hnext
  · rcases hlookup hs₁ with ⟨rfl, hs₁⟩ | ⟨hk₁, hs₁⟩ <;> rcases hlookup hs₂ with ⟨rfl, hs₂⟩ |
      ⟨hk₂, hs₂⟩
    · rfl
    · exact absurd (heq.symm.trans (hrecord s₁ hs₁).2) (hnew k₂ s₂ hk₂ hs₂).1
    · exact absurd (heq.trans (hrecord s₂ hs₂).2) (hnew k₁ s₁ hk₁ hs₁).1
    · exact h.distinct k₁ k₂ s₁ s₂ hs₁ hs₂ heq
  · rcases tasks_of_setTask hd' with ⟨rfl, hthis⟩ | ⟨hne, hold⟩
    · obtain ⟨hk, hattached⟩ := (htask d hthis).2.2.2 hholds
      exact hattached session' (hk ▸ hs')
    · rcases hlookup hs' with ⟨-, hs⟩ | ⟨-, hs⟩
      · have hcarries := Inv.carries_task hold
        rw [← heq, (hrecord session' hs).2] at hcarries
        exact absurd hcarries (hcarried _ fun htask => hne (Carrier.task.inj htask))
      · exact h.attached x d session' hold hholds hs heq
  · rcases hlookup hs' with ⟨rfl, hs⟩ | ⟨hk, hs⟩
    · obtain ⟨rfl, c', hc', hholds, hk⟩ := hmail session' x hs hm
      exact ⟨c', by simp [hc'], hholds, hk, (htask c' hc').2.1.trans (hrecord session' hs).2.symm⟩
    · obtain ⟨d, hd, hrest⟩ := h.owned k' session' x hs hm
      have hne : x ≠ id := fun hx => (hnew k' session' hk hs).2 (hx ▸ hm)
      exact ⟨d, by simpa [hne] using hd, hrest⟩
  · obtain ⟨hlt, hquiet⟩ := h.quiet x (hchannels ▸ hne)
    refine ⟨hlt, fun d hd' => ?_⟩
    rcases tasks_of_setTask hd' with ⟨-, hthis⟩ | ⟨-, hold⟩
    · exact (htask d hthis).2.2.1
    · exact hquiet d hold

/-- The one carrier of a session's generation changes the record and itself. -/
lemma Inv.ownerStep (h : srv.Inv) {k : String} {session : Session} (hc : srv.tasks id = some c)
    (hs : srv.shard.sessions.lookup k = some session)
    (hg : session.generation = c.sessionGeneration)
    (hother : ∀ k', k' ≠ k → shard.sessions.lookup k' = srv.shard.sessions.lookup k')
    (hnext : shard.nextGeneration = srv.shard.nextGeneration)
    (hchannels : shard.channels = srv.shard.channels)
    (hrecord : ∀ session', shard.sessions.lookup k = some session' → session'.Lawful ∧
      session'.generation = session.generation)
    (hmail : ∀ session' x, shard.sessions.lookup k = some session' → session'.mailbox = some x →
      x = id ∧ ∃ c', task = some c' ∧ c'.Holds ∧ c'.clientId = k)
    (htask : ∀ c', task = some c' → c'.Sound id ∧ c'.sessionGeneration = c.sessionGeneration ∧
      (c'.connected = true ∨ c'.phase ≠ .running) ∧ (c'.Holds → c'.clientId = k ∧ ∀ session',
      shard.sessions.lookup k = some session' → session'.Attached id)) :
    { srv.setTask id task with shard }.Inv := by
  have hpos := h.generation_pos k session hs
  have hcarries := Inv.carries_task hc
  rw [← hg] at hcarries htask
  refine h.step (h.lt_nextChannel hc) hpos hother hnext.ge ?_ hchannels (fun x hx hx' => ?_)
    (fun k' session' hk hs' => ?_) hrecord hmail htask
  · exact hnext ▸ h.generation_le k session hs
  · exact hx (h.carried_once _ _ _ hpos hx' hcarries)
  · have hgen : session'.generation ≠ session.generation :=
      fun heq => hk (h.distinct k' k session' session hs' hs heq)
    refine ⟨hgen, fun hm => hgen ?_⟩
    obtain ⟨d, hd, -, -, hdgen⟩ := h.owned k' session' id hs' hm
    rw [hc, some.injEq] at hd
    rw [← hdgen, ← hd, hg]

/-- A connection opens a session, in place of whatever the client had. -/
lemma Inv.openStep (h : srv.Inv) (hc : srv.tasks id = some c) (hzero : c.sessionGeneration = 0)
    (hother : ∀ k', k' ≠ c'.clientId → shard.sessions.lookup k' = srv.shard.sessions.lookup k')
    (hnext : shard.nextGeneration = srv.shard.nextGeneration + 1)
    (hchannels : shard.channels = srv.shard.channels) {session : Session}
    (hs : shard.sessions.lookup c'.clientId = some session) (hlawful : session.Lawful)
    (hgen : session.generation = srv.shard.nextGeneration + 1) (hattached : session.Attached id)
    (hgen' : c'.sessionGeneration = srv.shard.nextGeneration + 1) (hholds : c'.Holds)
    (hunopened : c'.connected = true ∨ c'.phase ≠ .running) (hsound : c'.Sound id) :
    { srv.setTask id (some c') with shard }.Inv := by
  have hthe {session' : Session} (hs' : shard.sessions.lookup c'.clientId = some session') :
      session' = session := some.inj (hs'.symm.trans hs)
  -- the new generation is larger than any in use
  refine h.step (k := c'.clientId) (g := srv.shard.nextGeneration + 1) (h.lt_nextChannel hc)
    (Nat.succ_pos _) hother (by omega) hnext.ge hchannels (fun x _ hx => ?_)
    (fun k session' hk hs' => ⟨fun heq => ?_, fun hm => ?_⟩) (fun session' hs' => ?_)
    (fun session' x hs' hm => ⟨?_, c', rfl, hholds, rfl⟩) fun d hd => ?_
  · exact absurd (h.carried_le x _ hx) (Nat.not_succ_le_self _)
  · exact absurd (heq ▸ h.generation_le k session' hs') (Nat.not_succ_le_self _)
  · obtain ⟨d, hd, hdholds, -⟩ := h.owned k session' id hs' hm
    rw [hc, some.injEq] at hd
    exact hdholds.generation.ne' (hd ▸ hzero)
  · exact hthe hs' ▸ ⟨hlawful, hgen⟩
  · rw [hthe hs'] at hm
    rcases hattached.mailbox with hm' | hm'
    · exact some.inj (hm.symm.trans hm')
    · exact nomatch hm.symm.trans hm'
  · obtain rfl := some.inj hd
    exact ⟨hsound, hgen', hunopened, fun _ => ⟨rfl, fun _ hs' => hthe hs' ▸ hattached⟩⟩

end Server

end Rusquitto
