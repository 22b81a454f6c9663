import Rusquitto.Server.Lives
import Rusquitto.Server.Transfer

/-!
# Which sessions are persisted

The checkpoint and the log write a session that has no mailbox and is not parked, with its deadline
as the negotiated lifetime. A shed connection has no mailbox before its cleanup: this is the only way
in which a session that must not be persisted gets to the disk (`persisted_genuine_iff`).
-/

namespace Rusquitto

open ShardState Server Option
open Session (Outline)

namespace Life

/-- A deadline that was set in the past, for the expiry interval. -/
def Dated (expiry : UInt32) (now : ℕ) (o : Outline) : Prop :=
  ∃ t ≤ now, o.expiresAt = expiryDeadline t expiry

/-- The record of a generation whose connection is gone has the deadline its connection left it, or
that of the file it was loaded from. -/
def Timed (expiry : UInt32) (now : ℕ) : Life → Prop
  | ⟨some b, some (k, o)⟩ =>
    b.expiry = expiry ∧ k = b.clientId ∧ b.clientId ≠ "" ∧
      match b.role with
      | .speaking => True
      | .dormant => o.parked = true
      | .willing _ => Dated expiry now o
  | ⟨some b, none⟩ => b.expiry = expiry
  | ⟨none, some (_, o)⟩ => o.parked = true ∨ Dated expiry now o
  | ⟨none, none⟩ => True

section Timed

variable {expiry : UInt32} {now now' : ℕ} {life life' : Life} {occ : Occasion} {b : Bearer}
  {k : String} {o : Outline} {r : Option (String × Outline)} {fire : Option Publish}
  {fires : List Publish}

lemma timed_speaking (hrole : b.role = .speaking) : Timed expiry now ⟨some b, some (k, o)⟩ ↔
    b.expiry = expiry ∧ k = b.clientId ∧ b.clientId ≠ "" := by
  simp only [Timed, hrole, and_true]

lemma timed_dormant (hrole : b.role = .dormant) : Timed expiry now ⟨some b, some (k, o)⟩ ↔
    b.expiry = expiry ∧ k = b.clientId ∧ b.clientId ≠ "" ∧ o.parked = true := by
  simp only [Timed, hrole]

lemma timed_willing {will : Publish} (hrole : b.role = .willing will) :
    Timed expiry now ⟨some b, some (k, o)⟩ ↔
      b.expiry = expiry ∧ k = b.clientId ∧ b.clientId ≠ "" ∧ Dated expiry now o := by
  simp only [Timed, hrole]

lemma Dated.mono (h : Dated expiry now o) (hnow : now ≤ now') : Dated expiry now' o := by
  obtain ⟨t, ht, heq⟩ := h
  exact ⟨t, ht.trans hnow, heq⟩

lemma Timed.mono (h : life.Timed expiry now) (hnow : now ≤ now') : life.Timed expiry now' := by
  obtain ⟨_ | b, _ | ⟨k, o⟩⟩ := life
  · trivial
  · exact h.imp_right (·.mono hnow)
  · exact h
  · cases hrole : b.role with
    | speaking => exact (timed_speaking hrole).mpr ((timed_speaking hrole).mp h)
    | dormant => exact (timed_dormant hrole).mpr ((timed_dormant hrole).mp h)
    | willing will =>
      obtain ⟨hexpiry, hclient, hname, hdated⟩ := (timed_willing hrole).mp h
      exact (timed_willing hrole).mpr ⟨hexpiry, hclient, hname, hdated.mono hnow⟩

lemma Timed.bearer (h : Timed expiry now ⟨some b, r⟩) : b.expiry = expiry := by
  cases r with
  | none => exact h
  | some r => exact h.1

/-- A dormant connection that has lost its session: there is no record of its generation. -/
lemma Timed.lost (h : Timed expiry now ⟨some b, r⟩) (hrole : b.role = .dormant)
    (hlost : ∀ o, r = some (b.clientId, o) → o.parked = false) : r = none := by
  cases r with
  | none => rfl
  | some r =>
    obtain ⟨k, o⟩ := r
    obtain ⟨-, rfl, -, hparked⟩ := (timed_dormant hrole).mp h
    rw [hlost o rfl] at hparked
    exact nomatch hparked

/-- A record that its connection leaves behind with a deadline. -/
lemma timed_left (hexpiry : b.expiry = expiry) (hnow : occ.now ≤ now)
    (ho : o.expiresAt = expiryDeadline occ.now b.expiry) :
    Timed expiry now ⟨none, (o.unlessEnded b.expiry).map (b.clientId, ·)⟩ := by
  unfold Outline.unlessEnded
  split
  · trivial
  · exact .inr ⟨occ.now, hnow, hexpiry ▸ ho⟩

lemma Timed.step (h : life.Timed expiry now) (hstep : Step occ life fire life')
    (hfresh : occ.fresh → occ.expiry = expiry) (hnow : occ.now ≤ now) : life'.Timed expiry now := by
  cases hstep with
  | opened mailbox hf hexpiry hrole hname =>
    exact (timed_speaking hrole).mpr ⟨hexpiry.trans (hfresh hf), rfl, hname⟩
  | loaded ps hf hexpiry =>
    refine .inr ⟨occ.now, hnow, ?_⟩
    rw [← hfresh hf, ← hexpiry]
    rfl
  | @recalled b k o =>
    cases b with
    | none => trivial
    | some b => exact h.bearer
  | @recants b r hrole =>
    cases r with
    | none => exact h
    | some r => exact h
  | shed o hrole => exact (timed_speaking hrole).mpr ((timed_speaking hrole).mp h)
  | parks snapshot hrole =>
    obtain ⟨hexpiry, hclient, hname⟩ := (timed_speaking hrole).mp h
    exact (timed_dormant rfl).mpr ⟨hexpiry, hclient, hname, rfl⟩
  | reattaches mailbox hrole =>
    obtain ⟨hexpiry, hclient, hname, -⟩ := (timed_dormant hrole).mp h
    exact (timed_speaking rfl).mpr ⟨hexpiry, hclient, hname⟩
  | @loses b r hrole hlost =>
    obtain rfl := h.lost hrole hlost
    exact h
  | @leaves b r hrole hlost =>
    cases r with
    | none => trivial
    | some r =>
      obtain ⟨k, o⟩ := r
      obtain ⟨-, rfl, hname⟩ := (timed_speaking hrole).mp h
      exact absurd rfl (hlost hname o)
  | closes => exact timed_left h.bearer hnow rfl
  | @closesWilling b will o snapshot hrole =>
    obtain ⟨hexpiry, -, hname⟩ := (timed_speaking hrole).mp h
    unfold Outline.unlessEnded
    split
    · exact hexpiry
    · exact (timed_willing rfl).mpr ⟨hexpiry, rfl, hname, occ.now, hnow, by rw [← hexpiry]; rfl⟩
  | closesArming => exact .inr ⟨occ.now, hnow, by rw [← h.bearer]; rfl⟩
  | @publishes b will r hrole =>
    cases r with
    | none => trivial
    | some r => exact .inr ((timed_willing hrole).mp h).2.2.2
  | @dismissed b r _ hrole =>
    cases r with
    | none => trivial
    | some r => exact .inl ((timed_dormant hrole).mp h).2.2.2
  | strays hrole hlost =>
    rw [h.lost hrole hlost]
    trivial
  | suspends | suspendsWilling => exact timed_left h.bearer hnow rfl
  | suspendsArming => exact .inr ⟨occ.now, hnow, by rw [← h.bearer]; rfl⟩
  | @fires b k o =>
    cases b with
    | none => exact h
    | some b => exact h
  | @expires b k o =>
    cases b with
    | none => trivial
    | some b => exact h.bearer

lemma Timed.steps (h : life.Timed expiry now) (hsteps : life.Steps occ fires life')
    (hfresh : occ.fresh → occ.expiry = expiry) (hnow : occ.now ≤ now) : life'.Timed expiry now :=
  hsteps.inv (Timed expiry now) (fun _ _ _ hstep h => h.step hstep hfresh hnow) h

end Timed

end Life

/-! ### What was negotiated -/

/-- A shard with a record of what the connection of each session generation negotiated as its
Session Expiry Interval. For a session that was loaded it is the interval in the file. -/
structure Chronicle where
  server : Server
  negotiated : ℕ → UInt32 := fun _ => 0

namespace Chronicle

/-- One piece of work, with the sessions that begin. -/
def apply (env : Env) (ch : Chronicle) (op : ServerOp) : Chronicle where
  server := ch.server.apply env op
  negotiated g :=
    if ch.server.shard.nextGeneration < g ∧ g ≤ (ch.server.apply env op).shard.nextGeneration then
      ch.server.negotiates env op g
    else ch.negotiated g

/-- The states a shard gets to. -/
abbrev Reached (env : Env) : Chronicle → Chronicle → Prop :=
  Lib.Reached (fun ch op => ch.apply env op) fun _ _ => True

/-- The deadlines of suspended sessions are those that were negotiated. -/
structure Kept (ch : Chronicle) : Prop where
  inv : ch.server.Inv
  timed : ∀ g, 0 < g → ∀ life, ch.server.Lives g life →
    life.Timed (ch.negotiated g) ch.server.now

variable {env : Env} {ch ch₀ : Chronicle}

lemma Kept.apply (h : ch.Kept) (op : ServerOp) : (ch.apply env op).Kept := by
  have hinv : (ch.server.apply env op).Inv := h.inv.apply op
  have hmove := move_apply env ch.server op
  refine ⟨hinv, fun g hg life' hl' => ?_⟩
  obtain ⟨life, hl⟩ := ch.server.exists_lives g
  obtain ⟨life'', hl'', hsteps⟩ := hmove.follows h.inv hg life hl
  obtain rfl := hl'.unique hinv hg hl''
  by_cases hold : g ≤ ch.server.shard.nextGeneration
  · have hsame : (ch.apply env op).negotiated g = ch.negotiated g :=
      if_neg fun hnew => absurd hnew.1 (not_lt.mpr hold)
    rw [hsame]
    exact ((h.timed g hg life hl).steps hsteps (fun hfresh => absurd hfresh (not_lt.mpr hold))
      le_rfl).mono hmove.now_le
  · by_cases hborn : g ≤ (ch.server.apply env op).shard.nextGeneration
    · have hnew : (ch.apply env op).negotiated g = ch.server.negotiates env op g :=
        if_pos ⟨not_le.mp hold, hborn⟩
      obtain rfl := hl.unborn h.inv (not_le.mp hold)
      have hunborn : Life.Timed (ch.server.negotiates env op g) ch.server.now
        ⟨none, none⟩ := trivial
      rw [hnew]
      exact (hunborn.steps hsteps (fun _ => rfl) le_rfl).mono hmove.now_le
    · obtain rfl := hl'.unborn hinv (not_le.mp hborn)
      trivial

lemma Reached.kept (h₀ : ch₀.server.Started) (hrun : Reached env ch₀ ch) : ch.Kept := by
  refine Lib.Reached.inv Kept ⟨h₀.inv, fun g _ life hl => ?_⟩ (fun _ op h _ => h.apply op) hrun
  obtain rfl : life = ⟨none, none⟩ := by
    have hbearer : life.bearer = none := hl.bearer.eq_none fun x => by
      cases x with
      | task id => rw [bearers, h₀.tasks id, bind_none]
      | slot slot => rw [bearers, h₀.slots, AList.lookup_empty, bind_none]
    have hrecord : life.record = none := hl.record.eq_none fun k => by
      rw [records, h₀.sessions, AList.lookup_empty, map_none, bind_none]
    cases life
    exact congr (congrArg Life.mk hbearer) hrecord
  trivial

end Chronicle

/-! ### What is written -/

namespace Server

/-- The sessions that the checkpoint or the write-ahead log would write now. -/
def persisted (srv : Server) : List PersistedSession :=
  srv.shard.persistSessions srv.now ++ (srv.shard.walRecords srv.now).filterMap fun record =>
    match record with
    | .upsert ps => some ps
    | .remove _ => none

/-- A connection that has not been closed has the session: it runs, is parked, or wakes up. -/
def Open (srv : Server) (k : String) (generation : ℕ) : Prop :=
  (∃ id c, srv.tasks id = some c ∧ (∀ will, c.phase ≠ .willing will) ∧ c.clientId = k ∧
      c.sessionGeneration = generation) ∨
    ∃ slot r, srv.parking.slots.lookup slot = some r ∧ r.clientId = k ∧
      r.sessionGeneration = generation

variable {srv : Server} {ps : PersistedSession}

lemma persistOne_of_mem (h : ps ∈ srv.persisted) :
    srv.shard.persistOne ps.clientId srv.now = some ps := by
  have hone {k : String} (hk : srv.shard.persistOne k srv.now = some ps) :
      srv.shard.persistOne ps.clientId srv.now = some ps := by
    rw [clientId_persistOne hk]
    exact hk
  rcases List.mem_append.mp h with hmem | hmem
  · obtain ⟨k, -, hk⟩ := List.mem_filterMap.mp hmem
    exact hone hk
  · -- the log writes what the checkpoint would write
    obtain ⟨record, hrecord, hps⟩ := List.mem_filterMap.mp hmem
    cases record with
    | remove k => exact nomatch hps
    | upsert ps' =>
      obtain rfl := some.inj hps
      unfold walRecords at hrecord
      split at hrecord
      · exact nomatch hrecord
      · rcases List.mem_append.mp hrecord with hmem | hmem
        · obtain ⟨_, _, heq⟩ := List.mem_map.mp hmem
          exact nomatch heq
        · obtain ⟨k, -, hk⟩ := List.mem_filterMap.mp hmem
          obtain ⟨ps₀, hps₀, heq⟩ := map_eq_some_iff.mp hk
          obtain rfl := Record.upsert.inj heq
          exact hone hps₀

lemma persistOne_eq_some {s : ShardState} {k : String} {now : ℕ}
    (h : s.persistOne k now = some ps) : ∃ session, s.sessions.lookup k = some session ∧
      session.mailbox = none ∧ session.parked = false ∧
      persistedExpiry now session.expiresAt = some ps.expirySecs := by
  obtain ⟨session, hs, h⟩ := bind_eq_some_iff.mp h
  refine ⟨session, hs, ?_⟩
  split at h
  · exact nomatch h
  · next hoffline =>
    rw [not_or, Bool.not_eq_true, isSome_eq_false_iff, isNone_iff_eq_none,
      Bool.not_eq_true] at hoffline
    obtain ⟨secs, hsecs, h⟩ := bind_eq_some_iff.mp h
    cases h
    exact ⟨hoffline.1, hoffline.2, hsecs⟩

end Server

/-- A session that is written with a deadline from its expiry interval has one, and is written as
never-expiring only if it is. -/
lemma Life.Dated.persisted {expiry secs : UInt32} {now : ℕ} {o : Outline}
    (h : Life.Dated expiry now o) (hsecs : persistedExpiry now o.expiresAt = some secs) :
    expiry ≠ 0 ∧ (secs = sessionNeverExpires → expiry = sessionNeverExpires) := by
  obtain ⟨t, ht, heq⟩ := h
  rw [heq] at hsecs
  unfold expiryDeadline at hsecs
  split at hsecs
  · next hnever =>
    rw [hnever]
    exact ⟨by decide, fun _ => rfl⟩
  · next hlimited =>
    simp only [persistedExpiry] at hsecs
    split at hsecs
    · cases hsecs
    · next hleft =>
      have hlt : expiry.toNat < 2 ^ 32 - 1 := by
        have hmax : sessionNeverExpires.toNat = 2 ^ 32 - 1 := rfl
        have hne : expiry.toNat ≠ sessionNeverExpires.toNat := fun h =>
          hlimited (UInt32.toNat_inj.mp h)
        have := expiry.toNat_lt
        omega
      -- no more is left than was given
      have hle : remainingSecs now (afterSecs t expiry) ≤ expiry.toNat := by
        unfold remainingSecs afterSecs
        have hnanos : 0 < nanosPerSec := by decide
        rw [Nat.div_le_iff_le_mul hnanos]
        omega
      rw [if_pos (by omega)] at hsecs
      refine ⟨?_, fun hnever => ?_⟩
      · rintro rfl
        exact hleft (Nat.le_zero.mp hle)
      · rw [← some.inj hsecs] at hnever
        have htoNat := congrArg UInt32.toNat hnever
        have hsize : UInt32.size = 2 ^ 32 := rfl
        rw [UInt32.toNat_ofNat_of_lt' (by omega)] at htoNat
        have hmax : sessionNeverExpires.toNat = 2 ^ 32 - 1 := rfl
        omega

/-- What may be persisted: a session whose connection was closed, with a lifetime, and as one that
never expires only if that was negotiated. -/
structure Chronicle.Genuine (ch : Chronicle) (ps : PersistedSession) : Prop where
  closed : ∀ session, ch.server.shard.sessions.lookup ps.clientId = some session →
    ¬ch.server.Open ps.clientId session.generation
  lasting : ∀ session, ch.server.shard.sessions.lookup ps.clientId = some session →
    ch.negotiated session.generation ≠ 0
  never : ps.expirySecs = sessionNeverExpires →
    ∀ session, ch.server.shard.sessions.lookup ps.clientId = some session →
      ch.negotiated session.generation = sessionNeverExpires

/-- Every running connection still has the mailbox of its session. -/
def Server.MailboxesKept (srv : Server) : Prop :=
  ∀ id c session, srv.tasks id = some c → c.Holds →
    srv.shard.sessions.lookup c.clientId = some session →
    session.generation = c.sessionGeneration → session.mailbox.isSome = true

namespace Chronicle

variable {env : Env} {ch ch₀ : Chronicle} {k : String} {session : Session}

/-- The life of a record, once the bearer is known. -/
lemma Kept.timed_record (h : ch.Kept) (hs : ch.server.shard.sessions.lookup k = some session) :
    ∃ b, ch.server.Lives session.generation ⟨b, some (k, session.outline)⟩ ∧
      Life.Timed (ch.negotiated session.generation) ch.server.now
        ⟨b, some (k, session.outline)⟩ := by
  obtain ⟨⟨b, r⟩, hl⟩ := ch.server.exists_lives session.generation
  obtain rfl : r = some (k, session.outline) :=
    hl.record.eq_some (h.inv.once_records _) (records_of_session hs)
  exact ⟨b, hl, h.timed _ (h.inv.generation_pos k session hs) _ hl⟩

/-- A suspended record has no open connection, unless one has lost its mailbox. -/
lemma Kept.closed (h : ch.Kept) (hkept : ch.server.MailboxesKept)
    (hs : ch.server.shard.sessions.lookup k = some session) (hmailbox : session.mailbox = none)
    (hparked : session.parked = false) : ¬ch.server.Open k session.generation := by
  have hpos := h.inv.generation_pos k session hs
  obtain ⟨b, hl, htimed⟩ := h.timed_record hs
  have hawake {b : Bearer} (hrole : b.role = .dormant) : ¬Life.Timed
      (ch.negotiated session.generation) ch.server.now ⟨some b, some (k, session.outline)⟩ := by
    intro ht
    exact nomatch hparked.symm.trans ((Life.timed_dormant hrole).mp ht).2.2.2
  rintro (⟨id, c, hc, hphase, rfl, hgen⟩ | ⟨slot, r, hr, rfl, hgen⟩)
  · obtain rfl : b = some c.bearer := by
      refine hl.bearer.eq_some (h.inv.once_bearers hpos) (x := .task id) ?_
      rw [← hgen]
      exact bears_task hc
    have hrunning (hholding : c.phase.holding = true) : False := by
      obtain ⟨-, -, hname⟩ := (Life.timed_speaking (Connection.role_of_holding hholding)).mp htimed
      have hsome := hkept id c session hc ⟨hname, hgen ▸ hpos, hholding⟩ hs hgen.symm
      rw [hmailbox] at hsome
      exact nomatch hsome
    cases hp : c.phase with
    | resuming => exact hawake (Connection.role_of_resuming hp) htimed
    | willing will => exact hphase will hp
    | running | claiming | ending => exact hrunning (by rw [hp]; rfl)
  · obtain rfl : b = some r.bearer := by
      refine hl.bearer.eq_some (h.inv.once_bearers hpos) (x := .slot slot) ?_
      rw [← hgen]
      exact bears_slot hr
    exact hawake rfl htimed

/-- The deadline of a record whose connection was closed. -/
lemma Kept.dated (h : ch.Kept) (hs : ch.server.shard.sessions.lookup k = some session)
    (hparked : session.parked = false) (hclosed : ¬ch.server.Open k session.generation) :
    Life.Dated (ch.negotiated session.generation) ch.server.now session.outline := by
  obtain ⟨b, hl, htimed⟩ := h.timed_record hs
  cases b with
  | none => exact htimed.resolve_left fun hp => by exact nomatch hparked.symm.trans hp
  | some b =>
    -- whoever carries the generation still is not an open connection, so it is about to publish
    have hclient := htimed.2.1
    obtain ⟨x, hx⟩ := hl.bearer
    cases x with
    | task id =>
      obtain ⟨c, hc, hb⟩ := bind_eq_some_iff.mp hx
      obtain ⟨hgen, heq⟩ := ite_none_right_eq_some.mp hb
      obtain rfl := some.inj heq
      have hwilling : ∃ will, c.phase = .willing will := by
        by_contra hnot
        rw [not_exists] at hnot
        exact hclosed (.inl ⟨id, c, hc, hnot, hclient.symm, hgen⟩)
      obtain ⟨will, hwill⟩ := hwilling
      exact ((Life.timed_willing (Connection.role_of_willing hwill)).mp htimed).2.2.2
    | slot slot =>
      obtain ⟨r, hr, hb⟩ := bind_eq_some_iff.mp hx
      obtain ⟨hgen, heq⟩ := ite_none_right_eq_some.mp hb
      obtain rfl := some.inj heq
      exact absurd (.inr ⟨slot, r, hr, hclient.symm, hgen⟩) hclosed

/-- In every state of every run: all that would be persisted is genuine exactly if every running
connection still has its mailbox. -/
theorem persisted_genuine_iff (env : Env) (h₀ : ch₀.server.Started) (hrun : Reached env ch₀ ch) :
    (∀ ps ∈ ch.server.persisted, ch.Genuine ps) ↔ ch.server.MailboxesKept := by
  have h := hrun.kept h₀
  constructor
  · intro hgenuine id c session hc hholds hs hgen
    by_contra hnone
    rw [Bool.not_eq_true, isSome_eq_false_iff, isNone_iff_eq_none] at hnone
    -- the record of a connection without its mailbox is written as one that never expires
    have hattached := h.inv.attached id c session hc hholds hs hgen
    have hnodeadline (deadline : ℕ) : session.expiresAt ≠ some deadline := by
      rw [hattached.expiresAt]
      exact nofun
    obtain ⟨ps, hpersist, hclient, -⟩ := exists_persistOne hs ⟨hnone, hattached.parked⟩
      (fun deadline hd => absurd hd (hnodeadline deadline))
      (fun deadline hd => absurd hd (hnodeadline deadline))
    have hmem : ps ∈ ch.server.persisted :=
      List.mem_append_left _ (mem_persistSessions hpersist)
    refine (hgenuine ps hmem).closed session (hclient ▸ hs)
      (.inl ⟨id, c, hc, fun will hp => ?_, hclient.symm, hgen.symm⟩)
    have hholding := hholds.phase
    rw [hp] at hholding
    exact nomatch hholding
  · intro hkept ps hps
    obtain ⟨session, hs, hmailbox, hparked, hexpiry⟩ :=
      persistOne_eq_some (persistOne_of_mem hps)
    have hclosed := h.closed hkept hs hmailbox hparked
    obtain ⟨hlasting, hnever⟩ := (h.dated hs hparked hclosed).persisted hexpiry
    have hsame {session' : Session}
        (hs' : ch.server.shard.sessions.lookup ps.clientId = some session') : session' = session :=
      some.inj (hs'.symm.trans hs)
    exact
      { closed := fun _ hs' => hsame hs' ▸ hclosed
        lasting := fun _ hs' => hsame hs' ▸ hlasting
        never := fun heq _ hs' => hsame hs' ▸ hnever heq }

/-- A shard with a write-ahead log. A client connects and negotiates no session expiry, so that its
session ends with its connection; it is shed, and a message for it arrives before its connection
notices. -/
def shedChronicle : Chronicle :=
  Lib.run (fun ch op => ch.apply openEnv op)
    { server := { freshServer with shard := freshServer.shard.enableWal } }
    [.accept .none, .packet 0 (.connect { clientId := "a", cleanSession := false }) {},
      .packet 0 (.subscribe { pkid := 1, filters := [{ path := "t", qos := .atLeastOnce }] }) {},
      .shed ["a"] 1, .publish { qos := .atLeastOnce, topic := "t", payload := [1] } {}]

/-- The session of the connection that still runs is written by the checkpoint and by the log, as
one that never expires. -/
theorem shed_session_persisted :
    shedChronicle.negotiated 1 = 0 ∧
      (shedChronicle.server.tasks 0).any (fun c =>
        c.phase == .running && c.clientId == "a" && c.sessionGeneration == 1) = true ∧
      (shedChronicle.server.shard.sessions.lookup "a").any (·.generation == 1) = true ∧
      (shedChronicle.server.shard.persistSessions shedChronicle.server.now).map
        (fun ps => (ps.clientId, ps.expirySecs)) = [("a", sessionNeverExpires)] ∧
      (shedChronicle.server.shard.walRecords shedChronicle.server.now).map
        (fun record => match record with
          | .upsert ps => some (ps.clientId, ps.expirySecs)
          | .remove _ => none) = [some ("a", sessionNeverExpires)] := by
  decide

/-- A client connects for an hour and hangs up. -/
def suspendedChronicle : Chronicle :=
  Lib.run (fun ch op => ch.apply openEnv op) { server := freshServer }
    [.accept .none,
      .packet 0 (.connect
        { clientId := "a", cleanSession := false
          properties := some { sessionExpiryInterval := some 3600 } }) {},
      .hangUp 0 .eof, .close 0]

theorem persisted_genuine_iff_suspended :
    suspendedChronicle.server.persisted.map (fun ps => (ps.clientId, ps.expirySecs)) =
      [("a", 3600)] ∧
      ∀ ps ∈ suspendedChronicle.server.persisted, suspendedChronicle.Genuine ps := by
  have hrun : Reached openEnv { server := freshServer } suspendedChronicle :=
    Lib.reached_run _ _
  refine ⟨by decide, (persisted_genuine_iff openEnv freshServer_started hrun).mpr ?_⟩
  -- no connection is left
  intro id c session hc
  have hnone : suspendedChronicle.server.tasks id = none := by
    rcases id with _ | id <;> rfl
  exact nomatch hnone.symm.trans hc

end Chronicle

end Rusquitto
