import Rusquitto.Broker.View

/-!
# A client's session as a key of a write-behind store

The durable state of a client is that of its suspended session. Each operation of a shard is, for
every client, one of the changes that write-behind logging allows (`Lib.WriteBehind.Moves`): it
leaves the durable state alone, or it leaves the mark that the change calls for, or it takes the
mailbox of a connection that has yet to hand its state in.
-/

namespace Rusquitto

open Session Option
open Lib.WriteBehind (Memory Moves)

variable {v' : ClientView} {generation : ℕ}

/-! ### A client's durable state -/

/-- Two durable states are the same: the subscriptions as a set, everything else as it is. -/
structure MigratedSession.Same (a b : MigratedSession) : Prop where
  subscriptions : a.subscriptions.Perm b.subscriptions
  inflight : a.inflight = b.inflight
  incomingQos2 : a.incomingQos2 = b.incomingQos2
  nextPkid : a.nextPkid = b.nextPkid
  offline : a.offline = b.offline

/-- The same durable state, or the same absence. -/
inductive SameState : Option MigratedSession → Option MigratedSession → Prop
  | absent : SameState none none
  | present {a b : MigratedSession} : a.Same b → SameState (some a) (some b)

lemma SameState.refl (a : Option MigratedSession) : SameState a a := by
  cases a with
  | none => exact .absent
  | some a => exact .present ⟨.refl _, rfl, rfl, rfl, rfl⟩

lemma SameState.map_offline {β : Type} {f : List Delivery → β} {a b : Option MigratedSession}
    (h : SameState a b) : a.map (fun s => f s.offline) = b.map fun s => f s.offline := by
  cases h with
  | absent => rfl
  | present h => rw [map_some, map_some, h.offline]

/-- A suspended session that is about to expire stays so. -/
lemma ClientView.expiring_mono (v : ClientView) {t t' : ℕ} (ht : t ≤ t')
    (h : v.expiring t = true) : v.expiring t' = true := by
  unfold ClientView.expiring at *
  cases hs : v.session with
  | none => simp [hs] at h
  | some session =>
    simp only [hs, any_some, Bool.and_eq_true, any_eq_true, decide_eq_true_iff] at h ⊢
    obtain ⟨hoff, deadline, hd, hr⟩ := h
    refine ⟨hoff, deadline, hd, ?_⟩
    have hle : (deadline - t') / nanosPerSec ≤ (deadline - t) / nanosPerSec :=
      Nat.div_le_div_right (by omega)
    exact Nat.le_zero.mp (hr ▸ hle)

/-- A client as a key of the write-behind store. `live` are the generations of its connections that
run: a record without a mailbox whose connection still runs has been shed, and its state is in the
hands of that connection. -/
def ClientView.memory (v : ClientView) (live : ℕ → Prop) : Memory MigratedSession where
  value := v.durable
  mark := v.wal.join
  lapsing t := v.expiring t = true
  lapsing_mono := v.expiring_mono
  unsettled := ∃ session, v.session = some session ∧ session.online = false ∧
    live session.generation

/-- What holds of a record and the connections of its client while the log is enabled. `shedding`
says whether the shard drops mailboxes of running connections. -/
structure ClientView.Coherent (shedding : Bool) (v : ClientView) (live : ℕ → Prop) : Prop where
  walOn : v.wal.isSome
  /-- A mailbox belongs to a running connection. -/
  mailbox_live {session : Session} : v.session = some session → session.mailbox.isSome →
    live session.generation
  /-- A running connection's session is not parked. -/
  live_unparked {session : Session} : v.session = some session → live session.generation →
    session.parked = false
  /-- A running connection's session has its mailbox, unless that was shed. -/
  live_mailbox {session : Session} : shedding = false → v.session = some session →
    live session.generation → session.mailbox.isSome

namespace ClientView

variable {shedding : Bool} {v : ClientView} {live live' : ℕ → Prop} {session : Session}

/-! ### What each operation does to a key -/

lemma durable_of_session (h : v.session = some session) : v.durable = if session.online then none
      else some (ShardState.packageSession v.subs session) := by
  rw [durable, h]

/-- A client that is offline or has no record has nothing durable to lose. -/
def Absent (v : ClientView) : Prop :=
  ∀ session, v.session = some session → session.online = true

lemma Absent.durable_eq (h : v.Absent) : v.durable = none := by
  unfold durable
  split
  · rfl
  next session hs => rw [if_pos (h session hs)]

lemma Absent.not_expiring (h : v.Absent) (t : ℕ) : ¬v.expiring t = true := by
  unfold expiring
  cases hs : v.session with
  | none => simp
  | some session => simp [h session hs]

lemma Absent.settled (h : v.Absent) : ¬(v.memory live).unsettled := by
  rintro ⟨session, hs, hoff, _⟩
  rw [h session hs] at hoff
  cases hoff

/-- A change between two absent states that keeps the mark. -/
lemma Absent.moves (h : v.Absent) (h' : v'.Absent) (hwal : v'.wal = v.wal) :
    Moves (v.memory live) (v'.memory live') :=
  .keep (h'.durable_eq.trans h.durable_eq.symm) (congrArg join hwal)
    (fun t ht => absurd ht (h.not_expiring t)) fun hu => absurd hu h.settled

lemma absent_of_none (h : v.session = none) : v.Absent := by
  intro session hs
  rw [h] at hs
  cases hs

lemma absent_of_online (h : v.session = some session) (hon : session.online = true) :
    v.Absent := by
  intro session' hs
  rw [h] at hs
  cases hs
  exact hon

section

variable (hwal : v.wal.isSome)
include hwal

lemma marked_join (m : Mark) : (v.marked m).wal.join = some m := by
  obtain ⟨w, hw⟩ := isSome_iff_exists.mp hwal
  simp [marked, hw]

/-- The end of a session. -/
lemma moves_discarded : Moves (v.memory live) (v.discarded.memory live') :=
  .drop (marked_join hwal .removed) (.inr rfl)

/-- A record that is rewritten as a suspended one and marked dirty. -/
lemma moves_dirty (hoff : session.online = false) :
    Moves (v.memory live) (({ v with session := some session }.marked .dirty).memory live') := by
  have hdurable : ({ v with session := some session }.marked .dirty).durable =
      some (ShardState.packageSession v.subs session) :=
    (durable_of_session rfl).trans (if_neg (by simp [hoff]))
  exact .put (marked_join hwal .dirty) (ne_of_eq_of_ne hdurable nofun)

lemma moves_opened (mailbox generation : ℕ) (cleanStart : Bool) :
    Moves (v.memory live) ((v.opened mailbox generation cleanStart).memory live') := by
  unfold opened
  split
  next hnone => exact (absent_of_none hnone).moves (absent_of_online rfl rfl) rfl
  next session hsome =>
    -- the tombstone is for the record that was here; the new one is online
    have hdrop : ∀ v' : ClientView, v'.Absent → v'.wal.join = some .removed →
        Moves (v.memory live) (v'.memory live') :=
      fun v' habsent hmark => .drop hmark (.inr habsent.durable_eq)
    split
    · exact hdrop _ (absent_of_online rfl rfl) (marked_join hwal .removed)
    · exact hdrop _ (absent_of_online rfl rfl) (marked_join hwal .removed)

end

/-- Parking keeps the client connected. -/
lemma moves_parked {snapshot : SessionSnapshot} (h : v.session = some session)
    (hown : ¬(session.generation ≠ generation ∨ session.mailbox = none)) :
    Moves (v.memory live) ((v.parked generation snapshot).memory live') := by
  have hon : session.online = true := by
    simp only [not_or, not_not] at hown
    simp [online, isSome_iff_ne_none, hown.2]
  simp only [parked, h, if_neg hown]
  exact (absent_of_online h hon).moves (absent_of_online rfl (by simp [online, park]))
    rfl

lemma moves_reattached {mailbox : ℕ} (h : v.session = some session)
    (hown : ¬(session.generation ≠ generation ∨ session.parked = false)) :
    Moves (v.memory live) ((v.reattached generation mailbox).memory live') := by
  have hon : session.online = true := by
    simp only [not_or, not_not, Bool.not_eq_false] at hown
    simp [online, hown.2]
  simp only [reattached, h, if_neg hown]
  exact (absent_of_online h hon).moves (absent_of_online rfl rfl) rfl

lemma moves_suspended (hc : v.Coherent shedding live) (now generation : ℕ) (expirySecs : UInt32) :
    Moves (v.memory live) ((v.suspended now generation expirySecs).memory live) := by
  unfold suspended
  split
  · exact .refl _
  next session hsome =>
    split
    · exact .refl _
    next hown =>
      split
      · exact moves_discarded hc.walOn
      · refine moves_dirty hc.walOn ?_
        -- a parked record has no mailbox: its connection does not run
        have hmailbox : session.mailbox.isSome = false := by
          by_contra hm
          have hlive := hc.mailbox_live hsome (eq_true_of_ne_false hm)
          exact hown (.inr (hc.live_unparked hsome hlive))
        simp [online, suspend, hmailbox]

/-- A running connection closes its session. -/
lemma moves_closed (hc : v.Coherent shedding live) (h : v.session = some session)
    (hlive : live session.generation) (now : ℕ) (expirySecs : UInt32)
    (snapshot : SessionSnapshot) (pending : List Delivery) : Moves (v.memory live)
      ((v.closed now session.generation expirySecs snapshot pending).memory live') := by
  simp only [closed, h, ne_eq, not_true_eq_false, if_false]
  split
  · exact moves_discarded hc.walOn
  · refine moves_dirty hc.walOn ?_
    simp [online, close, hc.live_unparked h hlive]

lemma moves_claimed (hwal : v.wal.isSome) : Moves (v.memory live) (v.claimed.memory live) := by
  unfold claimed
  split
  · exact .refl _
  · exact moves_discarded hwal

/-- A record that changes only in its will. -/
lemma moves_will {will : Option (Publish × ℕ)} (h : v.session = some session) :
    Moves (v.memory live)
      ({ v with session := some { session with pendingWill := will } }.memory live) := by
  refine .keep ?_ rfl (fun t ht => ?_) ?_
  · exact (durable_of_session h).symm
  · have hexp : v.expiring t = true := ht
    rw [expiring, h] at hexp
    exact hexp
  · rintro ⟨session', hs, hoff, hlive⟩
    rw [h] at hs
    cases hs
    exact ⟨_, rfl, hoff, hlive⟩

lemma moves_willArmed (now generation : ℕ) (will : Publish) (delaySecs : UInt32) :
    Moves (v.memory live) ((v.willArmed now generation will delaySecs).memory live) := by
  unfold willArmed
  split
  · exact .refl _
  next session hsome =>
    split
    · exact moves_will hsome
    · exact .refl _

lemma moves_swept (hwal : v.wal.isSome) (now : ℕ) :
    Moves (v.memory live) ((v.swept now).memory live) := by
  unfold swept
  split
  · exact .refl _
  next session hsome =>
    split
    · exact moves_discarded hwal
    · unfold fireWill
      split
      · exact moves_will hsome
      · rw [← hsome]
        exact .refl _

/-- Dropping a mailbox leaves the state with the connection that still runs. -/
lemma moves_shed (hc : v.Coherent shedding live) : Moves (v.memory live) (v.shed.memory live) := by
  cases hs : v.session with
  | none =>
    rw [shed, hs, map_none, ← hs]
    exact .refl _
  | some session =>
    by_cases hm : session.mailbox.isSome
    · have hlive := hc.mailbox_live hs hm
      have hoff : session.shed.online = false := by
        simp [Session.online, Session.shed, hc.live_unparked hs hlive]
      have hsome : v.shed.session = some session.shed := by rw [shed, hs, map_some]
      refine .unsettle ⟨_, hsome, hoff, hlive⟩ rfl fun _ => ?_
      have hdurable := durable_of_session hsome
      rw [hoff] at hdurable
      exact ne_of_eq_of_ne hdurable (some_ne_none _)
    · have hsame : session.shed = session := by
        rw [Session.shed, ← not_isSome_iff_eq_none.mp hm]
      rw [shed, hs, map_some, hsame, ← hs]
      exact .refl _

/-- A change of the subscriptions of a client that is not suspended. -/
lemma moves_subs (subs : List FlatSub)
    (hns : ∀ session, v.session = some session → session.online = false →
      live session.generation) :
    Moves (v.memory live) ({ v with subs }.memory live) := by
  cases hs : v.session with
  | none => exact (absent_of_none hs).moves (absent_of_none rfl) rfl
  | some session =>
    cases hon : session.online with
    | true => exact (absent_of_online hs hon).moves (absent_of_online rfl hon) rfl
    | false =>
      refine .unsettle ⟨session, rfl, hon, hns session hs hon⟩ rfl fun _ => ?_
      have hdurable : ClientView.durable ⟨some session, subs, v.wal⟩ =
          some (ShardState.packageSession subs session) :=
        (durable_of_session rfl).trans (if_neg (by simp [hon]))
      exact ne_of_eq_of_ne hdurable nofun

lemma moves_delivered (hwal : v.wal.isSome) (delivery : Delivery) :
    Moves (v.memory live) ((v.delivered delivery).memory live) := by
  unfold delivered
  split
  · exact .refl _
  next session hsome =>
    split
    · exact .refl _
    next hm =>
      split
      next hp =>
        have hon : session.online = true := by simp [online, hp]
        exact (absent_of_online hsome hon).moves
          (absent_of_online rfl (by simp [online, enqueue, hp])) rfl
      next hp =>
        split
        · refine moves_dirty hwal ?_
          simpa [online, enqueue, hp] using hm
        · exact .refl _

/-! ### Records and running connections stay coherent -/

/-- The record, if there still is one, belongs to the same connection; its mailbox is the same, and
it does not become parked. -/
def Narrows (v v' : ClientView) : Prop :=
  v'.wal.isSome = v.wal.isSome ∧ ∀ session', v'.session = some session' →
    ∃ session, v.session = some session ∧ session'.generation = session.generation ∧
      session'.mailbox = session.mailbox ∧ (session'.parked → session.parked)

lemma Coherent.narrows (hc : v.Coherent shedding live) (h : v.Narrows v') :
    v'.Coherent shedding live := by
  refine ⟨h.1.trans hc.walOn, fun {session'} hs' hm => ?_, fun {session'} hs' hl => ?_,
    fun {session'} hno hs' hl => ?_⟩
  all_goals obtain ⟨session, hs, hg, hmail, hpark⟩ := h.2 session' hs'
  · rw [hg]
    exact hc.mailbox_live hs (hmail ▸ hm)
  · rw [hg] at hl
    have hp := hc.live_unparked hs hl
    cases hp' : session'.parked with
    | false => rfl
    | true => rw [hpark hp'] at hp; cases hp
  · rw [hmail]
    exact hc.live_mailbox hno hs (hg ▸ hl)

lemma Narrows.refl (v : ClientView) : v.Narrows v :=
  ⟨rfl, fun session hs => ⟨session, hs, rfl, rfl, id⟩⟩

/-- A record that is rewritten for the same connection. -/
lemma Narrows.change {gone guard : Session → Prop} {f : Session → Session}
    (h : v.Change gone guard f v') (hf : ∀ session, (f session).generation = session.generation ∧
      (f session).mailbox = session.mailbox ∧ ((f session).parked → session.parked)) :
        v.Narrows v' := by
  cases h with
  | stays => exact .refl _
  | ends => exact ⟨isSome_map, fun _ h => nomatch h⟩
  | turns hs _ hwal =>
    refine ⟨hwal, fun session' hs' => ?_⟩
    cases hs'
    exact ⟨_, hs, hf _⟩

lemma narrows_suspended (now generation : ℕ) (expirySecs : UInt32) :
    v.Narrows (v.suspended now generation expirySecs) :=
  .change (v.change_suspended ..) fun _ => ⟨rfl, rfl, nofun⟩

lemma narrows_claimed : v.Narrows v.claimed :=
  .change v.change_claimed fun _ => ⟨rfl, rfl, id⟩

lemma narrows_willArmed (now generation : ℕ) (will : Publish) (delaySecs : UInt32) :
    v.Narrows (v.willArmed now generation will delaySecs) :=
  .change (v.change_willArmed ..) fun _ => ⟨rfl, rfl, id⟩

lemma narrows_swept (now : ℕ) : v.Narrows (v.swept now) :=
  .change (v.change_swept now) fun session => by
    unfold fireWill
    split <;> exact ⟨rfl, rfl, id⟩

/-- Where mailboxes may be shed, dropping one leaves the record coherent. -/
lemma coherent_shed (hc : v.Coherent true live) : v.shed.Coherent true live := by
  refine ⟨hc.walOn, fun hs' hm => ?_, fun hs' hl => ?_, nofun⟩
  all_goals obtain ⟨session, hs, rfl⟩ := map_eq_some_iff.mp hs'
  · cases hm
  · have hp : session.parked = false := hc.live_unparked hs hl
    exact hp

lemma narrows_delivered (delivery : Delivery) : v.Narrows (v.delivered delivery) :=
  .change (v.change_delivered delivery) fun _ => ⟨rfl, rfl, id⟩

/-- A connection that owns no record stops running. -/
lemma moves_stop (h : ∀ session, v.session = some session → session.generation ≠ generation) :
    Moves (v.memory live) (v.memory fun g => live g ∧ g ≠ generation) := by
  refine .keep rfl rfl (fun _ => id) ?_
  rintro ⟨session, hs, hoff, hlive⟩
  exact ⟨session, hs, hoff, hlive, h session hs⟩

section

variable (hc : v.Coherent shedding live)
include hc

/-- The connection of generation `generation` closes its session and stops running. -/
lemma moves_close_stop (hlive : live generation) (now : ℕ) (expirySecs : UInt32)
    (snapshot : SessionSnapshot) (pending : List Delivery) : Moves (v.memory live)
      ((v.closed now generation expirySecs snapshot pending).memory
        fun g => live g ∧ g ≠ generation) := by
  by_cases hown : ∃ session, v.session = some session ∧ session.generation = generation
  · obtain ⟨session, hs, rfl⟩ := hown
    exact moves_closed hc hs hlive now expirySecs snapshot pending
  · push Not at hown
    have hsame : v.closed now generation expirySecs snapshot pending = v := by
      unfold closed
      split
      · rfl
      next session hs => rw [if_pos (hown session hs)]
    rw [hsame]
    exact moves_stop hown

/-- A connection that closes its session and stops leaves no mailbox behind. -/
lemma coherent_close_stop (now generation : ℕ) (expirySecs : UInt32) (snapshot : SessionSnapshot)
    (pending : List Delivery) :
    (v.closed now generation expirySecs snapshot pending).Coherent shedding
      fun g => live g ∧ g ≠ generation := by
  unfold closed
  split
  next hnone =>
    have hno : ∀ session, v.session ≠ some session := fun session hs => nomatch hnone.symm.trans hs
    exact ⟨hc.walOn, fun hs => absurd hs (hno _), fun hs => absurd hs (hno _),
      fun _ hs => absurd hs (hno _)⟩
  next session hsome =>
    split
    next hother =>
      -- the record is another connection's, which goes on running
      refine ⟨hc.walOn, fun hs hm => ⟨hc.mailbox_live hs hm, ?_⟩,
        fun hs hl => hc.live_unparked hs hl.1, fun hno hs hl => hc.live_mailbox hno hs hl.1⟩
      rw [hsome] at hs
      cases hs
      exact hother
    next hown =>
      split
      · exact ⟨isSome_map.trans hc.walOn, nofun, nofun, nofun⟩
      · refine ⟨isSome_map.trans hc.walOn, fun hs hm => ?_, fun hs hl => ?_,
          fun _ hs hl => ?_⟩
        · cases hs
          cases hm
        · cases hs
          have hp : session.parked = false := hc.live_unparked hsome hl.1
          exact hp
        · cases hs
          exact absurd (not_not.mp hown) hl.2

/-- The session of a connection that has just been opened. -/
lemma coherent_opened (mailbox : ℕ) (cleanStart : Bool) (hlive : live' generation) :
    (v.opened mailbox generation cleanStart).Coherent shedding live' := by
  -- in every branch the record is the new connection's own
  have hfresh : ∀ (session : Session) (subs : List FlatSub) (wal : Option (Option Mark)),
      wal.isSome → session.generation = generation → session.parked = false →
      session.mailbox.isSome →
      ClientView.Coherent shedding ⟨some session, subs, wal⟩ live' := by
    rintro session subs wal hwal rfl hp hm
    refine ⟨hwal, fun hs _ => ?_, fun hs _ => ?_, fun _ hs _ => ?_⟩
    all_goals cases hs
    · exact hlive
    · exact hp
    · exact hm
  unfold opened
  split
  · exact hfresh _ _ _ hc.walOn rfl rfl rfl
  · split
    · exact hfresh _ _ _ (isSome_map.trans hc.walOn) rfl rfl rfl
    · exact hfresh _ _ _ (isSome_map.trans hc.walOn) rfl rfl rfl

/-- What holds of one delivery holds of a run of them. -/
lemma moves_receives (h : ShardState.Receives v v') :
    Moves (v.memory live) (v'.memory live) ∧ v'.Coherent shedding live := by
  obtain ⟨deliveries, rfl⟩ := h
  induction deliveries generalizing v with
  | nil => exact ⟨.refl _, hc⟩
  | cons d ds ih =>
    obtain ⟨hmoves, hcoherent⟩ := ih (hc.narrows (narrows_delivered d))
    exact ⟨(moves_delivered hc.walOn d).trans hmoves, hcoherent⟩

end

end ClientView

end Rusquitto
