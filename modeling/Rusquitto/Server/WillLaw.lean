import Rusquitto.Server.Heirs
import Rusquitto.Server.Lives

/-!
# Wills are published once, and when they are due

When its connection ends a will is dropped, or published, or left in the session record until the
first sweep past its deadline (`Life.Armed`). In the life of a generation there is at most one copy
of it at any time (`Life.Single`), and none after a connection has given it up (`Life.Mute`).
-/

namespace Rusquitto

open ShardState Connection Option List Server
open Session (Outline)

variable {k : String} {o : Outline} {b : Bearer} {r : Option (String × Outline)} {will : Publish}
  {id deadline : ℕ} {session : Session}

namespace Life

variable {occ : Occasion} {life life' : Life} {fire : Option Publish} {fires : List Publish}

/-- No will waits in the record. -/
def Unarmed (r : Option (String × Outline)) : Prop := ∀ entry ∈ r, entry.2.pendingWill = none

@[simp]
lemma unarmed_none : Unarmed none := by
  simp [Unarmed]

@[simp]
lemma unarmed_some : Unarmed (some (k, o)) ↔ o.pendingWill = none := by
  simp [Unarmed]

/-- A record that a connection leaves behind has the will it had. -/
lemma unarmed_unlessEnded (h : o.pendingWill = none) (expiry : UInt32) (k : String) :
    Unarmed ((o.unlessEnded expiry).map (k, ·)) := by
  cases hended : o.unlessEnded expiry with
  | none => exact unarmed_none
  | some o' =>
    obtain rfl := Outline.eq_of_unlessEnded hended
    exact unarmed_some.mpr h

/-- There is one copy of the will at most: while there is a bearer none waits in the record, and a
bearer that is about to publish its will has no other. -/
def Single (life : Life) : Prop :=
  ∀ b ∈ life.bearer, Unarmed life.record ∧ ∀ will, b.role = .willing will → b.will = none

/-- The will is gone, and so is the connection. -/
def Spent (life : Life) : Prop := life.bearer = none ∧ Unarmed life.record

/-- There is no will. -/
def Mute (life : Life) : Prop :=
  (∀ b ∈ life.bearer, b.will = none ∧ ∀ will, b.role ≠ .willing will) ∧ Unarmed life.record

lemma single_some :
    Single ⟨some b, r⟩ ↔ Unarmed r ∧ ∀ will, b.role = .willing will → b.will = none := by
  simp [Single]

lemma single_none : Single ⟨none, r⟩ := by
  simp [Single]

lemma mute_some :
    Mute ⟨some b, r⟩ ↔ (b.will = none ∧ ∀ will, b.role ≠ .willing will) ∧ Unarmed r := by
  simp [Mute]

lemma mute_none : Mute ⟨none, r⟩ ↔ Unarmed r := by
  simp [Mute]

lemma Spent.mute (h : life.Spent) : life.Mute := by
  refine ⟨fun b hb => ?_, h.2⟩
  rw [h.1] at hb
  exact nomatch hb

lemma not_willing {role : Role} (hrole : role = .speaking ∨ role = .dormant) (will : Publish) :
    role ≠ .willing will := by
  rintro rfl
  rcases hrole with h | h <;> exact nomatch h

lemma Single.step (h : life.Single) (hstep : Step occ life fire life') : life'.Single := by
  cases hstep with
  | opened mailbox hfresh hexpiry hrole hname =>
    exact single_some.mpr ⟨unarmed_some.mpr rfl,
      fun will hw => absurd hw (not_willing (.inl hrole) will)⟩
  | loaded | leaves | closes | closesArming | publishes | dismissed | strays | suspends
  | suspendsWilling | suspendsArming => exact single_none
  | recalled o => exact fun b hb => ⟨unarmed_none, (h b hb).2⟩
  | recants r hrole =>
    exact single_some.mpr ⟨(single_some.mp h).1, fun _ _ => rfl⟩
  | shed o hrole =>
    have ho : o.pendingWill = none := unarmed_some.mp (single_some.mp h).1
    exact single_some.mpr ⟨unarmed_some.mpr ho, (single_some.mp h).2⟩
  | @parks b o snapshot hrole =>
    have ho : o.pendingWill = none := unarmed_some.mp (single_some.mp h).1
    exact single_some.mpr ⟨unarmed_some.mpr ho, fun _ hw => nomatch hw⟩
  | @reattaches b o mailbox hrole =>
    have ho : o.pendingWill = none := unarmed_some.mp (single_some.mp h).1
    exact single_some.mpr ⟨unarmed_some.mpr ho, fun _ hw => nomatch hw⟩
  | loses => exact single_some.mpr ⟨(single_some.mp h).1, fun _ _ => rfl⟩
  | @closesWilling b will o snapshot =>
    have ho : o.pendingWill = none := unarmed_some.mp (single_some.mp h).1
    exact single_some.mpr ⟨unarmed_unlessEnded (o := o.close occ.now b.expiry snapshot) ho _ _,
      fun _ _ => rfl⟩
  | fires => exact fun b hb => ⟨unarmed_some.mpr rfl, (h b hb).2⟩
  | expires => exact fun b hb => ⟨unarmed_none, (h b hb).2⟩

/-- A will that is published was the only copy. -/
lemma Single.spent (h : life.Single) (hstep : Step occ life (some will) life') : life'.Spent := by
  generalize hfire : some will = fire at hstep
  cases hstep with
  | publishes r hrole => exact ⟨rfl, (single_some.mp h).1⟩
  | @suspendsWilling b o =>
    have ho : o.pendingWill = none := unarmed_some.mp (single_some.mp h).1
    exact ⟨rfl, unarmed_unlessEnded (o := o.suspend occ.now b.expiry) ho _ _⟩
  | @fires b k o _ _ hwill =>
    -- the will waited in the record, so there is no bearer
    refine ⟨eq_none_iff_forall_ne_some.mpr fun b' hb => ?_, unarmed_some.mpr rfl⟩
    exact nomatch (unarmed_some.mp (h b' hb).1).symm.trans hwill
  | @expires b k o =>
    refine ⟨eq_none_iff_forall_ne_some.mpr fun b' hb => ?_, unarmed_none⟩
    rw [unarmed_some.mp (h b' hb).1] at hfire
    exact nomatch hfire
  | opened | loaded | recalled | recants | shed | parks | reattaches | loses | leaves | closes
  | closesWilling | closesArming | dismissed | strays | suspends | suspendsArming =>
    exact nomatch hfire

lemma Mute.single (h : life.Mute) : life.Single :=
  fun b hb => ⟨h.2, fun will hw => absurd hw ((h.1 b hb).2 will)⟩

/-- Where there is no will, none is published, and only a new session brings one. -/
lemma Mute.step (h : life.Mute) (hold : ¬occ.fresh) (hstep : Step occ life fire life') :
    life'.Mute ∧ fire = none := by
  cases hstep with
  | opened mailbox hfresh => exact absurd hfresh hold
  | loaded ps hfresh => exact absurd hfresh hold
  | recalled o => exact ⟨⟨h.1, unarmed_none⟩, rfl⟩
  | recants r hrole =>
    exact ⟨mute_some.mpr ⟨⟨rfl, not_willing (.inl hrole)⟩, h.2⟩, rfl⟩
  | shed o hrole =>
    have ho : o.pendingWill = none := unarmed_some.mp h.2
    exact ⟨mute_some.mpr ⟨(mute_some.mp h).1, unarmed_some.mpr ho⟩, rfl⟩
  | @parks b o snapshot hrole =>
    have ho : o.pendingWill = none := unarmed_some.mp h.2
    exact ⟨mute_some.mpr ⟨⟨(mute_some.mp h).1.1, not_willing (.inr rfl)⟩, unarmed_some.mpr ho⟩, rfl⟩
  | @reattaches b o mailbox hrole =>
    have ho : o.pendingWill = none := unarmed_some.mp h.2
    exact ⟨mute_some.mpr ⟨⟨(mute_some.mp h).1.1, not_willing (.inl rfl)⟩, unarmed_some.mpr ho⟩, rfl⟩
  | loses => exact ⟨mute_some.mpr ⟨⟨rfl, not_willing (.inl rfl)⟩, h.2⟩, rfl⟩
  | leaves | dismissed | strays => exact ⟨mute_none.mpr h.2, rfl⟩
  | @closes b o snapshot =>
    have ho : o.pendingWill = none := unarmed_some.mp h.2
    exact ⟨mute_none.mpr
      (unarmed_unlessEnded (o := o.close occ.now b.expiry snapshot) ho _ _), rfl⟩
  | @suspends b o =>
    have ho : o.pendingWill = none := unarmed_some.mp h.2
    exact ⟨mute_none.mpr (unarmed_unlessEnded (o := o.suspend occ.now b.expiry) ho _ _), rfl⟩
  | closesWilling _ _ _ hwill | closesArming _ _ _ hwill | suspendsWilling _ _ hwill
  | suspendsArming _ _ hwill => exact nomatch (mute_some.mp h).1.1.symm.trans hwill
  | publishes r hrole => exact absurd hrole ((mute_some.mp h).1.2 _)
  | fires hwill => exact nomatch (unarmed_some.mp h.2).symm.trans hwill
  | expires =>
    refine ⟨⟨h.1, unarmed_none⟩, ?_⟩
    rw [unarmed_some.mp h.2]
    rfl

lemma Mute.steps (h : life.Mute) (hold : ¬occ.fresh) (hsteps : Steps occ life fires life') :
    life'.Mute ∧ fires = [] := by
  induction hsteps with
  | nil => exact ⟨h, rfl⟩
  | cons hstep _ ih =>
    obtain ⟨hmute, rfl⟩ := h.step hold hstep
    exact ih hmute

/-- Without a connection there will be none: a new one has a newer generation. -/
lemma Step.bearer_none (h : life.bearer = none) (hold : ¬occ.fresh)
    (hstep : Step occ life fire life') : life'.bearer = none := by
  cases hstep with
  | opened mailbox hfresh => exact absurd hfresh hold
  | loaded ps hfresh => exact absurd hfresh hold
  | recalled | fires | expires => exact h
  | leaves | closes | closesArming | publishes | dismissed | strays | suspends | suspendsWilling
  | suspendsArming => rfl
  | recants | shed | parks | reattaches | loses | closesWilling => exact nomatch h

lemma Spent.steps (h : life.Spent) (hold : ¬occ.fresh) (hsteps : Steps occ life fires life') :
    life'.Spent ∧ fires = [] := by
  have hmute := h.mute.steps hold hsteps
  have hgone : life'.bearer = none :=
    hsteps.inv (·.bearer = none) (fun _ _ _ hstep hb => hstep.bearer_none hb hold) h.1
  exact ⟨⟨hgone, hmute.1.2⟩, hmute.2⟩

lemma Single.steps (h : life.Single) (hsteps : Steps occ life fires life') : life'.Single :=
  hsteps.inv Single (fun _ _ _ hstep hsingle => hsingle.step hstep) h

/-- In one piece of work at most one will is published, and then there is none left. -/
lemma Single.steps_fires (h : life.Single) (hold : ¬occ.fresh)
    (hsteps : Steps occ life fires life') :
    fires = [] ∨ (∃ will, fires = [will]) ∧ life'.Spent := by
  induction hsteps with
  | nil => exact .inl rfl
  | @cons life₁ life₂ life₃ fire fires hstep hsteps ih =>
    cases fire with
    | none => exact ih (h.step hstep)
    | some will =>
      obtain ⟨hspent, rfl⟩ := (h.spent hstep).steps hold hsteps
      exact .inr ⟨⟨will, rfl⟩, hspent⟩

/-- A will waits in the record of a client. It is due before the session ends. -/
def Armed (k : String) (will : Publish) (deadline : ℕ) (life : Life) : Prop :=
  life.bearer = none ∧ ∃ o, life.record = some (k, o) ∧ o.pendingWill = some (will, deadline) ∧
    ∀ limit, o.expiresAt = some limit → deadline ≤ limit

section

variable (h : life.Armed k will deadline) (hrecalls : ¬occ.recalls k)
include h hrecalls

/-- As long as its client does not come back, a will waits until it is due. -/
lemma Armed.step (hearly : fire = none ∨ occ.now < deadline) (hstep : Step occ life fire life') :
    life' = life ∧ fire = none := by
  obtain ⟨hbearer, o, hrecord, hwill, hlimit⟩ := h
  cases hstep with
  | opened | loaded => exact nomatch hrecord
  | recalled o' hrec =>
    obtain ⟨rfl, -⟩ := Prod.mk.inj (some.inj hrecord)
    exact absurd hrec hrecalls
  | fires hdue hpast =>
    obtain ⟨-, rfl⟩ := Prod.mk.inj (some.inj hrecord)
    obtain ⟨rfl, rfl⟩ := Prod.mk.inj (some.inj (hwill.symm.trans hdue))
    rcases hearly with hnone | hlt
    · exact nomatch hnone
    · omega
  | @expires _ _ _ limit _ hend hpast =>
    obtain ⟨-, rfl⟩ := Prod.mk.inj (some.inj hrecord)
    have hle := hlimit limit hend
    rcases hearly with hnone | hlt
    · rw [hwill] at hnone
      exact nomatch hnone
    · omega
  | leaves | closes | closesArming | publishes | dismissed | strays | suspends | suspendsWilling
  | suspendsArming | recants | shed | parks | reattaches | loses | closesWilling =>
    exact nomatch hbearer

lemma Armed.steps (hearly : fires = [] ∨ occ.now < deadline) (hsteps : Steps occ life fires life') :
    life' = life ∧ fires = [] := by
  induction hsteps with
  | nil => exact ⟨rfl, rfl⟩
  | @cons life₁ life₂ life₃ fire fires hstep _ ih =>
    rw [append_eq_nil_iff, toList_eq_nil_iff] at hearly
    obtain ⟨rfl, rfl⟩ := h.step hrecalls (hearly.imp_left And.left) hstep
    exact ih h (hearly.imp_left And.right)

end

end Life

namespace Server

variable {env : Env} {srv srv' : Server} {g : ℕ} {life life' : Life} {op : ServerOp}

/-! ### Which wills a piece of work can publish -/

/-- No will of a generation is published when no task with that generation is about to publish one,
no parked connection has it, and no record or there is no sweep. -/
lemma firedOf_eq_nil (htask : ∀ id c will, srv.tasks id = some c → c.phase = .willing will →
      c.sessionGeneration ≠ g)
    (hslot : ∀ slot r, srv.parking.slots.lookup slot = some r → (srv.suspending r).2 = true →
      r.sessionGeneration ≠ g)
    (hrecord : (∃ chance, op = .sweep chance) → ∀ k session, srv.shard.sessions.lookup k =
      some session →
      session.generation ≠ g) : srv.firedOf op g = [] := by
  cases op with
  | publishWill id chance =>
    simp only [firedOf, fired]
    split
    · rfl
    · next c hc =>
      split
      · next will hphase => simp [ofGeneration, htask id c will hc hphase]
      · rfl
  | reap slot chance =>
    cases htaken : srv.parking.takeSlot slot with
    | none =>
      simp only [firedOf, fired, htaken]
      rfl
    | some taken =>
      obtain ⟨parking, r⟩ := taken
      rw [firedOf, fired_reap chance htaken]
      split
      · next hfires =>
        have hne := hslot slot r (takeSlot_spec htaken).1 hfires.1
        cases r.will <;> simp [ofGeneration, hne]
      · rfl
  | sweep chance => exact srv.shard.ofGeneration_sweptWills_none srv.now (hrecord ⟨chance, rfl⟩)
  | _ => rfl

/-- A generation without a connection publishes a will in a sweep only, from its record. -/
lemma Lives.firedOf_eq_nil (hl : srv.Lives g life) (hbearer : life.bearer = none)
    (hop : life.record = none ∨ ∀ chance, op ≠ .sweep chance) : srv.firedOf op g = [] := by
  have hb := hl.bearer
  rw [hbearer] at hb
  refine Server.firedOf_eq_nil (fun id c _ hc _ => ?_) (fun slot r hr _ => ?_)
    fun ⟨chance, hsweep⟩ k session hs => ?_
  · rintro rfl
    cases (hb _).symm.trans (bears_task hc)
  · rintro rfl
    cases (hb _).symm.trans (bears_slot hr)
  · rintro rfl
    have hr := hl.record
    rw [hop.resolve_right fun hne => hne chance hsweep] at hr
    cases (hr k).symm.trans (records_of_session hs)

/-- A task that is about to publish a will has had a session. -/
def Entitled (srv : Server) : Prop :=
  ∀ id c will, srv.tasks id = some c → c.phase = .willing will → 0 < c.sessionGeneration

lemma Entitled.firedOf_zero (hent : srv.Entitled) (h : srv.Inv) : srv.firedOf op 0 = [] := by
  refine firedOf_eq_nil (fun id c will hc hphase => (hent id c will hc hphase).ne')
    (fun _ r _ howned => ?_)
    fun _ k session hs => (h.generation_pos k session hs).ne'
  -- the session of the parked connection is still there
  generalize hsuspend : srv.suspending r = result at howned
  rcases suspendParked_eq hsuspend with ⟨hnot, -⟩ | ⟨-, session, hs, hgen, -⟩
  · exact nomatch hnot.symm.trans howned
  · exact hgen ▸ (h.generation_pos _ session hs).ne'

lemma not_willing_of_holding {phase : Phase} (h : phase.holding = true) (will : Publish) :
    phase ≠ .willing will := by
  rintro rfl
  exact nomatch h

lemma Move.entitled (hmove : Move env srv op srv') (hinv : srv.Inv) (h : srv.Entitled) :
    srv'.Entitled := by
  intro id c will hc hwill
  have hturn {r : Connection × Outcome} (hheld : r.1.phase.holding = true)
      (hr : (settle r).phase = .willing will) : False :=
    not_willing_of_holding (holding_settle hheld r.2) will hr
  have hstands {c' : Connection} {st : Standing} (hst : c'.standing = st)
      (hheld : st.identity.phase.holding = true) : c'.phase.holding = true := by
    rw [← hst] at hheld
    exact hheld
  rcases hmove.heir hc with hold | hheir
  · exact h id c will hold hwill
  · -- only a connection that has released its session is about to publish its will
    cases hheir with
    | willing _ _ _ _ howned =>
      obtain ⟨session, hs, hgen⟩ := howned
      exact hgen ▸ hinv.generation_pos _ session hs
    | accepted | ended | claimGoesOn | unparked | woken | reattachLost => exact nomatch hwill
    | processed _ _ hphase => exact (hturn (holding_processOne env hphase srv.shard _ _) hwill).elim
    | received _ _ hphase =>
      exact (hturn (hstands (standing_receive env ..) (congrArg Phase.holding hphase)) hwill).elim
    | claimed => exact (hturn (hstands (standing_claimed env ..) rfl) hwill).elim
    | reattached => exact (hturn (hstands (standing_resumeDelivery env ..) rfl) hwill).elim

/-! ### Runs -/

/-- The state after some pieces of work. -/
def after (env : Env) (srv : Server) (ops : List ServerOp) : Server :=
  Lib.run (fun srv op => srv.apply env op) srv ops

/-- The wills that are published in a run, in order. -/
def firedIn (env : Env) : Server → List ServerOp → List (ℕ × Publish)
  | _, [] => []
  | srv, op :: ops => srv.fired op ++ firedIn env (srv.apply env op) ops

section

variable (env : Env) (srv : Server) (ops ops' : List ServerOp)

lemma after_append : srv.after env (ops ++ ops') = (srv.after env ops).after env ops' := by
  rw [after, Lib.run, foldl_append]
  rfl

lemma firedIn_append :
    srv.firedIn env (ops ++ ops') = srv.firedIn env ops ++
      (srv.after env ops).firedIn env ops' := by
  induction ops generalizing srv with
  | nil => rfl
  | cons op ops ih =>
    rw [cons_append, firedIn, ih, firedIn, append_assoc]
    rfl

end

/-- What is known of the wills of a generation in a run. -/
structure Willed (srv : Server) (g : ℕ) (fires : List Publish) (life : Life) : Prop where
  inv : srv.Inv
  lives : srv.Lives g life
  published : fires = [] ∧ life.Single ∨
    (∃ will, fires = [will]) ∧ life.Spent ∧ g ≤ srv.shard.nextGeneration

variable {fires : List Publish}

lemma Willed.apply (h : srv.Willed g fires life) (hg : 0 < g) (env : Env) (op : ServerOp) :
    ∃ life', (srv.apply env op).Willed g (fires ++ srv.firedOf op g) life' ∧
      life.Steps (srv.occasion env op g) (srv.firedOf op g) life' := by
  have hmove := srv.move_apply env op
  obtain ⟨life', hlives', hsteps⟩ := hmove.follows h.inv hg life h.lives
  have hle := nextGeneration_le_apply env srv op
  refine ⟨life', ⟨h.inv.apply op, hlives', ?_⟩, hsteps⟩
  rcases h.published with ⟨rfl, hsingle⟩ | ⟨hwill, hspent, hold⟩
  · rw [nil_append]
    by_cases hold : g ≤ srv.shard.nextGeneration
    · rcases hsingle.steps_fires (not_lt.mpr hold) hsteps with hnil | ⟨hwill, hspent⟩
      · exact .inl ⟨hnil, hsingle.steps hsteps⟩
      · exact .inr ⟨hwill, hspent, hold.trans hle⟩
    · -- before its time a generation has no will
      obtain rfl := h.lives.unborn h.inv (not_le.mp hold)
      exact .inl ⟨h.lives.firedOf_eq_nil rfl (.inl rfl), hsingle.steps hsteps⟩
  · obtain ⟨hspent', hnil⟩ := hspent.steps (not_lt.mpr hold) hsteps
    rw [hnil, append_nil]
    exact .inr ⟨hwill, hspent', hold.trans hle⟩

lemma Willed.run (h : srv.Willed g fires life) (hg : 0 < g) (env : Env) (ops : List ServerOp) :
    ∃ life', (srv.after env ops).Willed g (fires ++ ofGeneration g (srv.firedIn env ops))
      life' := by
  induction ops generalizing srv fires life with
  | nil =>
    refine ⟨life, ?_⟩
    rw [firedIn, ofGeneration, filter_nil, map_nil, append_nil]
    exact h
  | cons op ops ih =>
    obtain ⟨life₁, h₁, -⟩ := h.apply hg env op
    obtain ⟨life₂, h₂⟩ := ih h₁
    refine ⟨life₂, ?_⟩
    rw [firedIn, ofGeneration_append, ← append_assoc]
    exact h₂

lemma Started.willed (h : srv.Started) (g : ℕ) : ∃ life, srv.Willed g [] life := by
  obtain ⟨life, hl⟩ := srv.exists_lives g
  have hbearer : life.bearer = none := hl.bearer.eq_none fun x => by
    cases x with
    | task id => rw [bearers, h.tasks id, bind_none]
    | slot slot =>
      rw [bearers, h.slots]
      rfl
  refine ⟨life, h.inv, hl, .inl ⟨rfl, fun b hb => ?_⟩⟩
  rw [hbearer] at hb
  cases hb

lemma Started.willed_after (h : srv.Started) (hg : 0 < g) (env : Env) (ops : List ServerOp) :
    ∃ life, (srv.after env ops).Willed g (ofGeneration g (srv.firedIn env ops)) life := by
  obtain ⟨life₀, h₀⟩ := h.willed g
  exact h₀.run hg env ops

/-- Once there is no will, none of the generation is published. -/
lemma Lives.firedIn_mute (hl : srv.Lives g life) (h : srv.Inv) (hg : 0 < g)
    (hold : g ≤ srv.shard.nextGeneration) (hmute : life.Mute) (ops : List ServerOp) :
    ofGeneration g (srv.firedIn env ops) = [] := by
  induction ops generalizing srv life with
  | nil => rfl
  | cons op ops ih =>
    have hmove := srv.move_apply env op
    obtain ⟨life', hlives', hsteps⟩ := hmove.follows h hg life hl
    obtain ⟨hmute', hnil⟩ := hmute.steps (not_lt.mpr hold) hsteps
    rw [firedIn, ofGeneration_append, ih hlives' (h.apply op)
      (hold.trans (nextGeneration_le_apply env srv op))
      hmute', append_nil]
    exact hnil

/-! ### Ends without a will -/

/-- The connection of a generation ends in a way that takes its will with it. -/
inductive Silences (srv : Server) (g : ℕ) : ServerOp → Prop where
  /-- A normal DISCONNECT. -/
  | disconnect {id : ℕ} {c : Connection} (chance : Chance) (hc : srv.tasks id = some c)
    (hphase : c.phase = .running) (hconnected : c.connected = true)
    (hgen : c.sessionGeneration = g) :
    Silences srv g (.packet id (.disconnect .normalDisconnection) chance)
  /-- The server stops, and the connection finds its mailbox closed. -/
  | shutDownNoticed {id : ℕ} {c : Connection} (hc : srv.tasks id = some c)
    (hphase : c.phase = .running) (hopened : c.mailboxTx = none)
    (hempty : srv.shard.channels id = [])
    (hclosed : srv.mailboxOpen id = false) (hshutdown : srv.shutdown = true)
    (hgen : c.sessionGeneration = g) : Silences srv g (.mailboxClosed id)
  /-- The server stops while the connection is parked. -/
  | shutDown {slot : ℕ} {r : ResumeState} (hr : srv.parking.slots.lookup slot = some r)
    (hgen : r.sessionGeneration = g) : Silences srv g .shutDown
  /-- At its end the connection finds that it was displaced. -/
  | closeDisplaced {id : ℕ} {c : Connection} (hc : srv.tasks id = some c)
    (hphase : c.phase = .ending)
    (hname : c.clientId ≠ "") (hgen : c.sessionGeneration = g)
    (hdisplaced : (srv.shard.closeSession srv.now c.clientId c.sessionGeneration c.sessionExpiry
      c.snapshot c.pendingOutbound).2 = false) : Silences srv g (.close id)
  /-- A parked connection is closed after it was displaced. -/
  | reapDisplaced {slot : ℕ} {parking : Parking} {r : ResumeState} (chance : Chance)
    (htaken : srv.parking.takeSlot slot = some (parking, r)) (hgen : r.sessionGeneration = g)
    (hdisplaced : (srv.shard.suspendParked srv.now r.clientId r.sessionGeneration
      r.sessionExpiry).2 = false) : Silences srv g (.reap slot chance)

/-- The bearer that such a connection is. -/
lemma Silences.exists_bearer (h : srv.Silences g op) : ∃ x b, srv.bearers g x = some b := by
  cases h with
  | disconnect _ hc _ _ hgen | shutDownNoticed hc _ _ _ _ _ hgen | closeDisplaced hc _ _ hgen =>
    exact ⟨_, _, hgen ▸ bears_task hc⟩
  | shutDown hr hgen => exact ⟨_, _, hgen ▸ bears_slot hr⟩
  | reapDisplaced _ htaken hgen => exact ⟨_, _, hgen ▸ bears_slot (takeSlot_spec htaken).1⟩

/-- The connection is left without a will. -/
lemma Lives.mute_of_bearer (hl : srv.Lives g life) (h : srv.Inv) (hg : 0 < g)
    (hsingle : life.Single) {x : Carrier} (hx : srv.bearers g x = some b) (hwill : b.will = none)
    (hrole : b.role = .speaking) : life.Mute := by
  have hb := hl.bearer.eq_some (h.once_bearers hg) hx
  refine ⟨fun b' hb' => ?_, (hsingle b hb).1⟩
  obtain rfl := some.inj (hb.symm.trans hb')
  exact ⟨hwill, Life.not_willing (.inl hrole)⟩

/-- Every will that waits in a record did so before. -/
def WillsKept (s s' : ShardState) : Prop :=
  ∀ k session', s'.sessions.lookup k = some session' → ∃ session,
    s.sessions.lookup k = some session ∧ session'.generation = session.generation ∧
      session'.pendingWill = session.pendingWill

lemma WillsKept.refl (s : ShardState) : WillsKept s s :=
  fun _ session' hs => ⟨session', hs, rfl, rfl⟩

lemma WillsKept.trans {s s' s'' : ShardState} (h : WillsKept s s') (h' : WillsKept s' s'') :
    WillsKept s s'' := by
  intro k session'' hs''
  obtain ⟨session', hs', hgen', hwill'⟩ := h' k session'' hs''
  obtain ⟨session, hs, hgen, hwill⟩ := h k session' hs'
  exact ⟨session, hs, hgen'.trans hgen, hwill'.trans hwill⟩

lemma willsKept_suspendParked (s : ShardState) (now : ℕ) (c : String) (generation : ℕ)
    (expirySecs : UInt32) : WillsKept s (s.suspendParked now c generation expirySecs).1 := by
  rcases hsuspend : s.suspendParked now c generation expirySecs with ⟨s', owned⟩
  rcases suspendParked_eq hsuspend with ⟨-, rfl, -⟩ | ⟨-, session, hs, -, -, hrec⟩
  · exact .refl s'
  · intro k session' hs'
    have hout := hrec k
    rw [show s'.sessions.lookup k = some session' from hs', map_some] at hout
    split at hout
    · next hk =>
      have heq := Outline.eq_of_unlessEnded hout.symm
      subst hk
      exact ⟨session, hs, congrArg Outline.generation heq, congrArg Outline.pendingWill heq⟩
    · obtain ⟨session₀, hs₀, heq⟩ := map_eq_some_iff.mp hout.symm
      exact ⟨session₀, hs₀, (congrArg Outline.generation heq).symm,
        (congrArg Outline.pendingWill heq).symm⟩

lemma willsKept_drained (s : ShardState) (now : ℕ)
    (entries : List (Sigma fun _ : ℕ => ResumeState)) : WillsKept s (drained s now entries) :=
  Lib.foldl_rel .refl .trans (fun s _ => willsKept_suspendParked s now _ _ _) entries s

lemma willsKept_shutdownConnections (s : ShardState) : WillsKept s s.shutdownConnections := by
  intro k session' hs'
  rw [shutdownConnections, AList.lookup_mapValues] at hs'
  obtain ⟨session, hs, rfl⟩ := map_eq_some_iff.mp hs'
  exact ⟨session, hs, rfl, rfl⟩

/-- The connection is gone, and no will was left behind. -/
lemma Lives.mute_of_gone (hl : srv.Lives g life) (h : srv.Inv) (hunarmed : Life.Unarmed life.record)
    (hgone : ∀ x, srv'.bearers g x = none) (hkept : WillsKept srv.shard srv'.shard) :
    ∃ life', srv'.Lives g life' ∧ life'.Mute := by
  obtain ⟨life', hl'⟩ := srv'.exists_lives g
  have hbearer := hl'.bearer.eq_none hgone
  refine ⟨life', hl', ⟨fun b hb => ?_, ?_⟩⟩
  · rw [hbearer] at hb
    exact nomatch hb
  rintro ⟨k, o⟩ hr
  obtain ⟨session', hs', rfl, hgen'⟩ := hl'.exists_session hr
  obtain ⟨session, hs, hgen, hwill⟩ := hkept k session' hs'
  have hrec := records_of_session hs
  rw [← hgen, hgen'] at hrec
  have hold := hunarmed (k, session.outline) (hl.record.eq_some (h.once_records g) hrec)
  exact hwill.trans hold

lemma close_displaced {c : Connection} (hc : srv.tasks id = some c) (hphase : c.phase = .ending)
    (hname : c.clientId ≠ "")
    (hdisplaced : (srv.tearDown c).2 = false) : srv.close id = srv.setTask id none := by
  have hat : srv.taskAt id .ending = some c := by simp [taskAt, hc, hphase]
  rcases hclose : srv.tearDown c with ⟨shard, owned⟩
  rw [hclose] at hdisplaced
  subst hdisplaced
  rcases closeSession_eq hclose with ⟨-, rfl, -⟩ | ⟨hnot, -⟩
  · have hnone : (c.will.filter fun _ => false) = none := filter_eq_none_or.mpr (.inr rfl)
    simp only [close, hat, hclose, if_neg hname, hnone]
    rfl
  · cases hnot

lemma reap_displaced {slot : ℕ} {parking : Parking} {r : ResumeState} (chance : Chance)
    (htaken : srv.parking.takeSlot slot = some (parking, r))
    (hdisplaced : (srv.suspending r).2 = false) : srv.reap env slot chance =
    { srv with parking } := by
  rcases hsuspend : srv.suspending r with ⟨shard, owned⟩
  rw [hsuspend] at hdisplaced
  subst hdisplaced
  rcases suspendParked_eq hsuspend with ⟨-, rfl, -⟩ | ⟨hnot, -⟩
  · have hnone : (r.will.filter fun _ => false) = none := filter_eq_none_or.mpr (.inr rfl)
    simp only [reap, htaken, hsuspend, hnone]
  · exact nomatch hnot

/-- After such an end there is no will. -/
lemma Silences.mute (hsilences : srv.Silences g op) (h : srv.Willed g [] life) (hg : 0 < g)
    (hsingle : life.Single) (env : Env) :
    srv.firedOf op g = [] ∧ ∃ life', (srv.apply env op).Lives g life' ∧ life'.Mute := by
  obtain ⟨life', h', hsteps⟩ := h.apply hg env op
  have hsingle' := hsingle.steps hsteps
  have hlives' := h'.lives
  have hinv' := h'.inv
  -- the record of a connection has no will in it
  have hunarmed : Life.Unarmed life.record := by
    obtain ⟨x, b, hx⟩ := hsilences.exists_bearer
    exact (hsingle b (h.lives.bearer.eq_some (h.inv.once_bearers hg) hx)).1
  cases hsilences with
  | @disconnect id c chance hc hphase hconnected hgen =>
    refine ⟨rfl, life', hlives', ?_⟩
    have hat : srv.taskAt id .running = some c := by simp [taskAt, hc, hphase]
    have htask : (srv.apply env (.packet id (.disconnect .normalDisconnection) chance)).tasks id =
        some { c with will := none, phase := .ending } := by
      have hturn : c.processOne env srv.shard chance (.disconnect .normalDisconnection) =
          .ofConn srv.shard (c.handleDisconnect .normalDisconnection) := by
        unfold processOne
        rw [if_pos hconnected]
        rfl
      simp only [apply, packet, hat, hturn]
      exact Function.update_self ..
    have hx := bears_task htask
    rw [show ({ c with will := none, phase := .ending } : Connection).sessionGeneration =
      g from hgen]
      at hx
    exact hlives'.mute_of_bearer hinv' hg hsingle' hx rfl rfl
  | @shutDownNoticed id c hc hphase hopened hempty hclosed hshutdown hgen =>
    refine ⟨rfl, life', hlives', ?_⟩
    have hat : srv.taskAt id .running = some c := by simp [taskAt, hc, hphase]
    have htask : (srv.apply env (.mailboxClosed id)).tasks id =
        some (ended c [.disconnect .serverShuttingDown] none) := by
      simp only [apply, mailboxClosed, hat]
      rw [if_pos ⟨hopened, hempty, hclosed⟩, hshutdown]
      exact Function.update_self ..
    have hx := bears_task htask
    rw [show (ended c [.disconnect .serverShuttingDown] none).sessionGeneration = g from hgen] at hx
    exact hlives'.mute_of_bearer hinv' hg hsingle' hx rfl rfl
  | @shutDown slot r hr hgen =>
    refine ⟨rfl, h.lives.mute_of_gone h.inv hunarmed (fun x => ?_)
      ((willsKept_shutdownConnections _).trans (willsKept_drained _ _ _))⟩
    -- the connection was in the registry, and nowhere else
    cases x with
    | task id =>
      have hslot : srv.bearers g (.slot slot) = some r.bearer := hgen ▸ bears_slot hr
      show srv.bearers g (.task id) = none
      exact (h.inv.once_bearers hg).eq_none_of_ne hslot fun heq => by cases heq
    | slot slot' => rfl
  | @closeDisplaced id c hc hphase hname hgen hdisplaced =>
    have happly : srv.apply env (.close id) = srv.setTask id none :=
      close_displaced hc hphase hname hdisplaced
    have hp : Passes srv (srv.setTask id none) c.sessionGeneration c.bearer none :=
      h.inv.passes_gone hc rfl rfl
    rw [happly]
    refine ⟨rfl, h.lives.mute_of_gone h.inv hunarmed ?_ (.refl _)⟩
    exact hgen ▸ hp.passed (hgen.symm ▸ hg)
  | @reapDisplaced slot parking r chance htaken hgen hdisplaced =>
    have happly : srv.apply env (.reap slot chance) = { srv with parking } :=
      reap_displaced chance htaken hdisplaced
    have hp : Passes srv { srv with parking } r.sessionGeneration r.bearer none :=
      h.inv.passes_slot htaken rfl rfl
    rw [happly, firedOf, fired_reap chance htaken, hdisplaced]
    refine ⟨rfl, h.lives.mute_of_gone h.inv hunarmed ?_ (.refl _)⟩
    exact hgen ▸ hp.passed (hgen.symm ▸ hg)

/-! ### The client comes back -/

/-- The record of a client whose session is among those that are loaded is a new one. -/
lemma generation_loadSessions {bound : ℕ} (now : ℕ) (sessions : List PersistedSession)
    (s : ShardState) (hbound : bound ≤ s.nextGeneration)
    (hk : k ∈ sessions.map PersistedSession.clientId ∨
      ∀ session, s.sessions.lookup k = some session → bound < session.generation)
    (hs : (s.loadSessions sessions now).sessions.lookup k = some session) :
    bound < session.generation := by
  induction sessions generalizing s with
  | nil => exact hk.resolve_left (not_mem_nil) session hs
  | cons ps sessions ih =>
    have hnext : (s.loadSession now ps).nextGeneration = s.nextGeneration + 1 := rfl
    refine ih (s.loadSession now ps) (by omega) ?_ hs
    have hrec := s.rewrites_loadSession now ps k
    by_cases hclient : k = ps.clientId
    · right
      intro session' hs'
      rw [hs', if_pos hclient] at hrec
      have hgen : session'.generation = s.nextGeneration + 1 :=
        congrArg Outline.generation (some.inj hrec)
      omega
    · rcases hk with hmem | hold
      · left
        rw [map_cons, mem_cons] at hmem
        exact hmem.resolve_left hclient
      · right
        intro session' hs'
        rw [hs', if_neg hclient] at hrec
        obtain ⟨session₀, hs₀, heq⟩ := map_eq_some_iff.mp hrec.symm
        have hgen : session₀.generation = session'.generation := congrArg Outline.generation heq
        exact hgen ▸ hold session₀ hs₀

/-- When a session is opened, claimed or loaded, the record of its client is a new one, or gone. -/
lemma generation_of_recalls (h : srv.Inv) (hrecalls : srv.Recalls env op k)
    (hs : (srv.apply env op).shard.sessions.lookup k = some session) :
    srv.shard.nextGeneration < session.generation := by
  cases op with
  | packet id p chance =>
    obtain ⟨c, hc, hphase, hconnected, hclient, hgen⟩ := hrecalls
    have hat : srv.taskAt id .running = some c := by simp [taskAt, hc, hphase]
    simp only [apply, packet, hat] at hs
    have hs : (c.processOne env srv.shard chance p).shard.sessions.lookup k = some session := hs
    have hanswer := answer_processOne env c srv.shard chance p
    generalize c.processOne env srv.shard chance p = turn at hanswer hclient hgen hs
    cases hanswer with
    | served hserved => cases hconnected.symm.trans hserved
    | @refused c₁ c₂ _ _ _ hvet hturn hstanding =>
      -- a client that is turned away has no generation
      have hzero := h.unopened id c hc hconnected hphase
      have hgen₂ : c₂.sessionGeneration = c₁.sessionGeneration :=
        congrArg (fun st => st.identity.sessionGeneration) hstanding
      obtain ⟨_, _, _, _, _, _, _, _, rfl⟩ := hvet
      rw [hturn] at hgen
      have hgen : c₂.sessionGeneration = srv.shard.nextGeneration + 1 := hgen
      have hgen₂ : c₂.sessionGeneration = c.sessionGeneration := hgen₂
      omega
    | @opened c₁ n connect _ _ hvet hname hturn =>
      have hrec := rewrites_openHandle env c₁ { srv.shard with nextAssignedId := n } chance
        connect.cleanSession (connect.clientId = "") k
      obtain ⟨connected, phase, -, hst⟩ := standing_openHandle env c₁
        { srv.shard with nextAssignedId := n } chance connect.cleanSession (connect.clientId = "")
      rw [← hturn] at hrec hst
      have hclient₁ : turn.conn.clientId = c₁.clientId :=
        congrArg (fun st => st.identity.clientId) hst
      rw [hs, if_pos (hclient.symm.trans hclient₁)] at hrec
      have hsgen : session.generation = srv.shard.nextGeneration + 1 :=
        congrArg Outline.generation (some.inj hrec)
      omega
  | mesh msg =>
    cases msg with
    | control control =>
      cases control with
      | claim clientId requester resume =>
        obtain rfl : clientId = k := hrecalls
        have hrec := srv.shard.rewrites_handleClaim clientId requester resume clientId
        rw [show (srv.shard.handleClaim clientId requester resume).sessions.lookup clientId =
          some session from hs, if_pos rfl] at hrec
        cases hrec
      | _ => exact hrecalls.elim
    | _ => exact hrecalls.elim
  | load sessions =>
    exact generation_loadSessions srv.now sessions srv.shard le_rfl (.inl hrecalls) hs
  | _ => exact hrecalls.elim

lemma fired_of_recalls (hrecalls : srv.Recalls env op k) : srv.fired op = [] := by
  cases op with
  | publishWill | reap | sweep => exact hrecalls.elim
  | _ => rfl

/-- A will that waits is not published any more when its client comes back. -/
lemma Inv.firedIn_recalled (h : srv.Inv) (hs : srv.shard.sessions.lookup k = some session)
    (hwill : session.pendingWill.isSome = true)
    (hsingle : ∀ life, srv.Lives session.generation life → life.Single)
    (hrecalls : srv.Recalls env op k) (ops : List ServerOp) :
    ofGeneration session.generation (srv.firedIn env (op :: ops)) = [] := by
  have hg := h.generation_pos k session hs
  have hold : ¬srv.shard.nextGeneration < session.generation := not_lt.mpr
    (h.generation_le k session hs)
  obtain ⟨⟨b, r⟩, hl⟩ := srv.exists_lives session.generation
  obtain rfl := hl.record.eq_some (h.once_records _) (records_of_session hs)
  -- the will waits in the record, so the connection is gone
  have hbearer : b = none := eq_none_iff_forall_ne_some.mpr fun b' hb => by
    have hnone : session.pendingWill = none := Life.unarmed_some.mp (hsingle _ hl b' hb).1
    rw [hnone] at hwill
    exact nomatch hwill
  have hmove := srv.move_apply env op
  obtain ⟨life', hl', hsteps⟩ := hmove.follows h hg _ hl
  have hgone : life'.bearer = none := hsteps.inv (fun life => life.bearer = none)
    (fun _ _ _ hstep hlife => hstep.bearer_none hlife hold) hbearer
  have hmute : life'.Mute := by
    refine ⟨fun b' hb => (nomatch hgone.symm.trans hb), fun ⟨k', o⟩ hr => ?_⟩
    obtain ⟨o₀, hr₀⟩ := hsteps.exists_record hold hr
    obtain rfl : k = k' := (Prod.mk.inj (some.inj hr₀)).1
    obtain ⟨session', hs', -, hgen⟩ := hl'.exists_session hr
    have hlt := generation_of_recalls h hrecalls hs'
    rw [show session'.generation = session.generation from hgen] at hlt
    exact absurd hlt hold
  rw [firedIn, fired_of_recalls hrecalls, nil_append]
  exact hl'.firedIn_mute (h.apply op) hg
    ((not_lt.mp hold).trans (nextGeneration_le_apply env srv op)) hmute ops

/-! ### Delayed wills -/

/-- The connection of a generation ends, and its will is to be published at a later time. -/
inductive Arms (srv : Server) (g : ℕ) (k : String) (will : Publish) (deadline : ℕ) : ServerOp → Prop
  where
  | close {id : ℕ} {c : Connection} (hc : srv.tasks id = some c) (hphase : c.phase = .ending)
    (hname : c.clientId ≠ "") (hclient : c.clientId = k) (hgen : c.sessionGeneration = g)
    (howned : (srv.tearDown c).2 = true) (hwill : c.will = some will)
    (hdelay : min c.willDelay c.sessionExpiry ≠ 0)
    (hdeadline : deadline = min (afterSecs srv.now c.willDelay)
      (afterSecs srv.now c.sessionExpiry)) :
    Arms srv g k will deadline (.close id)
  | reap {slot : ℕ} {parking : Parking} {r : ResumeState} (chance : Chance)
    (htaken : srv.parking.takeSlot slot = some (parking, r)) (hclient : r.clientId = k)
    (hgen : r.sessionGeneration = g)
    (howned : (srv.suspending r).2 = true) (hwill : r.will = some will)
    (hdelay : min r.willDelay r.sessionExpiry ≠ 0)
    (hdeadline : deadline = min (afterSecs srv.now r.willDelay)
      (afterSecs srv.now r.sessionExpiry)) :
    Arms srv g k will deadline (.reap slot chance)

lemma afterSecs_min (now : ℕ) (secs secs' : UInt32) :
    afterSecs now (min secs secs') = min (afterSecs now secs) (afterSecs now secs') := by
  show afterSecs now (if secs ≤ secs' then secs else secs') = _
  unfold afterSecs
  split
  · next hle =>
    have hnat : secs.toNat ≤ secs'.toNat := UInt32.le_iff_toNat_le.mp hle
    rw [min_eq_left (Nat.add_le_add_left (Nat.mul_le_mul_right _ hnat) _)]
  · next hnot =>
    have hnat : secs'.toNat ≤ secs.toNat := by
      rw [UInt32.le_iff_toNat_le] at hnot
      omega
    rw [min_eq_right (Nat.add_le_add_left (Nat.mul_le_mul_right _ hnat) _)]

/-- A record that is left with a will and a deadline. -/
lemma Life.armed_of {now : ℕ} {delay expiry : UInt32}
    (hexpiry : o.expiresAt = expiryDeadline now expiry) :
    Life.Armed k will (min (afterSecs now delay) (afterSecs now expiry))
      ⟨none, some (k, o.armWill will (afterSecs now (min delay expiry)))⟩ := by
  refine ⟨rfl, _, rfl, ?_, fun limit hlimit => ?_⟩
  · rw [afterSecs_min]
    rfl
  · have hlimit : o.expiresAt = some limit := hlimit
    rw [hexpiry, expiryDeadline] at hlimit
    split at hlimit
    · exact nomatch hlimit
    · exact some.inj hlimit ▸ min_le_right _ _

/-- The connection is gone, and its record rewritten. -/
lemma Inv.lives_left (h : srv.Inv) (hg : 0 < g) (hp : Passes srv srv' g b none)
    (hs : srv.shard.sessions.lookup k = some session) (hgen : session.generation = g)
    (hrec : Rewrites srv.shard srv'.shard k (some o))
    (ho : o.generation = session.generation) : srv'.Lives g ⟨none, some (k, o)⟩ := by
  have hfound := h.found_rewritten hrec hs fun o' ho' => some.inj ho' ▸ ho
  rw [hgen] at hfound
  exact ⟨hp.passed hg, hfound⟩

lemma Arms.armed (harms : srv.Arms g k will deadline op) (h : srv.Inv) (env : Env) :
    0 < g ∧ srv.firedOf op g = [] ∧
      ∃ life, (srv.apply env op).Lives g life ∧ life.Armed k will deadline := by
  cases harms with
  | @close id c hc hphase hname hclient hgen howned hwill hdelay hdeadline =>
    subst hclient hgen hdeadline
    rcases hclose : srv.tearDown c with ⟨shard, owned⟩
    rw [hclose] at howned
    obtain rfl : owned = true := howned
    have hat : srv.taskAt id .ending = some c := by simp [taskAt, hc, hphase]
    have happly : srv.apply env (.close id) = { srv.setTask id none with
        shard := shard.armWill srv.now c.clientId c.sessionGeneration will
          (min c.willDelay c.sessionExpiry) } := by
      simp only [Server.apply, Server.close, hat, hclose, if_neg hname, if_neg hdelay, hwill,
        filter_some, if_true]
    rcases closeSession_eq hclose with ⟨hnot, -⟩ | ⟨-, session, hs, hgen, hrec⟩
    · cases hnot
    · rw [Outline.unlessEnded_of_min hdelay] at hrec
      have harmed := hrec.trans_armWill hgen srv.now will (min c.willDelay c.sessionExpiry)
      have hpos := hgen ▸ h.generation_pos _ session hs
      have hp : Passes srv { srv.setTask id none with
          shard := shard.armWill srv.now c.clientId c.sessionGeneration will
            (min c.willDelay c.sessionExpiry) } c.sessionGeneration c.bearer none :=
        h.passes_gone hc rfl rfl
      rw [happly]
      exact ⟨hpos, rfl, _, h.lives_left hpos hp hs hgen harmed rfl, Life.armed_of rfl⟩
  | @reap slot parking r chance htaken hclient hgen howned hwill hdelay hdeadline =>
    subst hclient hgen hdeadline
    rcases hsuspend : srv.suspending r with ⟨shard, owned⟩
    rw [hsuspend] at howned
    obtain rfl : owned = true := howned
    have happly : srv.apply env (.reap slot chance) = { srv with
        parking
        shard := shard.armWill srv.now r.clientId r.sessionGeneration will
          (min r.willDelay r.sessionExpiry) } := by
      simp only [Server.apply, Server.reap, htaken, hsuspend, if_neg hdelay, hwill, filter_some,
        if_true]
    have hfired := fired_reap_arm chance htaken hdelay
    rcases suspendParked_eq hsuspend with ⟨hnot, -⟩ | ⟨-, session, hs, hgen, -, hrec⟩
    · cases hnot
    · rw [Outline.unlessEnded_of_min hdelay] at hrec
      have harmed := hrec.trans_armWill hgen srv.now will (min r.willDelay r.sessionExpiry)
      have hpos := hgen ▸ h.generation_pos _ session hs
      have hp : Passes srv { srv with
          parking
          shard := shard.armWill srv.now r.clientId r.sessionGeneration will
            (min r.willDelay r.sessionExpiry) } r.sessionGeneration r.bearer none :=
        h.passes_slot htaken rfl rfl
      rw [happly]
      exact ⟨hpos, firedOf_of_nil hfired _, _, h.lives_left hpos hp hs hgen harmed rfl,
        Life.armed_of rfl⟩

/-- The client stays away, and no sweep runs at or after the deadline. -/
def Waits (env : Env) (k : String) (deadline : ℕ) : Server → List ServerOp → Prop :=
  Lib.AllMeet (fun srv op => srv.apply env op) fun srv op =>
    ¬srv.Recalls env op k ∧ ∀ chance, op = .sweep chance → srv.now < deadline

/-- Until then the will waits. -/
lemma Lives.waits (hl : srv.Lives g life) (h : srv.Inv) (hg : 0 < g)
    (harmed : life.Armed k will deadline) {ops : List ServerOp}
    (hwaits : Waits env k deadline srv ops) :
    ofGeneration g (srv.firedIn env ops) = [] ∧ (srv.after env ops).Inv ∧
      (srv.after env ops).Lives g life := by
  induction ops generalizing srv with
  | nil => exact ⟨rfl, h, hl⟩
  | cons op ops ih =>
    obtain ⟨⟨hrecalls, hsweep⟩, hwaits⟩ := hwaits
    obtain ⟨life', hl', hsteps⟩ := (srv.move_apply env op).follows h hg life hl
    have hearly : srv.firedOf op g = [] ∨ srv.now < deadline := by
      by_cases hop : ∃ chance, op = .sweep chance
      · obtain ⟨chance, rfl⟩ := hop
        exact .inr (hsweep chance rfl)
      · exact .inl (hl.firedOf_eq_nil harmed.1 (.inr fun chance heq => hop ⟨chance, heq⟩))
    obtain ⟨rfl, hnil⟩ := harmed.steps hrecalls hearly hsteps
    obtain ⟨hrest, hinv, hlives⟩ := ih hl' (h.apply op) hwaits
    refine ⟨?_, hinv, hlives⟩
    rw [firedIn, ofGeneration_append, hrest, append_nil]
    exact hnil

/-- A sweep at the deadline takes the will. -/
lemma Lives.firedOf_sweep (hl : srv.Lives g life) (h : srv.Inv)
    (harmed : life.Armed k will deadline) (hdue : deadline ≤ srv.now) (chance : Chance) :
    srv.firedOf (.sweep chance) g = [will] := by
  obtain ⟨-, o, hrecord, hwill, -⟩ := harmed
  obtain ⟨session, hs, rfl, rfl⟩ := hl.exists_session hrecord
  have hpending : session.pendingWill = some (will, deadline) := hwill
  have hwillDue : session.willDue srv.now = true := by
    simp [Session.willDue, hpending, hdue]
  have hfired : (session.fireWill srv.now).pendingWill = none := by
    simp [Session.fireWill, hwillDue]
  rw [firedOf, fired, srv.shard.ofGeneration_sweptWills srv.now hs fun k' session' hs' hgen =>
    h.distinct k' k session' session hs' hs hgen, Session.sweptWills, if_pos hwillDue, hfired,
      hpending,
    map_none, ite_self]
  rfl

/-! ### The law of wills -/

/-- The law of wills on a shard that starts in `srv₀`. A connection is known by its generation. -/
structure WillLaw (env : Env) (srv₀ : Server) : Prop where
  /-- A connection's will is published at most once. -/
  once : ∀ ops g, (ofGeneration g (srv₀.firedIn env ops)).length ≤ 1
  /-- The will of a connection that ends with a normal DISCONNECT, when the server stops or after it
  was displaced is never published. -/
  silent : ∀ ops op ops' g, (srv₀.after env ops).Silences g op →
    ofGeneration g (srv₀.firedIn env (ops ++ op :: ops')) = []
  /-- A will that waits is not published after its client has come back. -/
  recalled : ∀ ops op ops' k session, (srv₀.after env ops).shard.sessions.lookup k = some session →
    session.pendingWill.isSome = true → (srv₀.after env ops).Recalls env op k →
    ofGeneration session.generation ((srv₀.after env ops).firedIn env (op :: ops')) = []
  /-- A delayed will is published by the first sweep at or after its deadline, and not before. -/
  due : ∀ ops op ops' g k will deadline, (srv₀.after env ops).Arms g k will deadline op →
    Waits env k deadline (srv₀.after env (ops ++ [op])) ops' →
    ofGeneration g (srv₀.firedIn env (ops ++ op :: ops')) = [] ∧
      (deadline ≤ (srv₀.after env (ops ++ op :: ops')).now → ∀ chance,
        ofGeneration g ((srv₀.after env (ops ++ op :: ops')).fired (.sweep chance)) = [will])
  /-- What a sweep publishes is what `sweepExpired` returns. -/
  swept : ∀ (srv : Server) chance, (srv.shard.sweepExpired srv.now).2 =
    (srv.fired (.sweep chance)).map Prod.snd
  /-- What is published is delivered, and nothing else is. -/
  published : ∀ (srv : Server) op,
    (∃ id chance, op = .publishWill id chance) ∨ (∃ slot chance, op = .reap slot chance) ∨
      (∃ chance, op = .sweep chance) →
    ∃ s : ShardState, s.channels = srv.shard.channels ∧
      (srv.apply env op).shard =
        (srv.fired op).foldl (fun s will => s.deliverLocal env.hash will.2 none) s

/-- A connection that is still there has not published its will. -/
lemma Willed.unpublished (h : srv.Willed g fires life) (hg : 0 < g) {x : Carrier}
    (hx : srv.bearers g x = some b) : fires = [] ∧ life.Single := by
  rcases h.published with hsingle | ⟨-, hspent, -⟩
  · exact hsingle
  · have hb := h.lives.bearer.eq_some (h.inv.once_bearers hg) hx
    exact nomatch hspent.1.symm.trans hb

lemma Arms.exists_bearer (h : srv.Arms g k will deadline op) :
    ∃ x b, srv.bearers g x = some b := by
  cases h with
  | close hc _ _ _ hgen => exact ⟨_, _, hgen ▸ bears_task hc⟩
  | reap _ htaken _ hgen => exact ⟨_, _, hgen ▸ bears_slot (takeSlot_spec htaken).1⟩

lemma channels_suspending {r : ResumeState} {shard : ShardState} {owned : Bool}
    (hsuspend : srv.suspending r = (shard, owned)) : shard.channels = srv.shard.channels := by
  have hposts := srv.shard.posts_suspendParked srv.now r.clientId r.sessionGeneration
    r.sessionExpiry
  simp only [hsuspend] at hposts
  exact hposts.channels

/-- The wills are delivered, and nothing else is. -/
lemma Move.exists_published (hmove : Move env srv op srv')
    (hop : (∃ id chance, op = .publishWill id chance) ∨ (∃ slot chance, op = .reap slot chance) ∨
      ∃ chance, op = .sweep chance) : ∃ s : ShardState, s.channels = srv.shard.channels ∧
      srv'.shard = (srv.fired op).foldl (fun s will => s.deliverLocal env.hash will.2 none) s := by
  cases hmove with
  | idle op hquiet =>
    rw [hquiet]
    exact ⟨srv.shard, rfl, rfl⟩
  | @publishWill id c will chance hc hphase =>
    have hfired : srv.fired (.publishWill id chance) = [(c.sessionGeneration, will)] := by
      simp only [fired, hc, hphase]
    rw [hfired]
    exact ⟨srv.shard, rfl, rfl⟩
  | @reapQuiet slot parking r shard owned chance htaken hsuspend hwill =>
    rw [fired_reap_quiet chance htaken hsuspend hwill]
    exact ⟨shard, channels_suspending hsuspend, rfl⟩
  | @reapWill slot parking r shard will chance htaken hsuspend hwill hdelay =>
    have hfired : srv.fired (.reap slot chance) = [(r.sessionGeneration, will)] := by
      rw [fired_reap chance htaken, hsuspend, if_pos ⟨rfl, hdelay⟩, hwill]
      rfl
    rw [hfired]
    exact ⟨shard, channels_suspending hsuspend, rfl⟩
  | @reapArm slot parking r shard will chance htaken hsuspend hwill hdelay =>
    rw [fired_reap_arm chance htaken hdelay]
    exact ⟨_, (shard.posts_armWill srv.now r.clientId r.sessionGeneration will
      (min r.willDelay r.sessionExpiry)).channels.trans (channels_suspending hsuspend), rfl⟩
  | sweep chance =>
    refine ⟨(srv.shard.sweepExpired srv.now).1, (srv.shard.posts_sweepExpired srv.now).channels, ?_⟩
    rw [sweptShard, srv.shard.sweepExpired_wills srv.now, foldl_map]
    rfl
  | _ => rcases hop with ⟨_, _, heq⟩ | ⟨_, _, heq⟩ | ⟨_, heq⟩ <;> cases heq

lemma Started.entitled (h : srv.Started) : srv.Entitled :=
  fun id _ _ hc => nomatch (h.tasks id).symm.trans hc

lemma inv_after (h : srv.Inv) (ops : List ServerOp) : (srv.after env ops).Inv := by
  induction ops generalizing srv with
  | nil => exact h
  | cons op ops ih => exact ih (h.apply op)

lemma Entitled.firedIn_zero (hent : srv.Entitled) (h : srv.Inv) (ops : List ServerOp) :
    ofGeneration 0 (srv.firedIn env ops) = [] := by
  induction ops generalizing srv with
  | nil => rfl
  | cons op ops ih =>
    rw [firedIn, ofGeneration_append, ih ((srv.move_apply env op).entitled h hent) (h.apply op),
      append_nil]
    exact hent.firedOf_zero h

/-- On every run of a shard, each connection's will is published at most once, and when it is due.
-/
theorem will_law (env : Env) {srv₀ : Server} (h₀ : srv₀.Started) : WillLaw env srv₀ where
  once ops g := by
    rcases Nat.eq_zero_or_pos g with rfl | hg
    · rw [h₀.entitled.firedIn_zero h₀.inv]
      exact Nat.zero_le 1
    · obtain ⟨life, hwilled⟩ := h₀.willed_after hg env ops
      rcases hwilled.published with ⟨hnil, -⟩ | ⟨⟨will, hone⟩, -⟩
      · rw [hnil]
        exact Nat.zero_le 1
      · rw [hone]
        exact le_rfl
  silent ops op ops' g hsilences := by
    rcases Nat.eq_zero_or_pos g with rfl | hg
    · exact h₀.entitled.firedIn_zero h₀.inv _
    · obtain ⟨life, hwilled⟩ := h₀.willed_after hg env ops
      obtain ⟨x, b, hx⟩ := hsilences.exists_bearer
      obtain ⟨hbefore, hsingle⟩ := hwilled.unpublished hg hx
      rw [hbefore] at hwilled
      obtain ⟨hnow, life', hl', hmute⟩ := hsilences.mute hwilled hg hsingle env
      have hold := (hwilled.inv.carried_le x g (generationOf_of_bearers hx)).trans
        (nextGeneration_le_apply env (srv₀.after env ops) op)
      have hlater : ofGeneration g (((srv₀.after env ops).apply env op).firedIn env ops') = [] :=
        hl'.firedIn_mute (hwilled.inv.apply op) hg hold hmute ops'
      rw [firedIn_append, ofGeneration_append, firedIn, ofGeneration_append, hlater, hbefore,
        nil_append, append_nil]
      exact hnow
  recalled ops op ops' k session hs hwill hrecalls := by
    have hinv : (srv₀.after env ops).Inv := inv_after h₀.inv ops
    have hg := hinv.generation_pos k session hs
    refine hinv.firedIn_recalled hs hwill (fun life hl => ?_) hrecalls ops'
    obtain ⟨life', hwilled⟩ := h₀.willed_after hg env ops
    obtain rfl := hwilled.lives.unique hinv hg hl
    rcases hwilled.published with ⟨-, hsingle⟩ | ⟨-, hspent, -⟩
    · exact hsingle
    · exact hspent.mute.single
  due ops op ops' g k will deadline harms hwaits := by
    have hinv : (srv₀.after env ops).Inv := inv_after h₀.inv ops
    obtain ⟨hg, hnow, life, hl, harmed⟩ := harms.armed hinv env
    obtain ⟨life₁, hwilled⟩ := h₀.willed_after hg env ops
    obtain ⟨x, b, hx⟩ := harms.exists_bearer
    obtain ⟨hbefore, -⟩ := hwilled.unpublished hg hx
    rw [after_append] at hwaits
    obtain ⟨hlater, hinv', hl'⟩ := hl.waits (hinv.apply op) hg harmed hwaits
    rw [firedIn_append, ofGeneration_append, firedIn, ofGeneration_append, hlater, after_append,
      hbefore,
      nil_append, append_nil]
    exact ⟨hnow, fun hdue chance => hl'.firedOf_sweep hinv' harmed hdue chance⟩
  swept srv _ := srv.shard.sweepExpired_wills srv.now
  published srv op := (srv.move_apply env op).exists_published

/-- A client with a will connects and hangs up; its will is published at once. A second one hangs up
as well, but its will is to wait for ten seconds. -/
def willOps : List ServerOp :=
  [.accept .none,
    .packet 0 (.connect
      { clientId := "a", cleanSession := false,
        lastWill := some { topic := "gone", message := [1], qos := .atMostOnce } }) {},
    .hangUp 0 .eof, .close 0, .publishWill 0 {},
    .accept .none,
    .packet 1 (.connect
      { clientId := "b", cleanSession := false,
        lastWill := some
          { topic := "gone", message := [2], qos := .atMostOnce, delayInterval := some 10 },
        properties := some { sessionExpiryInterval := some 100 } }) {},
    .hangUp 1 .eof, .close 1, .sweep {}, .elapse 10000000000, .sweep {}]

/-- Both wills are published, each once. -/
theorem will_law_hangUps : (freshServer.firedIn openEnv willOps).map
    (fun will => (will.1, will.2.payload)) =
    [(1, [1]), (2, [2])] ∧ freshServer.Started ∧ WillLaw openEnv freshServer :=
  ⟨by decide, freshServer_started, will_law openEnv freshServer_started⟩

end Server

end Rusquitto
