import Rusquitto.Server.Records

/-!
# The life of a session generation

A generation is known to the connection that opened the session, running, parked or on its way out
(its *bearer*), and to the session record. `Life` is the state of one generation, and `Life.Step`
all that can happen to it: the level at which the fate of a will and the deadline of a session are
decided. `Server.Lives` connects it to the shard.
-/

namespace Rusquitto

open Session (Outline)

variable {occ : Occasion} {life life' : Life} {fires : List Publish}

/-- What a connection does for its session. -/
inductive Role where
  /-- Its task runs, and has not released the session. -/
  | speaking
  /-- It is parked, or wakes up. -/
  | dormant
  /-- The session is released, and the will is to be published. -/
  | willing (will : Publish)

/-- A connection, as far as its session and its will are concerned. -/
structure Bearer where
  role : Role
  clientId : String
  expiry : UInt32
  will : Option Publish
  willDelay : UInt32

/-- The delay of a will: the session's end comes first if it is earlier. -/
def Bearer.delay (b : Bearer) : UInt32 := min b.willDelay b.expiry

/-- A generation: who carries it, and the record of which client has it. -/
structure Life where
  bearer : Option Bearer
  record : Option (String × Outline)

/-- The circumstances of a piece of work, for one generation. -/
structure Occasion where
  generation : ℕ
  now : ℕ
  /-- No session has had the generation yet. -/
  fresh : Prop
  /-- The expiry interval of a session that begins with it. -/
  expiry : UInt32
  /-- The client's session is opened, claimed by another shard, or loaded. -/
  recalls : String → Prop
  /-- The parked connection is closed on a command of the shard. -/
  dismisses : Prop

namespace Life

/-- What can happen to a generation. A will may be published with it. -/
inductive Step (occ : Occasion) : Life → Option Publish → Life → Prop where
  /-- A connection opens the session. -/
  | opened {b : Bearer} (mailbox : ℕ) (hfresh : occ.fresh) (hexpiry : b.expiry = occ.expiry)
    (hrole : b.role = .speaking) (hname : b.clientId ≠ "") :
    Step occ ⟨none, none⟩ none ⟨some b, some (b.clientId, .live mailbox occ.generation)⟩
  | loaded (ps : PersistedSession) (hfresh : occ.fresh) (hexpiry : ps.expirySecs = occ.expiry) :
    Step occ ⟨none, none⟩ none
      ⟨none, some (ps.clientId, .loaded occ.now occ.generation ps)⟩
  /-- A newer connection takes the session. -/
  | recalled {b : Option Bearer} {k : String} (o : Outline) (hrecalls : occ.recalls k) :
    Step occ ⟨b, some (k, o)⟩ none ⟨b, none⟩
  /-- The connection gives its will up: a normal DISCONNECT, or the server stops. -/
  | recants {b : Bearer} (r : Option (String × Outline)) (hrole : b.role = .speaking) :
    Step occ ⟨some b, r⟩ none ⟨some { b with will := none }, r⟩
  /-- The mailbox is dropped while the connection runs. -/
  | shed {b : Bearer} (o : Outline) (hrole : b.role = .speaking) :
    Step occ ⟨some b, some (b.clientId, o)⟩ none
      ⟨some b, some (b.clientId, { o with mailbox := none })⟩
  | parks {b : Bearer} {o : Outline} (snapshot : SessionSnapshot) (hrole : b.role = .speaking)
    (hmailbox : o.mailbox.isSome = true) :
    Step occ ⟨some b, some (b.clientId, o)⟩ none
      ⟨some { b with role := .dormant }, some (b.clientId, o.park snapshot)⟩
  | reattaches {b : Bearer} {o : Outline} (mailbox : ℕ) (hrole : b.role = .dormant)
    (hparked : o.parked = true) :
    Step occ ⟨some b, some (b.clientId, o)⟩ none
      ⟨some { b with role := .speaking }, some (b.clientId, o.reattach mailbox)⟩
  /-- The session is gone when the connection wakes up. -/
  | loses {b : Bearer} {r : Option (String × Outline)} (hrole : b.role = .dormant)
    (hlost : ∀ o, r = some (b.clientId, o) → o.parked = false) :
    Step occ ⟨some b, r⟩ none ⟨some { b with role := .speaking, clientId := "", will := none }, r⟩
  /-- A running connection ends and has no session to release any more. -/
  | leaves {b : Bearer} {r : Option (String × Outline)} (hrole : b.role = .speaking)
    (hlost : b.clientId ≠ "" → ∀ o, r ≠ some (b.clientId, o)) :
    Step occ ⟨some b, r⟩ none ⟨none, r⟩
  | closes {b : Bearer} (o : Outline) (snapshot : SessionSnapshot) (hrole : b.role = .speaking)
    (hwill : b.will = none) :
    Step occ ⟨some b, some (b.clientId, o)⟩ none
      ⟨none, ((o.close occ.now b.expiry snapshot).unlessEnded b.expiry).map (b.clientId, ·)⟩
  /-- The connection ends, and its will is published next. -/
  | closesWilling {b : Bearer} {will : Publish} (o : Outline) (snapshot : SessionSnapshot)
    (hrole : b.role = .speaking) (hwill : b.will = some will) (hdelay : b.delay = 0) :
    Step occ ⟨some b, some (b.clientId, o)⟩ none
      ⟨some { b with role := .willing will, will := none },
        ((o.close occ.now b.expiry snapshot).unlessEnded b.expiry).map (b.clientId, ·)⟩
  /-- The connection ends, and its will waits in the session. -/
  | closesArming {b : Bearer} {will : Publish} (o : Outline) (snapshot : SessionSnapshot)
    (hrole : b.role = .speaking) (hwill : b.will = some will) (hdelay : b.delay ≠ 0) :
    Step occ ⟨some b, some (b.clientId, o)⟩ none
      ⟨none, some (b.clientId,
        (o.close occ.now b.expiry snapshot).armWill will (afterSecs occ.now b.delay))⟩
  | publishes {b : Bearer} {will : Publish} (r : Option (String × Outline))
    (hrole : b.role = .willing will) : Step occ ⟨some b, r⟩ (some will) ⟨none, r⟩
  | dismissed {b : Bearer} (r : Option (String × Outline)) (hdismisses : occ.dismisses)
    (hrole : b.role = .dormant) : Step occ ⟨some b, r⟩ none ⟨none, r⟩
  /-- A parked connection is closed after it has lost its session. -/
  | strays {b : Bearer} {r : Option (String × Outline)} (hrole : b.role = .dormant)
    (hlost : ∀ o, r = some (b.clientId, o) → o.parked = false) :
    Step occ ⟨some b, r⟩ none ⟨none, r⟩
  /-- A parked connection is closed and its session suspended. Its will is dropped: there is none,
  or the server stops. -/
  | suspends {b : Bearer} {o : Outline} (hrole : b.role = .dormant) (hparked : o.parked = true) :
    Step occ ⟨some b, some (b.clientId, o)⟩ none
      ⟨none, ((o.suspend occ.now b.expiry).unlessEnded b.expiry).map (b.clientId, ·)⟩
  | suspendsWilling {b : Bearer} {o : Outline} {will : Publish} (hrole : b.role = .dormant)
    (hparked : o.parked = true) (hwill : b.will = some will) (hdelay : b.delay = 0) :
    Step occ ⟨some b, some (b.clientId, o)⟩ (some will)
      ⟨none, ((o.suspend occ.now b.expiry).unlessEnded b.expiry).map (b.clientId, ·)⟩
  | suspendsArming {b : Bearer} {o : Outline} {will : Publish} (hrole : b.role = .dormant)
    (hparked : o.parked = true) (hwill : b.will = some will) (hdelay : b.delay ≠ 0) :
    Step occ ⟨some b, some (b.clientId, o)⟩ none
      ⟨none, some (b.clientId,
        (o.suspend occ.now b.expiry).armWill will (afterSecs occ.now b.delay))⟩
  /-- The sweep takes a will that is due. -/
  | fires {b : Option Bearer} {k : String} {o : Outline} {will : Publish} {deadline : ℕ}
    (hwill : o.pendingWill = some (will, deadline)) (hdue : deadline ≤ occ.now) :
    Step occ ⟨b, some (k, o)⟩ (some will) ⟨b, some (k, { o with pendingWill := none })⟩
  /-- The sweep ends a session past its deadline, and takes its will. -/
  | expires {b : Option Bearer} {k : String} {o : Outline} {deadline : ℕ}
    (hmailbox : o.mailbox = none)
    (hdeadline : o.expiresAt = some deadline) (hdue : deadline ≤ occ.now) :
    Step occ ⟨b, some (k, o)⟩ (o.pendingWill.map Prod.fst) ⟨b, none⟩

/-- What happens to a generation in one piece of work, with the wills that are published. -/
inductive Steps (occ : Occasion) : Life → List Publish → Life → Prop where
  | nil (life : Life) : Steps occ life [] life
  | cons {life life' life'' : Life} {fire : Option Publish} {fires : List Publish}
    (hstep : Step occ life fire life') (hsteps : Steps occ life' fires life'') :
    Steps occ life (fire.toList ++ fires) life''

lemma Step.steps {fire : Option Publish} (h : Step occ life fire life') :
    Steps occ life fire.toList life' := by
  have hsteps := Steps.cons h (.nil life')
  rwa [List.append_nil] at hsteps

lemma Steps.trans {life'' : Life} {fires' : List Publish} (h : Steps occ life fires life')
    (h' : Steps occ life' fires' life'') : Steps occ life (fires ++ fires') life'' := by
  induction h with
  | nil => exact h'
  | cons hstep _ ih =>
    rw [List.append_assoc]
    exact .cons hstep (ih h')

/-- What every step keeps is kept by a piece of work. -/
lemma Steps.inv (I : Life → Prop)
    (hstep : ∀ life fire life', Step occ life fire life' → I life → I life')
    (h : Steps occ life fires life') (hI : I life) : I life' := by
  induction h with
  | nil => exact hI
  | cons hs _ ih => exact ih (hstep _ _ _ hs hI)

/-- A record keeps its client. -/
lemma Step.exists_record {fire : Option Publish} (hstep : Step occ life fire life')
    (hold : ¬occ.fresh) {k : String} {o' : Outline} (hr' : life'.record = some (k, o')) :
    ∃ o, life.record = some (k, o) := by
  have hkey {b : Bearer} {o : Outline} {o₁ : Option Outline}
    (h : o₁.map (b.clientId, ·) = some (k, o')) :
      ∃ o₂, some (b.clientId, o) = some (k, o₂) := by
    obtain ⟨_, -, heq⟩ := Option.map_eq_some_iff.mp h
    exact ⟨o, by rw [(Prod.mk.inj heq).1]⟩
  cases hstep with
  | opened _ hfresh | loaded _ hfresh => exact absurd hfresh hold
  | recalled | expires => exact nomatch hr'
  | recants | loses | leaves | publishes | dismissed | strays => exact ⟨o', hr'⟩
  | shed o | @parks _ o | @reattaches _ o | closesArming o | @suspendsArming _ o | @fires _ _ o =>
    exact ⟨o, by rw [(Prod.mk.inj (Option.some.inj hr')).1]⟩
  | closes | closesWilling | suspends | suspendsWilling => exact hkey hr'

lemma Steps.exists_record (h : Steps occ life fires life') (hold : ¬occ.fresh) {k : String}
    {o' : Outline} (hr' : life'.record = some (k, o')) : ∃ o, life.record = some (k, o) :=
  h.inv (fun life' => ∀ o', life'.record = some (k, o') → ∃ o, life.record = some (k, o))
    (fun _ _ _ hstep ih _ hr' => (hstep.exists_record hold hr').elim ih) (fun o' hr' => ⟨o', hr'⟩)
      o' hr'

end Life

end Rusquitto
