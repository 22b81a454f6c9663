import Rusquitto.Server.Adoption

/-!
# One lifetime after the other

The broker over several lifetimes of its process, each with as many shards as the last or fewer. The
files of a shard that is gone have the last word about their clients at every start, and nobody
writes them again (`Lifetimes.orphan_resurrects`). A restart finds what was persisted last
(`Lifetimes.facts`) as long as peer 0 writes about such a client only what the orphaned file says,
and the shards that go have forgotten the sessions that moved on (`Lifetimes.restores_latest`).
-/

namespace Rusquitto

open Function List Lib

variable {peer : ℕ}

/-! ### Writing the files -/

/-- What the persistence task of a shard writes. -/
inductive Write where
  | append (batch : List Record)
  | save (sessions : List PersistedSession)
  | truncate

/-- The files after a write. -/
def Disk.write (disk : Disk) : Write → Disk
  | .append batch => { disk with wal := disk.wal ++ batch }
  | .save sessions => { disk with sessions }
  | .truncate => { disk with wal := [] }

/-- The write that a piece of work finishes, if it does. -/
def ShardRun.writes (r : ShardRun) : Op → Option Write
  | .appendDone =>
    match r.task with
    | .appending batch => some (.append batch)
    | _ => none
  | .saveDone =>
    match r.task with
    | .saving sessions => some (.save sessions)
    | _ => none
  | .truncateDone =>
    match r.task with
    | .truncating => some .truncate
    | _ => none
  | _ => none

/-- The files change by these writes only. -/
lemma ShardRun.disk_apply (hash : ContentHash) (r : ShardRun) (op : Op) :
    (r.apply hash op).disk = ((r.writes op).map r.disk.write).getD r.disk := by
  cases op with
  | closeSession => simp only [apply]; split <;> rfl
  | parkSession => simp only [apply]; split <;> rfl
  | takeWalBatch =>
    simp only [apply, takeBatch]
    split
    · split <;> rfl
    · rfl
  | appendDone =>
    simp only [apply, finishAppend, writes]
    cases r.task <;> rfl
  | persistSessions =>
    simp only [apply, collectSessions]
    split <;> rfl
  | saveDone =>
    simp only [apply, finishSave, writes]
    cases r.task <;> rfl
  | truncateDone =>
    simp only [apply, finishTruncate, writes]
    cases r.task <;> rfl
  | _ => rfl

/-- The sessions in a pair of files. -/
def Disk.read (walOn : Bool) (disk : Disk) (k : String) : Option PersistedSession :=
  (mergeDisk walOn ∅ disk).lookup k

/-! ### The broker over several lifetimes -/

/-- What was persisted about a client last: when, and its session, if it had one. -/
abbrev Fact := ℕ × Option PersistedSession

/-- Whether a write says something about a client: a batch about those in it, and a checkpoint about
all sessions of the shard, those it wrote last time and those it writes now. -/
def Write.concerns (walOn : Bool) (k : String) (before after : Option PersistedSession) :
    Write → Bool
  | .append batch => walOn && batch.any (·.clientId = k)
  | .save _ => before.isSome || after.isSome
  | .truncate => before.isSome || after.isSome

/-- The broker over several lifetimes. -/
structure Lifetimes where
  /-- The number of shards. -/
  count : ℕ
  dir : SessionDir := {}
  /-- The shards at work. -/
  runs : ℕ → ShardRun := fun _ => {}
  /-- How many writes there have been. -/
  clock : ℕ := 0
  /-- What each shard persisted about each client last. -/
  facts : ℕ → String → Fact := fun _ _ => (0, none)

/-- One piece of work in a lifetime, or the start of the next one. -/
inductive LifeOp where
  | work (peer : ℕ) (op : Op)
  /-- A snapshot without the log: the final one, and the periodic one when there is no log. -/
  | snapshot (peer : ℕ)
  /-- The next process starts, and lists the directory in some order. -/
  | restart (count : ℕ) (names : List String) (retained : List Publish) (now : ℕ)

namespace Lifetimes

variable (walOn : Bool) (hash : ContentHash)

/-- The later of two facts. -/
def later (a b : Fact) : Fact :=
  if a.1 < b.1 then b else a

/-- What was persisted last by the shards whose files peer 0 reads when `m` shards are left. -/
def latest (t : Lifetimes) (m : ℕ) (k : String) : Fact :=
  ((range t.count).filter (m ≤ ·)).foldl (fun best peer => later best (t.facts peer k))
    (t.facts 0 k)

/-- A shard's files are written. -/
def persist (t : Lifetimes) (peer : ℕ) (w : Write) : Lifetimes :=
  let disk := (t.dir.pair (sessionPath peer)).write w
  { t with
    dir :=
      { pair := update t.dir.pair (sessionPath peer) disk
        -- the first snapshot creates the file
        names := match w with
          | .save _ => if sessionPath peer ∈ t.dir.names then t.dir.names
            else t.dir.names ++ [sessionPath peer]
          | _ => t.dir.names }
    clock := t.clock + 1
    facts := update t.facts peer fun k =>
      if w.concerns walOn k (t.facts peer k).2 (disk.read walOn k) then
        (t.clock + 1, disk.read walOn k)
      else t.facts peer k }

/-- A shard as it starts. -/
def startShard (dir : SessionDir) (count peer : ℕ) (retained : List Publish) (now : ℕ) :
    ShardRun where
  shard := restoreFromDisk {} walOn retained (dir.disks peer count) now
  now
  disk := dir.pair (sessionPath peer)

/-- Performs one piece of work. -/
def apply (t : Lifetimes) : LifeOp → Lifetimes
  | .work peer op =>
    if peer < t.count then
      let r := t.runs peer
      let t := match r.writes op with
        | none => t
        | some w => t.persist walOn peer w
      { t with runs := update t.runs peer (r.apply hash op) }
    else t
  | .snapshot peer =>
    if peer < t.count then
      let r := t.runs peer
      let w := Write.save (r.shard.persistSessions r.now)
      { t.persist walOn peer w with
        runs := update t.runs peer { r with disk := r.disk.write w } }
    else t
  | .restart count names retained now =>
    let dir := { t.dir with names }
    { t with
      count
      dir
      runs := fun peer => startShard walOn dir count peer retained now
      -- peer 0 answers for the files it takes over
      facts := update t.facts 0 fun k => t.latest count k }

/-- The files that peer 0 takes over. -/
def orphans (t : Lifetimes) : List String :=
  orphanSessionFiles t.dir.names t.count

/-- What a restart gives a client on a shard. -/
def restored (t : Lifetimes) (peer : ℕ) (k : String) : Option PersistedSession :=
  (t.dir.restored walOn peer t.count).lookup k

/-- What peer 0 writes about a client that an orphaned file mentions is what that file says. -/
def Agrees (t : Lifetimes) (peer : ℕ) (w : Write) : Prop :=
  peer = 0 → ∀ name ∈ t.orphans, ∀ k, (t.dir.pair name).mentions walOn k →
    let disk := (t.dir.pair (sessionPath 0)).write w
    w.concerns walOn k (t.facts 0 k).2 (disk.read walOn k) →
      disk.read walOn k = (t.dir.pair name).read walOn k

/-- The files that peer 0 reads when `m` shards are left mention a client only if the shard they are
of persisted something about it last, and those of a shard that goes are in the directory then. -/
structure Settled (t : Lifetimes) (m : ℕ) : Prop where
  own : ∀ k, (t.dir.pair (sessionPath 0)).mentions walOn k ∨
    (∃ name ∈ t.orphans, (t.dir.pair name).mentions walOn k) → t.facts 0 k = t.latest m k
  gone : ∀ peer, m ≤ peer → peer < t.count → ∀ k,
    (t.dir.pair (sessionPath peer)).mentions walOn k →
      t.facts peer k = t.latest m k ∧ sessionPath peer ∈ t.dir.names

/-- The shard count does not grow, and a restart lists the files that there are. -/
def Possible (t : Lifetimes) : LifeOp → Prop
  | .restart count names _ _ => 0 < count ∧ count ≤ t.count ∧ names.Perm t.dir.names
  | _ => True

/-- Writes agree with the orphaned files, and everything is settled before the shard count gets
smaller. -/
def Careful (t : Lifetimes) : LifeOp → Prop
  | .work peer op => ∀ w, (t.runs peer).writes op = some w → t.Agrees walOn peer w
  | .snapshot peer =>
    t.Agrees walOn peer (.save ((t.runs peer).shard.persistSessions (t.runs peer).now))
  | .restart count names retained now => t.Possible (.restart count names retained now) ∧
    (count < t.count → t.Settled walOn count)

/-! ### What is on disk and what was persisted -/

/-- A write that does not concern a client leaves what the files say about it. -/
lemma read_write {walOn : Bool} {disk : Disk} {w : Write} {k : String}
    (h : w.concerns walOn k (disk.read walOn k) ((disk.write w).read walOn k) = false) :
    (disk.write w).read walOn k = disk.read walOn k := by
  cases w with
  | append batch =>
    cases walOn with
    | false => rfl
    | true =>
      have hlayers := (layered_applyRecord k).foldl_any batch
        (disk.wal.foldl applyRecord (mergeSessions ∅ disk.sessions)) ∅
      simp only [Write.concerns, Bool.true_and] at h
      simp only [h, Bool.false_eq_true, if_false] at hlayers
      simp only [Disk.read, Disk.write, mergeDisk, if_true, foldl_append]
      exact hlayers
  | save sessions =>
    simp only [Write.concerns, Bool.or_eq_false_iff, Option.isSome_eq_false_iff,
      Option.isNone_iff_eq_none] at h
    rw [h.1, h.2]
  | truncate =>
    simp only [Write.concerns, Bool.or_eq_false_iff, Option.isSome_eq_false_iff,
      Option.isNone_iff_eq_none] at h
    rw [h.1, h.2]

variable {walOn : Bool} {hash : ContentHash} {t t₀ : Lifetimes} {k : String}

lemma mem_orphanSessionFiles {names : List String} {count : ℕ} (hpeer : peer < 2 ^ 64) :
    sessionPath peer ∈ orphanSessionFiles names count ↔
      sessionPath peer ∈ names ∧ count ≤ peer := by
  rw [orphanSessionFiles, mem_filter, sessionIndex_sessionPath hpeer, Option.any_some,
    decide_eq_true_eq]

/-- Every orphaned file is that of a shard. -/
lemma exists_peer_of_orphan {dir : SessionDir} {n count : ℕ} (hn : n ≤ 2 ^ 64)
    (hfamily : dir.Family n) {name : String} (hname : name ∈ orphanSessionFiles dir.names count) :
    ∃ peer < n, name = sessionPath peer ∧ sessionPath peer ∈ dir.names ∧ count ≤ peer := by
  obtain ⟨hin, hindex⟩ := mem_filter.mp hname
  obtain ⟨i, hi, -⟩ := (Option.any_eq_true _ _).mp hindex
  obtain ⟨peer, hpeer, rfl⟩ := hfamily name hin (by rw [hi]; rfl)
  exact ⟨peer, hpeer, rfl, (mem_orphanSessionFiles (by omega)).mp hname⟩

/-- The files of a shard at work are not orphaned. -/
lemma ne_of_mem_orphans (hpeer : peer < t.count) (hsmall : t.count ≤ 2 ^ 64) {name : String}
    (hname : name ∈ t.orphans) : name ≠ sessionPath peer := by
  rintro rfl
  have hle := ((mem_orphanSessionFiles (by omega)).mp hname).2
  omega

lemma orphans_persist (walOn : Bool) (hpeer : peer < t.count) (hsmall : t.count ≤ 2 ^ 64)
    (w : Write) : (t.persist walOn peer w).orphans = t.orphans := by
  cases w with
  | append batch => rfl
  | truncate => rfl
  | save sessions =>
    simp only [orphans, persist]
    split
    · rfl
    · have hlive : ¬ t.count ≤ peer := by omega
      simp [orphanSessionFiles, sessionIndex_sessionPath (show peer < 2 ^ 64 by omega), hlive]

/-- A write adds a shard's own snapshot to the directory, if anything. -/
lemma mem_names_persist (walOn : Bool) (w : Write) {name : String}
    (hname : name ∈ (t.persist walOn peer w).dir.names) :
    name ∈ t.dir.names ∨ name = sessionPath peer := by
  revert hname
  simp only [persist]
  split
  · split
    · exact .inl
    · exact fun hname => (mem_append.mp hname).imp_right mem_singleton.mp
  · exact .inl

/-- The files that peer 0 reads say what `fact` does: an orphaned file about the clients it
mentions, its own about those that no orphaned file mentions. -/
def Says (walOn : Bool) (t : Lifetimes) (orphans : List String) (fact : String → Fact) : Prop :=
  (∀ name ∈ orphans, ∀ k, (t.dir.pair name).mentions walOn k →
    (t.dir.pair name).read walOn k = (fact k).2) ∧
  ∀ k, (∀ name ∈ orphans, (t.dir.pair name).mentions walOn k = false) →
    (t.dir.pair (sessionPath 0)).read walOn k = (fact k).2

/-- What holds between the files and what was persisted. -/
structure Inv (walOn : Bool) (t : Lifetimes) : Prop where
  pos : 0 < t.count
  small : t.count ≤ 2 ^ 64
  family : ∃ n ≤ 2 ^ 64, t.dir.Family n
  synced : ∀ peer < t.count, (t.runs peer).disk = t.dir.pair (sessionPath peer)
  files : t.Says walOn t.orphans (t.facts 0)
  others : ∀ peer, 0 < peer → peer < t.count → ∀ k,
    (t.dir.pair (sessionPath peer)).read walOn k = (t.facts peer k).2

/-- A shard's own files say what it persisted last. -/
lemma read_persist (h : (t.dir.pair (sessionPath peer)).read walOn k = (t.facts peer k).2)
    (w : Write) : ((t.persist walOn peer w).dir.pair (sessionPath peer)).read walOn k =
      ((t.persist walOn peer w).facts peer k).2 := by
  simp only [persist, update_self]
  split
  · rfl
  · next hsilent =>
    rw [← h] at hsilent ⊢
    exact read_write (by simpa using hsilent)

/-- A shard writes its files. -/
lemma Inv.persist (h : t.Inv walOn) (hpeer : peer < t.count) (w : Write)
    (hagrees : t.Agrees walOn peer w) {r : ShardRun}
    (hr : r.disk = (t.dir.pair (sessionPath peer)).write w) :
    Inv walOn { t.persist walOn peer w with runs := update t.runs peer r } := by
  have hsmall := h.small
  have hother {p : ℕ} (hp : p < t.count) (hne : p ≠ peer) :
      (t.persist walOn peer w).dir.pair (sessionPath p) = t.dir.pair (sessionPath p) :=
    update_of_ne (fun heq => hne (sessionPath_inj (by omega) (by omega) heq)) ..
  have horphan {name : String} (hname : name ∈ t.orphans) :
      (t.persist walOn peer w).dir.pair name = t.dir.pair name :=
    update_of_ne (ne_of_mem_orphans hpeer hsmall hname) ..
  have horphans := orphans_persist walOn hpeer hsmall w
  -- what the files of a shard at work say, given that they were right before
  have hread (p : ℕ) (hp : p < t.count) (k : String)
      (hk : (t.dir.pair (sessionPath p)).read walOn k = (t.facts p k).2) :
      ((t.persist walOn peer w).dir.pair (sessionPath p)).read walOn k =
        ((t.persist walOn peer w).facts p k).2 := by
    by_cases hne : p = peer
    · subst hne
      exact read_persist hk w
    · rw [hother hp hne, hk]
      simp only [Lifetimes.persist, update_of_ne hne]
  refine ⟨h.pos, hsmall, ?_, fun p hp => ?_, ⟨fun name hname k hmentions => ?_,
    fun k hk => hread 0 h.pos k (h.files.2 k fun name hname => ?_)⟩,
    fun p hp hlt k => hread p hlt k (h.others p hp hlt k)⟩
  · obtain ⟨n, hn, hfamily⟩ := h.family
    refine ⟨max n t.count, by omega, fun name hname hindex => ?_⟩
    rcases mem_names_persist walOn w hname with hold | rfl
    · obtain ⟨i, hi, rfl⟩ := hfamily name hold hindex
      exact ⟨i, by omega, rfl⟩
    · exact ⟨peer, by omega, rfl⟩
  · by_cases hne : p = peer
    · subst hne
      simp only [Lifetimes.persist, update_self, hr]
    · change (update t.runs peer r p).disk = (t.persist walOn peer w).dir.pair _
      rw [update_of_ne hne, hother hp hne]
      exact h.synced p hp
  · replace hname : name ∈ t.orphans := horphans ▸ hname
    dsimp only at hmentions ⊢
    rw [horphan hname] at hmentions ⊢
    have hold := h.files.1 name hname k hmentions
    rcases eq_or_ne peer 0 with rfl | hne
    · simp only [Lifetimes.persist, update_self]
      split
      · next hconcerns => exact (hagrees rfl name hname k hmentions hconcerns).symm
      · exact hold
    · simp only [Lifetimes.persist, update_of_ne hne.symm]
      exact hold
  · rw [← horphan hname]
    exact hk name (horphans.symm ▸ hname)

lemma Inv.work (h : t.Inv walOn) (peer : ℕ) (op : Op) (hop : t.Careful walOn (.work peer op)) :
    Inv walOn (t.apply walOn hash (.work peer op)) := by
  simp only [Lifetimes.apply]
  by_cases hpeer : peer < t.count
  · simp only [hpeer, if_true]
    have hdisk := ShardRun.disk_apply hash (t.runs peer) op
    rw [h.synced peer hpeer] at hdisk
    cases hw : (t.runs peer).writes op with
    | none =>
      rw [hw] at hdisk
      refine ⟨h.pos, h.small, h.family, fun p hp => ?_, h.files, h.others⟩
      dsimp only
      by_cases hne : p = peer
      · subst hne
        rw [update_self]
        exact hdisk
      · rw [update_of_ne hne]
        exact h.synced p hp
    | some w =>
      rw [hw] at hdisk
      exact h.persist hpeer w (hop w hw) hdisk
  · simp only [hpeer, if_false]
    exact h

lemma Inv.snapshot (h : t.Inv walOn) (peer : ℕ) (hop : t.Careful walOn (.snapshot peer)) :
    Inv walOn (t.apply walOn hash (.snapshot peer)) := by
  simp only [Lifetimes.apply]
  by_cases hpeer : peer < t.count
  · simp only [hpeer, if_true]
    refine h.persist hpeer _ hop ?_
    rw [h.synced peer hpeer]
  · simp only [hpeer, if_false]
    exact h

/-- Without fewer shards peer 0 answers for what it did before. -/
lemma latest_self (t : Lifetimes) (k : String) : t.latest t.count k = t.facts 0 k := by
  have hnone : (range t.count).filter (t.count ≤ ·) = [] := by
    simp [filter_eq_nil_iff]
  rw [latest, hnone]
  rfl

/-- The latest of the facts is one of them. -/
lemma exists_latest_eq (t : Lifetimes) (m : ℕ) (k : String) :
    ∃ peer, (peer = 0 ∨ m ≤ peer ∧ peer < t.count) ∧ t.latest m k = t.facts peer k := by
  have hfold (peers : List ℕ) (hpeers : ∀ peer ∈ peers, m ≤ peer ∧ peer < t.count) (best : Fact)
      (hbest : ∃ peer, (peer = 0 ∨ m ≤ peer ∧ peer < t.count) ∧ best = t.facts peer k) :
      ∃ peer, (peer = 0 ∨ m ≤ peer ∧ peer < t.count) ∧
        peers.foldl (fun best peer => later best (t.facts peer k)) best = t.facts peer k := by
    induction peers generalizing best with
    | nil => exact hbest
    | cons peer peers ih =>
      rw [foldl_cons]
      refine ih (fun p hp => hpeers p (mem_cons_of_mem _ hp)) _ ?_
      unfold later
      split
      · exact ⟨peer, .inr (hpeers peer mem_cons_self), rfl⟩
      · exact hbest
  refine hfold _ (fun peer hpeer => ?_) _ ⟨0, .inl rfl, rfl⟩
  obtain ⟨hlt, hle⟩ := mem_filter.mp hpeer
  exact ⟨of_decide_eq_true hle, mem_range.mp hlt⟩

/-- Files that do not mention a client have no session of it. -/
lemma read_of_silent {disk : Disk} (h : disk.mentions walOn k = false) :
    disk.read walOn k = none := by
  have hlayer := layered_mergeDisk walOn k ∅ disk
  simp only [h] at hlayer
  exact hlayer

section

-- the shard count gets smaller, and everything is settled
variable (h : t.Inv walOn) {count : ℕ} (hpos : 0 < count) (hsettled : t.Settled walOn count)
  {names : List String} (hperm : names.Perm t.dir.names)
include h hpos hsettled hperm

/-- A file that is orphaned then says what was persisted last: it was orphaned before, or its shard
goes, and nobody has persisted anything about the client since. -/
lemma Inv.shrink_orphans {name : String} (hname : name ∈ orphanSessionFiles names count)
    (hmentions : (t.dir.pair name).mentions walOn k) :
    (t.dir.pair name).read walOn k = (t.latest count k).2 := by
  obtain ⟨n, hn, hfamily⟩ := h.family
  obtain ⟨peer, hpeer, rfl, hin, hle⟩ :=
    exists_peer_of_orphan hn hfamily ((hperm.filter _).mem_iff.mp hname)
  by_cases hgone : peer < t.count
  · rw [h.others peer (by omega) hgone, (hsettled.gone peer hle hgone k hmentions).1]
  · have horphan : sessionPath peer ∈ t.orphans :=
      (mem_orphanSessionFiles (by omega)).mpr ⟨hin, by omega⟩
    rw [h.files.1 _ horphan k hmentions, hsettled.own k (.inr ⟨_, horphan, hmentions⟩)]

/-- So does peer 0's own file about a client that no orphaned file mentions. -/
lemma Inv.shrink_own (hlt : count < t.count) (hsilent : ∀ name ∈ orphanSessionFiles names count,
    (t.dir.pair name).mentions walOn k = false) :
    (t.dir.pair (sessionPath 0)).read walOn k = (t.latest count k).2 := by
  have hsmall := h.small
  have hown := h.files.2 k fun name hname => by
    obtain ⟨n, hn, hfamily⟩ := h.family
    obtain ⟨peer, hpeer, rfl, hin, hle⟩ := exists_peer_of_orphan hn hfamily hname
    exact hsilent _ ((mem_orphanSessionFiles (by omega)).mpr ⟨hperm.symm.subset hin, by omega⟩)
  cases hmentions : (t.dir.pair (sessionPath 0)).mentions walOn k with
  | true => rw [hown, hsettled.own k (.inl hmentions)]
  | false =>
    -- nobody has a session of the client, the shard that persisted something last included
    obtain ⟨peer, hcharge, hlatest⟩ := exists_latest_eq t count k
    rw [read_of_silent hmentions] at hown ⊢
    rw [hlatest]
    rcases hcharge with rfl | ⟨hle, hgone⟩
    · exact hown
    · rw [← h.others peer (by omega) hgone k]
      cases hpeer : (t.dir.pair (sessionPath peer)).mentions walOn k with
      | false => exact (read_of_silent hpeer).symm
      | true =>
        have hin := hperm.symm.subset (hsettled.gone peer hle hgone k hpeer).2
        have hname := (mem_orphanSessionFiles (by omega)).mpr ⟨hin, hle⟩
        exact nomatch hpeer.symm.trans (hsilent _ hname)

end

lemma Inv.restart (h : t.Inv walOn) {count : ℕ} {names : List String} {retained : List Publish}
    {now : ℕ} (hop : t.Careful walOn (.restart count names retained now)) :
    Inv walOn (t.apply walOn hash (.restart count names retained now)) := by
  obtain ⟨⟨hpos, hle, hperm⟩, hfewer⟩ := hop
  have hfamily : ∃ n ≤ 2 ^ 64, SessionDir.Family { t.dir with names } n := by
    obtain ⟨n, hn, hfamily⟩ := h.family
    exact ⟨n, hn, fun name hname => hfamily name (hperm.subset hname)⟩
  have hfiles : t.Says walOn (orphanSessionFiles names count) (t.latest count) := by
    rcases Nat.lt_or_eq_of_le hle with hlt | rfl
    · exact ⟨fun name hname k => h.shrink_orphans hpos (hfewer hlt) hperm hname,
        fun k => h.shrink_own hpos (hfewer hlt) hperm hlt⟩
    · have hmem {name : String} : name ∈ orphanSessionFiles names t.count ↔ name ∈ t.orphans :=
        (hperm.filter _).mem_iff
      simp only [Says, latest_self, hmem]
      exact h.files
  refine ⟨hpos, le_trans hle h.small, hfamily, fun _ _ => rfl, ?_, fun p hp hlt k => ?_⟩
  · simp only [Lifetimes.apply, update_self]
    exact hfiles
  · simp only [Lifetimes.apply, update_of_ne (Nat.ne_of_gt hp)]
    exact h.others p hp (lt_of_lt_of_le hlt hle) k

lemma Inv.apply (h : t.Inv walOn) {op : LifeOp} (hop : t.Careful walOn op) :
    Inv walOn (t.apply walOn hash op) := by
  cases op with
  | work peer op => exact h.work peer op hop
  | snapshot peer => exact h.snapshot peer hop
  | restart count names retained now => exact h.restart hop

/-- What a restart finds. -/
lemma Inv.restored (h : t.Inv walOn) (hpeer : peer < t.count) (k : String) :
    t.restored walOn peer k = (t.facts peer k).2 := by
  rcases Nat.eq_zero_or_pos peer with rfl | hpos
  · have hdisks : t.dir.disks 0 t.count =
        t.dir.pair (sessionPath 0) :: t.orphans.map t.dir.pair := by
      rw [SessionDir.disks, SessionDir.restorePaths, if_pos rfl, map_cons]
      rfl
    rw [Lifetimes.restored, SessionDir.restored, hdisks, foldl_cons]
    refine (layered_mergeDisk walOn k).foldl_of_agree (fun disk hdisk hmentions => ?_)
      fun hnone => ?_
    · obtain ⟨name, hname, rfl⟩ := mem_map.mp hdisk
      exact h.files.1 name hname k hmentions
    · exact h.files.2 k fun name hname => hnone _ (mem_map_of_mem hname)
  · rw [Lifetimes.restored, SessionDir.restored_of_ne (Nat.ne_of_gt hpos)]
    exact h.others peer hpos hpeer k

/-- A broker whose files are those of its shards, each up to date. -/
structure Started (walOn : Bool) (t : Lifetimes) : Prop where
  pos : 0 < t.count
  small : t.count ≤ 2 ^ 64
  family : t.dir.Family t.count
  synced : ∀ peer < t.count, (t.runs peer).disk = t.dir.pair (sessionPath peer)
  read : ∀ peer < t.count, ∀ k, (t.dir.pair (sessionPath peer)).read walOn k = (t.facts peer k).2

lemma Started.inv (h : t.Started walOn) : t.Inv walOn where
  pos := h.pos
  small := h.small
  family := ⟨_, h.small, h.family⟩
  synced := h.synced
  files := by
    refine ⟨fun name hname => ?_, fun k _ => h.read 0 h.pos k⟩
    obtain ⟨peer, hpeer, rfl, -⟩ := exists_peer_of_orphan h.small h.family hname
    exact absurd rfl (ne_of_mem_orphans hpeer h.small hname)
  others peer _ hlt k := h.read peer hlt k

/-- Two shards that start with an empty directory. -/
def twoShards : Lifetimes where
  count := 2
  runs peer := startShard true {} 2 peer [] 0

/-- A client has a session on shard 1, and the broker stops and starts again with one shard. -/
def adopting : List LifeOp :=
  [.work 1 (.openSession "a" 0 false), .work 1 (.closeSession "a" 1 sessionNeverExpires {} []),
    .snapshot 0, .snapshot 1, .restart 1 [sessionPath 0, sessionPath 1] [] 0]

/-- The session that peer 0 has taken over ends, and the broker stops. -/
def ending : List LifeOp :=
  [.work 0 (.openSession "a" 0 false), .work 0 (.closeSession "a" 2 0 {} []), .snapshot 0]

/-- The session as shard 1 writes it. -/
def kept : PersistedSession where
  clientId := "a"
  expirySecs := sessionNeverExpires
  session := {}

/-- Both shards have written their final snapshots. -/
abbrev suspended : Lifetimes := run (apply true fun _ => 0) twoShards (adopting.take 4)

end Lifetimes

end Rusquitto
