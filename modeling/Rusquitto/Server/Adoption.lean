import Rusquitto.Lib.Layers
import Rusquitto.Server.Restart

/-!
# Adopting the sessions of shards that are gone

Peer 0 reads the files of shards that are gone after its own (`orphan_session_files` of
`server/shard/maintenance.rs`), in the order in which the directory lists them, into one map. The
last pair that mentions a client has the last word (`SessionDir.lookup_restored`), also when all it
says is that the session has gone.
-/

namespace Rusquitto

open AList Nat Option

/-! ### File names -/

/-- `str::parse::<usize>`: an optional sign, then at least one digit, and no overflow. -/
def parseUsize (text : List Char) : Option ℕ :=
  let digits := if text.head? = some '+' then text.tail else text
  if digits = [] ∨ digits.all Char.isDigit = false then none
  else
    let n := ofDigitChars 10 digits 0
    if n < 2 ^ 64 then some n else none

/-- `PersistenceConfig::session_path`: the snapshot file of a shard. -/
def sessionPath (peer : ℕ) : String :=
  "sessions-" ++ toString peer ++ ".mqtt"

/-- The shard whose snapshot a file is, by its name. -/
def sessionIndex (name : String) : Option ℕ :=
  ((name.toList.dropPrefix? "sessions-".toList).bind (·.dropSuffix? ".mqtt".toList)).bind parseUsize

/-- The snapshot files orphaned by a decrease in shard count, among the files of the directory. -/
def orphanSessionFiles (names : List String) (shardCount : ℕ) : List String :=
  names.filter fun name => (sessionIndex name).any (shardCount ≤ ·)

lemma parseUsize_toDigits {n : ℕ} (h : n < 2 ^ 64) : parseUsize (toDigits 10 n) = some n := by
  have hdigits : ∀ c ∈ toDigits 10 n, c.isDigit = true := fun c hc =>
    isDigit_of_mem_toDigits (by decide) (by decide) hc
  have hne : toDigits 10 n ≠ [] := toDigits_ne_nil
  have hsign : (toDigits 10 n).head? ≠ some '+' := by
    intro hhead
    have hplus := hdigits '+' (List.mem_of_mem_head? hhead)
    exact absurd hplus (by decide)
  have hall : (toDigits 10 n).all Char.isDigit = true := List.all_eq_true.mpr hdigits
  simp only [parseUsize, if_neg hsign]
  rw [if_neg (by simp [hne, hall]), ofDigitChars_toDigits (by decide) (by decide), if_pos h]

lemma sessionIndex_sessionPath {peer : ℕ} (h : peer < 2 ^ 64) :
    sessionIndex (sessionPath peer) = some peer := by
  have hpath : (sessionPath peer).toList =
      "sessions-".toList ++ (toDigits 10 peer ++ ".mqtt".toList) := by
    simp [sessionPath, toString_eq_repr]
  have hprefix : (sessionPath peer).toList.dropPrefix? "sessions-".toList =
      some (toDigits 10 peer ++ ".mqtt".toList) := by
    rw [List.dropPrefix?_eq_some_iff]
    exact ⟨_, hpath, by simp⟩
  have hsuffix : (toDigits 10 peer ++ ".mqtt".toList).dropSuffix? ".mqtt".toList =
      some (toDigits 10 peer) := by
    rw [List.dropSuffix?_eq_some_iff]
    exact ⟨_, rfl, by simp⟩
  rw [sessionIndex, hprefix, bind_some, hsuffix, bind_some, parseUsize_toDigits h]

lemma sessionPath_inj {i j : ℕ} (hi : i < 2 ^ 64) (hj : j < 2 ^ 64)
    (h : sessionPath i = sessionPath j) : i = j := by
  have hindex := congrArg sessionIndex h
  rw [sessionIndex_sessionPath hi, sessionIndex_sessionPath hj] at hindex
  exact some.inj hindex

/-! ### The files of a directory -/

/-- Whether a pair of files says anything about a client. -/
def Disk.mentions (walOn : Bool) (disk : Disk) (k : String) : Bool :=
  disk.sessions.any (·.clientId = k) || walOn && disk.wal.any (·.clientId = k)

/-- The persistence directory: the names of its files, in the order in which they are listed, and
the content of each snapshot with its log. A file that does not exist is empty. -/
structure SessionDir where
  names : List String := []
  pair : String → Disk := fun _ => {}

namespace SessionDir

variable (walOn : Bool) (dir : SessionDir)

/-- The snapshots that a peer reads at startup, in this order. -/
def restorePaths (peer shardCount : ℕ) : List String :=
  sessionPath peer :: if peer = 0 then orphanSessionFiles dir.names shardCount else []

/-- What a peer reads: each snapshot with the log beside it. -/
def disks (peer shardCount : ℕ) : List Disk :=
  (dir.restorePaths peer shardCount).map dir.pair

/-- The sessions that a peer restores. -/
def restored (peer shardCount : ℕ) : HashMap String PersistedSession :=
  (dir.disks peer shardCount).foldl (mergeDisk walOn) ∅

/-- The sessions in the files of one shard alone. -/
def recovered (peer : ℕ) : HashMap String PersistedSession :=
  mergeDisk walOn ∅ (dir.pair (sessionPath peer))

/-- The last file that peer 0 reads with something about the client in it or in the log beside it.
-/
def lastMention (shardCount : ℕ) (k : String) : Option String :=
  Lib.lastLayer (fun path => (dir.pair path).mentions walOn k) (dir.restorePaths 0 shardCount)

end SessionDir

/-! ### Who has the last word -/

lemma layered_insert (k : String) :
    Lib.Layered (fun (m : HashMap String PersistedSession) (ps : PersistedSession) =>
      m.insert ps.clientId ps) (lookup k) (·.clientId = k) some := by
  intro m ps
  rw [lookup_insert_eq_ite]
  by_cases hk : k = ps.clientId
  · simp [hk]
  · simp [hk, Ne.symm hk]

/-- The session a record leaves behind. -/
def Record.session : Record → Option PersistedSession
  | .upsert ps => some ps
  | .remove _ => none

lemma layered_applyRecord (k : String) :
    Lib.Layered applyRecord (lookup k) (·.clientId = k) Record.session := by
  intro m record
  cases record with
  | upsert ps => exact layered_insert k m ps
  | remove c =>
    simp only [applyRecord, Record.clientId, Record.session, lookup_erase_eq_ite]
    by_cases hk : k = c
    · simp [hk]
    · simp [hk, Ne.symm hk]

/-- A pair of files decides about the clients that it mentions. -/
lemma layered_mergeDisk (walOn : Bool) (k : String) :
    Lib.Layered (mergeDisk walOn) (lookup k) (·.mentions walOn k)
      fun disk => (mergeDisk walOn ∅ disk).lookup k := by
  intro m disk
  have hsessions := (layered_insert k).foldl_any disk.sessions m ∅
  change (mergeSessions m disk.sessions).lookup k =
    if _ then (mergeSessions ∅ disk.sessions).lookup k else _ at hsessions
  cases walOn with
  | false =>
    simp only [mergeDisk, Disk.mentions, Bool.false_eq_true, if_false, Bool.false_and,
      Bool.or_false]
    exact hsessions
  | true =>
    simp only [mergeDisk, Disk.mentions, if_true, Bool.true_and, Bool.or_eq_true]
    have hlog := (layered_applyRecord k).foldl_any disk.wal (mergeSessions m disk.sessions)
      (mergeSessions ∅ disk.sessions)
    rw [hlog]
    split
    · next hwal => rw [if_pos (.inr hwal)]
    · next hwal =>
      have hsilent := (layered_applyRecord k).foldl_any disk.wal (mergeSessions ∅ disk.sessions) ∅
      rw [if_neg hwal] at hsilent
      rw [hsessions, hsilent]
      simp only [hwal, Bool.false_eq_true, or_false]

namespace SessionDir

variable {walOn : Bool} {dir : SessionDir} {n m : ℕ} {k : String}

/-- The last file that mentions the client has the last word. -/
lemma lookup_restored (walOn : Bool) (dir : SessionDir) (m : ℕ) (k : String) :
    (dir.restored walOn 0 m).lookup k =
      (dir.lastMention walOn m k).bind fun path =>
        (mergeDisk walOn ∅ (dir.pair path)).lookup k := by
  have hlayers : Lib.Layered (fun merged path => mergeDisk walOn merged (dir.pair path))
      (lookup k) (fun path => (dir.pair path).mentions walOn k)
      fun path => (mergeDisk walOn ∅ (dir.pair path)).lookup k :=
    fun merged path => layered_mergeDisk walOn k merged (dir.pair path)
  rw [restored, disks, List.foldl_map, hlayers.foldl]
  unfold lastMention
  cases Lib.lastLayer _ (dir.restorePaths 0 m) <;> rfl

/-- Every other peer restores the sessions of its own files. -/
lemma restored_of_ne {peer : ℕ} (h : peer ≠ 0) (walOn : Bool) (dir : SessionDir) (m : ℕ) :
    dir.restored walOn peer m = dir.recovered walOn peer := by
  rw [restored, disks, restorePaths, if_neg h]
  rfl

/-! ### Fewer shards -/

/-- The files of `n` shards, and no other snapshot. -/
def Family (dir : SessionDir) (n : ℕ) : Prop :=
  ∀ name ∈ dir.names, (sessionIndex name).isSome → ∃ i < n, name = sessionPath i

/-- The old shards whose files peer 0 is to read when `m` of `n` shards are left. -/
def InCharge (n m i : ℕ) : Prop :=
  i = 0 ∨ m ≤ i ∧ i < n

/-- After a restart with `m` shards every session that was in the files of one of `n` shards is on a
shard again. A client whose session is in just one of the pairs that peer 0 is to read gets that
one. -/
def LosesNothing (walOn : Bool) (dir : SessionDir) (n m : ℕ) : Prop :=
  (∀ i < n, ∀ k, (dir.recovered walOn i).lookup k ≠ none →
    ∃ peer < m, ∀ s retained now, s.sessions = ∅ →
      (restoreFromDisk s walOn retained (dir.disks peer m) now).sessions.lookup k ≠ none) ∧
  ∀ i k, InCharge n m i →
    (∀ j, InCharge n m j → ((dir.recovered walOn j).lookup k ≠ none ↔ j = i)) →
    (dir.restored walOn 0 m).lookup k = (dir.recovered walOn i).lookup k

/-- The last file that mentions a client is one that still has its session: the only one, if only
one of the files peer 0 is to read has it. -/
def LastHas (walOn : Bool) (dir : SessionDir) (n m : ℕ) : Prop :=
  ∀ i k, InCharge n m i → (dir.recovered walOn i).lookup k ≠ none →
    ((∀ j, InCharge n m j → (dir.recovered walOn j).lookup k ≠ none → j = i) →
      dir.lastMention walOn m k = some (sessionPath i)) ∧
    ((∃ l, 0 < l ∧ l < m ∧ (dir.recovered walOn l).lookup k ≠ none) ∨
      ∃ j, InCharge n m j ∧ dir.lastMention walOn m k = some (sessionPath j) ∧
        (dir.recovered walOn j).lookup k ≠ none)

end SessionDir

/-- A restart loads the restored sessions, and no others. -/
lemma lookup_restoreFromDisk {s : ShardState} (hs : s.sessions = ∅) (walOn : Bool)
    (retained : List Publish) (disks : List Disk) (now : ℕ) (k : String) :
    (restoreFromDisk s walOn retained disks now).sessions.lookup k ≠ none ↔
      (disks.foldl (mergeDisk walOn) ∅).lookup k ≠ none := by
  have hkeyed : Keyed (disks.foldl (mergeDisk walOn) ∅) := by
    have hall (disks : List Disk) (merged : HashMap String PersistedSession) (h : Keyed merged) :
        Keyed (disks.foldl (mergeDisk walOn) merged) := by
      induction disks generalizing merged with
      | nil => exact h
      | cons disk disks ih => exact ih _ (h.mergeDisk walOn disk)
    exact hall disks ∅ keyed_empty
  have hloaded (sessions : List PersistedSession) (s : ShardState) :
      (s.loadSessions sessions now).sessions.lookup k ≠ none ↔
        s.sessions.lookup k ≠ none ∨ ∃ ps ∈ sessions, ps.clientId = k := by
    induction sessions generalizing s with
    | nil => simp [ShardState.loadSessions]
    | cons ps sessions ih =>
      refine (ih (s.loadSession now ps)).trans ?_
      rw [ShardState.loadSession, lookup_insert_eq_ite]
      by_cases hk : k = ps.clientId
      · simp [hk]
      · simp [hk, Ne.symm hk]
  have hempty : ((if walOn then s.enableWal else s).loadRetained retained).sessions.lookup
    k = none := by
    have hview := congrArg ClientView.session
      (view_loadRetained (if walOn then s.enableWal else s) retained k)
    rw [ShardState.session_view, ShardState.session_view] at hview
    rw [hview]
    cases walOn with
    | false => exact congrArg (lookup k) hs
    | true => exact congrArg (lookup k) hs
  refine (hloaded _ _).trans ?_
  rw [hempty]
  constructor
  · rintro (habsurd | ⟨ps, hps, hk⟩)
    · exact absurd rfl habsurd
    · obtain ⟨c, hc⟩ := mem_values.mp hps
      rw [← hk, hkeyed c ps hc, hc]
      exact some_ne_none ps
  · intro h
    obtain ⟨ps, hps⟩ := ne_none_iff_exists'.mp h
    exact .inr ⟨ps, mem_values.mpr ⟨k, hps⟩, hkeyed k ps hps⟩

namespace SessionDir

variable {walOn : Bool} {dir : SessionDir} {n m : ℕ} {k : String}

/-- A session that peer 0 restores comes from the last file that mentions its client. -/
lemma exists_of_restored (hn : n ≤ 2 ^ 64) (hfamily : dir.Family n)
    (h : (dir.restored walOn 0 m).lookup k ≠ none) :
    ∃ j, InCharge n m j ∧ dir.lastMention walOn m k = some (sessionPath j) ∧
      (dir.recovered walOn j).lookup k ≠ none := by
  rw [lookup_restored] at h
  cases hlast : dir.lastMention walOn m k with
  | none =>
    rw [hlast] at h
    exact absurd rfl h
  | some path =>
    rw [hlast] at h
    obtain ⟨hmem, -⟩ := Lib.mem_of_lastLayer hlast
    rw [restorePaths, if_pos rfl] at hmem
    rcases List.mem_cons.mp hmem with rfl | horphan
    · exact ⟨0, .inl rfl, rfl, h⟩
    · obtain ⟨hname, hindex⟩ := List.mem_filter.mp horphan
      obtain ⟨index, hsome, hle⟩ := any_eq_true _ _ |>.mp hindex
      obtain ⟨j, hj, rfl⟩ := hfamily path hname (by rw [hsome]; rfl)
      rw [sessionIndex_sessionPath (by omega)] at hsome
      have hle : m ≤ j := by
        rw [some.inj hsome]
        exact of_decide_eq_true hle
      exact ⟨j, .inr ⟨hle, hj⟩, rfl, h⟩

lemma lookup_restored_of_last {i : ℕ} (h : dir.lastMention walOn m k = some (sessionPath i)) :
    (dir.restored walOn 0 m).lookup k = (dir.recovered walOn i).lookup k := by
  rw [lookup_restored, h]
  rfl

/-- Fewer shards lose no session exactly if the last file that mentions a client still has its
session. -/
theorem losesNothing_iff (hn : n ≤ 2 ^ 64) (hm : 0 < m) (hmn : m < n) (hfamily : dir.Family n) :
    dir.LosesNothing walOn n m ↔ dir.LastHas walOn n m := by
  -- a session is on a shard again exactly if the shard's map has it
  have hon (peer : ℕ) (k : String) : (∀ s retained now, s.sessions = ∅ →
      (restoreFromDisk s walOn retained (dir.disks peer m) now).sessions.lookup k ≠ none) ↔
      (dir.restored walOn peer m).lookup k ≠ none :=
    ⟨fun h => (lookup_restoreFromDisk rfl walOn [] _ 0 k).mp (h {} [] 0 rfl),
      fun h s retained now hs => (lookup_restoreFromDisk hs walOn retained _ now k).mpr h⟩
  simp only [LosesNothing, hon]
  constructor
  · rintro ⟨hall, hone⟩ i k hi hk
    refine ⟨fun honly => ?_, ?_⟩
    · have hentry := hone i k hi fun j hj => ⟨honly j hj, fun h => by rwa [h]⟩
      obtain ⟨j, hj, hlast, hkj⟩ := exists_of_restored hn hfamily (by rwa [hentry])
      rwa [← honly j hj hkj]
    · have hin : i < n := by
        rcases hi with rfl | hi
        · omega
        · exact hi.2
      obtain ⟨peer, hpeer, hkp⟩ := hall i hin k hk
      by_cases hzero : peer = 0
      · subst hzero
        exact .inr (exists_of_restored hn hfamily hkp)
      · rw [restored_of_ne hzero] at hkp
        exact .inl ⟨peer, pos_of_ne_zero hzero, hpeer, hkp⟩
  · intro hlast
    refine ⟨fun i hin k hk => ?_, fun i k hi honly => ?_⟩
    · by_cases hi : InCharge n m i
      · rcases (hlast i k hi hk).2 with ⟨l, hl, hlm, hkl⟩ | ⟨j, -, hj, hkj⟩
        · exact ⟨l, hlm, by rwa [restored_of_ne (ne_of_gt hl)]⟩
        · exact ⟨0, hm, by rwa [lookup_restored_of_last hj]⟩
      · have hi0 : i ≠ 0 := fun h => hi (.inl h)
        have him : i < m := by
          by_contra hle
          exact hi (.inr ⟨Nat.le_of_not_lt hle, hin⟩)
        exact ⟨i, him, by rwa [restored_of_ne hi0]⟩
    · exact lookup_restored_of_last
        ((hlast i k hi ((honly i hi).mpr rfl)).1 fun j hj hkj => (honly j hj).mp hkj)

/-- The directory of two shards with the given files. -/
def ofTwo (names : List String) (first second : Disk) : SessionDir where
  names
  pair name := if name = sessionPath 0 then first else if name = sessionPath 1 then second else {}

lemma ofTwo_family {names : List String} (h : ∀ name ∈ names, name = sessionPath 0 ∨ name =
    sessionPath 1)
    (first second : Disk) : (ofTwo names first second).Family 2 := by
  intro name hname _
  rcases h name hname with rfl | rfl
  · exact ⟨0, by decide, rfl⟩
  · exact ⟨1, by decide, rfl⟩

/-- A session without content. -/
def bareSession (clientId : String) : PersistedSession where
  clientId
  expirySecs := 100
  session := {}

/-- The files of two shards with one session each. -/
def oneEach : SessionDir :=
  ofTwo [sessionPath 0, sessionPath 1] { sessions := [bareSession "a"] }
    { sessions := [], wal := [.upsert (bareSession "b")] }

theorem losesNothing_iff_one_each : oneEach.LosesNothing true 2 1 := by
  refine (losesNothing_iff (by decide) (by decide) (by decide) (ofTwo_family (by simp) _ _)).mpr ?_
  intro i k hi hk
  have hkey (ps : PersistedSession)
      (h : (mergeSessions ∅ [ps]).lookup k ≠ none) : k = ps.clientId := by
    by_contra hne
    rw [mergeSessions, List.foldl_cons, List.foldl_nil, lookup_insert_eq_ite, if_neg hne] at h
    exact h rfl
  have hcases : i = 0 ∧ k = "a" ∨ i = 1 ∧ k = "b" := by
    rcases hi with rfl | ⟨hle, hlt⟩
    · exact .inl ⟨rfl, hkey (bareSession "a") hk⟩
    · obtain rfl : i = 1 := by omega
      exact .inr ⟨rfl, hkey (bareSession "b") hk⟩
  rcases hcases with ⟨rfl, rfl⟩ | ⟨rfl, rfl⟩
  · exact ⟨fun _ => by decide, .inr ⟨0, hi, by decide, hk⟩⟩
  · exact ⟨fun _ => by decide, .inr ⟨1, hi, by decide, hk⟩⟩

/-- A session that moved from shard 1 to shard 0: the log of shard 1 has its tombstone. -/
def movedAway : SessionDir :=
  ofTwo [sessionPath 0, sessionPath 1] { sessions := [bareSession "a"] }
    { sessions := [bareSession "a"], wal := [.remove "a"] }

/-- Shard 1 has not written a snapshot yet. -/
def logOnly : SessionDir :=
  ofTwo [sessionPath 0] {} { wal := [.upsert (bareSession "a")] }

/-- The tombstone in the log of shard 1 removes the session that is in the snapshot of shard 0; and
a log without a snapshot beside it is not read at all. -/
theorem shrink_drops_session : movedAway.Family 2 ∧ ¬movedAway.LosesNothing true 2 1 ∧
      logOnly.Family 2 ∧ ¬logOnly.LosesNothing true 2 1 := by
  refine ⟨ofTwo_family (by simp) _ _, fun h => ?_, ofTwo_family (by simp) _ _, fun h => ?_⟩
  · obtain ⟨peer, hpeer, hk⟩ := h.1 0 (by decide) "a" (by decide)
    obtain rfl : peer = 0 := by omega
    exact hk {} [] 0 rfl (by decide)
  · obtain ⟨peer, hpeer, hk⟩ := h.1 1 (by decide) "a" (by decide)
    obtain rfl : peer = 0 := by omega
    exact hk {} [] 0 rfl (by decide)

end SessionDir

end Rusquitto
