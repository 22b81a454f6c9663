import Rusquitto.Persistence.Session

/-!
# The session write-ahead log

Framed Upsert and Remove records, their replay and the appendable file of `wal.rs`. A log replays
record by record until a frame is torn or does not parse. `replayed_append` says that the complete
records of a log are replayed in order; `append_recoverable_iff` says for which log contents a batch
appended by a later run is replayed as well.
-/

namespace Rusquitto

open Lib List Reader

variable {data rest tail : List UInt8} {chunks : List (List UInt8)}

def kindUpsert : UInt8 := 1

def kindRemove : UInt8 := 2

/-- A log record. -/
inductive Record where
  /-- A suspended session's full durable state. -/
  | upsert (ps : PersistedSession)
  /-- A tombstone. -/
  | remove (clientId : String)

/-- The client a record is about. -/
def Record.clientId : Record → String
  | .upsert ps => ps.clientId
  | .remove clientId => clientId

/-- `[u32 len][rec]`. -/
def frame (rec : List UInt8) : List UInt8 := putU32 rec.length ++ rec

/-- The framed Upsert record. -/
def encodeUpsert (wire : Wire) (ps : PersistedSession) : Except CodecError (List UInt8) := do
  let body ← encodeSession wire ps
  pure (frame (putU8 kindUpsert ++ body))

/-- The framed Remove record. -/
def encodeRemove (clientId : String) : List UInt8 :=
  frame (putU8 kindRemove ++ putStr clientId)

def encodeRecord (wire : Wire) : Record → Except CodecError (List UInt8)
  | .upsert ps => encodeUpsert wire ps
  | .remove clientId => .ok (encodeRemove clientId)

def readRecord (wire : Wire) : SnapshotReader Record := do
  let kind ← getU8
  if kind = kindUpsert then do
    let ps ← decodeSession wire
    pure (.upsert ps)
  else if kind = kindRemove then do
    let clientId ← getStr
    pure (.remove clientId)
  else Reader.fail (.unknownKind kind)

/-- One turn of the replay loop: the next record and the bytes after it, or `none` where the loop
breaks. -/
def replayStep (wire : Wire) (data : List UInt8) : Option (Record × List UInt8) :=
  if data.length < 4 then none
  else
    match getU32.run data with
    | .error _ => none
    | .ok (len, rest) =>
      -- a torn trailing record: a crash mid-append
      if len = 0 ∨ rest.length < len then none
      else
        match (readRecord wire).run rest with
        | .ok (record, rest) => some (record, rest)
        | .error _ => none

/-- The records that at most `fuel` turns of the loop read. -/
def replayFuel (wire : Wire) : ℕ → List UInt8 → List Record
  | 0, _ => []
  | fuel + 1, data =>
    match replayStep wire data with
    | none => []
    | some (record, rest) => record :: replayFuel wire fuel rest

/-- The records that a replay of `data` applies. Each turn consumes a length prefix, so as many
turns as bytes are enough (`replayed_eq`). -/
def replayed (wire : Wire) (data : List UInt8) : List Record :=
  replayFuel wire data.length data

/-- Last writer wins per client id. -/
def applyRecord (sessions : HashMap String PersistedSession) :
    Record → HashMap String PersistedSession
  | .upsert ps => sessions.insert ps.clientId ps
  | .remove clientId => sessions.erase clientId

/-- Replays a log over `sessions` and counts the records applied. -/
def applyLog (wire : Wire) (data : List UInt8) (sessions : HashMap String PersistedSession) :
    HashMap String PersistedSession × ℕ :=
  ((replayed wire data).foldl applyRecord sessions, (replayed wire data).length)

/-! ## The log file -/

/-- An open, appendable log: the file's content and the append offset. -/
structure Wal where
  file : List UInt8
  offset : ℕ

/-- `write_at`: overwrites the file from `offset` on, filling a gap with zeros. -/
def writeAt (file bytes : List UInt8) (offset : ℕ) : List UInt8 :=
  file.take offset ++ replicate (offset - file.length) 0 ++ bytes ++
    file.drop (offset + bytes.length)

/-- Opens the log for appending, positioned at the end of what is on disk. -/
def Wal.open (content : List UInt8) : Wal where
  file := content
  offset := content.length

/-- Appends one batch. A no-op for an empty batch. -/
def Wal.append (wal : Wal) (bytes : List UInt8) : Wal :=
  if bytes = [] then wal
  else { file := writeAt wal.file bytes wal.offset, offset := wal.offset + bytes.length }

/-- Truncates the log to empty. -/
def Wal.truncate (_ : Wal) : Wal where
  file := []
  offset := 0

lemma Wal.file_append_open (content bytes : List UInt8) :
    ((Wal.open content).append bytes).file = content ++ bytes := by
  rw [Wal.append, Wal.open]
  split_ifs with h
  · simp [h]
  · simp [writeAt]

/-! ## Replay -/

section Replay

variable {wire : Wire} {record : Record}

lemma local_readRecord (wire : Wire) : Local (readRecord wire) :=
  local_getU8.bind fun _ => Local.ite
    ((local_decodeSession wire).bind fun _ => .pure _)
    (Local.ite (local_getStr.bind fun _ => .pure _) (Local.fail _))

lemma replayStep_eq_some (h : replayStep wire data = some (record, rest)) :
    ∃ len body, getU32.run data = .ok (len, body) ∧ len ≠ 0 ∧ len ≤ body.length ∧
      (readRecord wire).run body = .ok (record, rest) := by
  rw [replayStep] at h
  split_ifs at h with hshort
  cases hlen : getU32.run data with
  | error e => simp [hlen] at h
  | ok r =>
    obtain ⟨len, body⟩ := r
    simp only [hlen] at h
    split_ifs at h with htorn
    rw [not_or, not_lt] at htorn
    cases hrecord : (readRecord wire).run body with
    | error e => simp [hrecord] at h
    | ok r =>
      rw [hrecord] at h
      cases h
      exact ⟨len, body, rfl, htorn.1, htorn.2, hrecord⟩

lemma length_lt_of_replayStep (h : replayStep wire data = some (record, rest)) :
    rest.length < data.length := by
  obtain ⟨len, body, hlen, -, -, hrecord⟩ := replayStep_eq_some h
  obtain ⟨used, rfl, -⟩ := local_readRecord wire _ _ _ hrecord
  obtain ⟨b, mid, htake, hpure⟩ := Reader.run_bind_eq_ok_iff.mp hlen
  cases hpure
  simp only [takeBytes, Reader.take, StateT.run] at htake
  split_ifs at htake with h4
  rw [Except.ok.injEq, Prod.mk.injEq] at htake
  have hdrop := congrArg length htake.2
  rw [length_drop, length_append] at hdrop
  omega

lemma replayFuel_eq_replayed {fuel : ℕ} (h : data.length ≤ fuel) :
    replayFuel wire fuel data = replayed wire data := by
  rw [replayed]
  induction fuel using Nat.strong_induction_on generalizing data with
  | h fuel ih =>
    cases hdata : data.length with
    | zero =>
      rw [length_eq_zero_iff] at hdata
      subst hdata
      cases fuel with
      | zero => rfl
      | succ fuel => rfl
    | succ n =>
      obtain ⟨fuel, rfl⟩ : ∃ m, fuel = m + 1 := ⟨fuel - 1, by omega⟩
      rw [replayFuel, replayFuel]
      cases hstep : replayStep wire data with
      | none => rfl
      | some r =>
        obtain ⟨record, rest⟩ := r
        have hlt := length_lt_of_replayStep hstep
        have hn : replayFuel wire n rest = replayFuel wire rest.length rest := by
          by_cases hfuel : n < fuel + 1
          · exact ih n hfuel (by omega)
          · omega
        simp only [ih fuel (by omega) (show rest.length ≤ fuel by omega), hn]

/-- The loop: break, or apply one record and go on with the rest. -/
lemma replayed_eq (wire : Wire) (data : List UInt8) :
    replayed wire data =
      match replayStep wire data with
      | none => []
      | some (record, rest) => record :: replayed wire rest := by
  rw [← replayFuel_eq_replayed (Nat.le_succ data.length), replayFuel]
  cases hstep : replayStep wire data with
  | none => rfl
  | some r =>
    have hlt := length_lt_of_replayStep hstep
    simp only [replayFuel_eq_replayed hlt.le]

end Replay

/-! ## Complete records -/

/-- A record as it comes back from the log. -/
def Record.stored (readBack : Publish → Publish) : Record → Record
  | .upsert ps => .upsert (ps.stored readBack)
  | .remove clientId => .remove clientId

/-- `chunk` is the framed encoding of `record`, of any length. -/
structure Encoded (wire : Wire) (record : Record) (chunk : List UInt8) : Prop where
  fits : match record with
    | .upsert ps => ps.Fits
    | .remove clientId => clientId.utf8ByteSize < 2 ^ 16
  encode : encodeRecord wire record = .ok chunk

/-- `chunk` is the framed encoding of `record`, and its length fits its field. -/
structure Framed (wire : Wire) (record : Record) (chunk : List UInt8) : Prop
    extends Encoded wire record chunk where
  length_lt : chunk.length < 2 ^ 32

/-- The publishes of a record read back. -/
def Record.Readable (wire : Wire) (readBack : Publish → Publish) : Record → Prop
  | .upsert ps => ps.Readable wire readBack
  | .remove _ => True

lemma Record.readable {wire : Wire} {readBack : Publish → Publish} (hwire : wire.Lawful readBack)
    (record : Record) : record.Readable wire readBack := by
  cases record with
  | upsert ps => exact fun p _ => hwire.reads _
  | remove clientId => trivial

variable {wire : Wire} {chunk : List UInt8}
section Framed

variable {readBack : Publish → Publish} {record : Record}

section

variable (hread : record.Readable wire readBack)
include hread

/-- A frame is a length prefix and a body that reads back as the record. -/
lemma Encoded.exists_body (h : Encoded wire record chunk) :
    ∃ body, chunk = putU32 body.length ++ body ∧ body ≠ [] ∧
      Decodes (readRecord wire) body (record.stored readBack) := by
  obtain ⟨hfits, hencode⟩ := h
  cases record with
  | upsert ps =>
    obtain ⟨bytes, hbytes, heq⟩ := bind_ok_iff.mp hencode
    cases heq
    refine ⟨_, rfl, by simp [putU8], (decodes_getU8 kindUpsert).bind ?_⟩
    exact (decodes_decodeSession hread hfits hbytes).bind_pure (Decodes.pure _)
  | remove clientId =>
    cases hencode
    refine ⟨_, rfl, by simp [putU8], (decodes_getU8 kindRemove).bind ?_⟩
    exact (decodes_getStr hfits).bind_pure (Decodes.pure _)

lemma Framed.exists_body (h : Framed wire record chunk) :
    ∃ body, chunk = putU32 body.length ++ body ∧ body ≠ [] ∧ body.length < 2 ^ 32 ∧
      Decodes (readRecord wire) body (record.stored readBack) := by
  obtain ⟨body, rfl, hne, hdecodes⟩ := h.toEncoded.exists_body hread
  refine ⟨body, rfl, hne, ?_, hdecodes⟩
  have hlength := h.length_lt
  rw [length_append] at hlength
  omega

/-- A complete frame is replayed, whatever follows, unless its length prefix is cut down to zero. -/
lemma replayed_encoded (h : Encoded wire record chunk) (hlen : (chunk.length - 4) % 2 ^ 32 ≠ 0)
    (tail : List UInt8) :
    replayed wire (chunk ++ tail) = record.stored readBack :: replayed wire tail := by
  obtain ⟨body, rfl, -, hdecodes⟩ := h.exists_body hread
  rw [length_append, putU32, length_leBytes, Nat.add_sub_cancel_left] at hlen
  have hstep : replayStep wire (putU32 body.length ++ body ++ tail) =
      some (record.stored readBack, tail) := by
    have hle := Nat.mod_le body.length (2 ^ 32)
    rw [replayStep, if_neg, append_assoc, decodes_getU32_mod body.length]
    · simp only [length_append]
      rw [if_neg (by omega), hdecodes tail]
    · simp only [length_append, putU32, length_leBytes]
      omega
  rw [replayed_eq, hstep]

lemma replayed_frame (h : Framed wire record chunk) (tail : List UInt8) :
    replayed wire (chunk ++ tail) = record.stored readBack :: replayed wire tail := by
  refine replayed_encoded hread h.toEncoded ?_ tail
  obtain ⟨body, rfl, hne, hlength, -⟩ := h.exists_body hread
  rw [length_append, putU32, length_leBytes, Nat.add_sub_cancel_left,
    Nat.mod_eq_of_lt hlength]
  exact fun h0 => hne (length_eq_zero_iff.mp h0)

omit hread in
/-- In a torn frame whose length prefix is complete the body is torn. -/
lemma exists_torn_body {body : List UInt8} (hcut : tail <+: putU32 body.length ++ body)
    (hne : tail ≠ putU32 body.length ++ body) (hfour : ¬ tail.length < 4) :
    ∃ front back, body = front ++ back ∧ back ≠ [] ∧ tail = putU32 body.length ++ front := by
  obtain ⟨front, rfl⟩ : putU32 body.length <+: tail := by
    refine prefix_of_prefix_length_le (prefix_append ..) hcut ?_
    rw [putU32, length_leBytes]
    omega
  obtain ⟨back, rfl⟩ := (prefix_append_right_inj _).mp hcut
  exact ⟨front, back, rfl, fun hnil => hne (by rw [hnil, append_nil]), rfl⟩

end

/-- The complete records of a log are replayed in order, before what follows them. -/
lemma replayed_append (hwire : wire.Lawful readBack) {records : List Record}
    (h : Forall₂ (Framed wire) records chunks) (tail : List UInt8) :
    replayed wire (chunks.flatten ++ tail) =
      records.map (Record.stored readBack) ++ replayed wire tail := by
  induction h with
  | nil => rfl
  | cons hhead _ ih =>
    rw [flatten_cons, append_assoc, replayed_frame (Record.readable hwire _) hhead, ih, map_cons,
      cons_append]

end Framed

/-! ## Torn logs -/

/-- How many of the frames lie wholly inside the first `n` bytes. -/
def completeFrames : List (List UInt8) → ℕ → ℕ
  | [], _ => 0
  | chunk :: chunks, n =>
    if chunk.length ≤ n then completeFrames chunks (n - chunk.length) + 1 else 0

/-- A byte prefix of a log consists of its complete frames and a strict prefix of the next one. -/
lemma exists_torn_tail {log : List UInt8} (h : log <+: chunks.flatten) :
    ∃ tail, log = (chunks.take (completeFrames chunks log.length)).flatten ++ tail ∧
      (tail = [] ∨ ∃ chunk ∈ chunks, tail <+: chunk ∧ tail ≠ chunk) := by
  induction chunks generalizing log with
  | nil => exact ⟨[], by simpa using h, .inl rfl⟩
  | cons chunk chunks ih =>
    rw [flatten_cons] at h
    rw [completeFrames]
    split_ifs with hlen
    · obtain ⟨rest, rfl⟩ : chunk <+: log :=
        prefix_of_prefix_length_le (prefix_append ..) h hlen
      obtain ⟨tail, hlog, htail⟩ := ih ((prefix_append_right_inj chunk).mp h)
      refine ⟨tail, ?_, htail.imp_right fun ⟨c, hc, h⟩ => ⟨c, mem_cons_of_mem _ hc, h⟩⟩
      rw [length_append, Nat.add_sub_cancel_left, take_succ_cons, flatten_cons,
        append_assoc, ← hlog]
    · have hcut : log <+: chunk :=
        prefix_of_prefix_length_le h (prefix_append ..) (by omega)
      refine ⟨log, rfl, .inr ⟨chunk, mem_cons_self, hcut, ?_⟩⟩
      rintro rfl
      exact hlen le_rfl

lemma completeFrames_flatten_take (hne : ∀ c ∈ chunks, c ≠ []) (k : ℕ) :
    chunks.take (completeFrames chunks (chunks.take k).flatten.length) = chunks.take k := by
  induction chunks generalizing k with
  | nil => simp
  | cons chunk chunks ih =>
    obtain ⟨hchunk, hchunks⟩ := forall_mem_cons.mp hne
    cases k with
    | zero =>
      rw [take_zero, completeFrames, if_neg (by simpa using hchunk), take_zero]
    | succ k =>
      rw [take_succ_cons, flatten_cons, length_append, completeFrames,
        if_pos (Nat.le_add_right ..), Nat.add_sub_cancel_left, take_succ_cons, ih hchunks]

/-- The tombstone of the empty client id, as bytes. -/
lemma encodeRemove_empty : encodeRemove "" = [3, 0, 0, 0, 2, 0, 0] := by decide

private lemma takeBytes_eq_ok {n : ℕ} {input b : List UInt8}
    (h : (takeBytes n).run input = .ok (b, rest)) : input = b ++ rest ∧ b.length = n := by
  simp only [takeBytes, Reader.take, StateT.run] at h
  split_ifs at h with hlen
  cases h
  exact ⟨(take_append_drop n input).symm, length_take_of_le hlen⟩

private lemma eq_nil_of_fromUTF8? {content : List UInt8}
    (h : String.fromUTF8? ⟨content.toArray⟩ = some "") : content = [] := by
  rw [String.fromUTF8?] at h
  split_ifs at h with hvalid
  have hbytes : content = asBytes "" := congrArg asBytes (Option.some.inj h)
  rw [hbytes]
  rfl

/-- Only the three bytes of its own encoding read as the tombstone of the empty client id. -/
private lemma eq_of_readRecord_remove_empty {input : List UInt8}
    (h : (readRecord wire).run input = .ok (.remove "", rest)) : input = [2, 0, 0] ++ rest := by
  obtain ⟨kind, mid, hkind, hbody⟩ := run_bind_eq_ok_iff.mp h
  obtain ⟨b, mid', hb, heq⟩ := run_bind_eq_ok_iff.mp hkind
  obtain ⟨rfl, hblen⟩ := takeBytes_eq_ok hb
  cases heq
  obtain ⟨x, rfl⟩ := length_eq_one_iff.mp hblen
  have hx : UInt8.ofNat (leValue [x]) = x := by simp [leValue]
  rw [hx] at hbody
  split_ifs at hbody with hupsert hremove
  · obtain ⟨ps, mid', -, heq⟩ := run_bind_eq_ok_iff.mp hbody
    cases heq
  · obtain ⟨clientId, mid', hstr, heq⟩ := run_bind_eq_ok_iff.mp hbody
    cases heq
    -- the string is empty, so both bytes of its length are zero
    obtain ⟨n, rest', hn, hcontent⟩ := run_bind_eq_ok_iff.mp hstr
    obtain ⟨lenBytes, rest', hlenBytes, heq⟩ := run_bind_eq_ok_iff.mp hn
    obtain ⟨rfl, htwo⟩ := takeBytes_eq_ok hlenBytes
    cases heq
    obtain ⟨content, rest', htake, hutf8⟩ := run_bind_eq_ok_iff.mp hcontent
    obtain ⟨rfl, hlen⟩ := takeBytes_eq_ok htake
    obtain ⟨y, z, rfl⟩ := length_eq_two.mp htwo
    cases hs : String.fromUTF8? ⟨content.toArray⟩ with
    | none => rw [hs] at hutf8; cases hutf8
    | some s =>
      rw [hs] at hutf8
      cases hutf8
      have hnil := eq_nil_of_fromUTF8? hs
      subst hnil
      simp only [length_nil, leValue] at hlen
      have hy : y = 0 := UInt8.toNat_inj.mp (by simp; omega)
      have hz : z = 0 := UInt8.toNat_inj.mp (by simp; omega)
      rw [hremove, hy, hz]
      rfl
  · cases hbody

private lemma replayStep_eq_none {a b c d : UInt8} (h : rest.length < leValue [a, b, c, d]) :
    replayStep wire (a :: b :: c :: d :: rest) = none := by
  have hlen : getU32.run (a :: b :: c :: d :: rest) = .ok (leValue [a, b, c, d], rest) := rfl
  rw [replayStep, hlen]
  simp [h]

/-- A torn length prefix takes its missing bytes from the tombstone's own prefix and announces
more than there is. -/
private lemma replayed_torn_short (wire : Wire) (hnil : tail ≠ []) (hlen : tail.length < 4) :
    replayed wire (tail ++ encodeRemove "") = [] := by
  have hstep : replayStep wire (tail ++ encodeRemove "") = none := by
    rw [encodeRemove_empty]
    rcases tail with _ | ⟨x, _ | ⟨y, _ | ⟨z, _ | ⟨w, rest⟩⟩⟩⟩
    · exact absurd rfl hnil
    · refine replayStep_eq_none (show 4 < leValue [x, 3, 0, 0] from ?_)
      simp only [leValue, UInt8.reduceToNat]
      omega
    · refine replayStep_eq_none (show 5 < leValue [x, y, 3, 0] from ?_)
      simp only [leValue, UInt8.reduceToNat]
      omega
    · refine replayStep_eq_none (show 6 < leValue [x, y, z, 3] from ?_)
      simp only [leValue, UInt8.reduceToNat]
      omega
    · simp only [length_cons] at hlen
      omega
  rw [replayed_eq, hstep]

/-- A torn frame swallows the tombstone appended to it. -/
lemma replayed_torn_ne {readBack : Publish → Publish} (hwire : wire.Lawful readBack)
    (h : Framed wire record chunk) (hcut : tail <+: chunk) (hne : tail ≠ chunk) (hnil : tail ≠ []) :
      replayed wire (tail ++ encodeRemove "") ≠ [.remove ""] := by
  obtain ⟨body, rfl, -, hlength, hdecodes⟩ := h.exists_body (Record.readable hwire record)
  by_cases hfour : tail.length < 4
  · rw [replayed_torn_short wire hnil hfour]
    exact cons_ne_nil _ _ ∘ Eq.symm
  · obtain ⟨front, back, rfl, hback, rfl⟩ := exists_torn_body hcut hne hfour
    rw [replayed_eq]
    cases hstep : replayStep wire (putU32 (front ++ back).length ++ front ++ encodeRemove "") with
    | none => exact cons_ne_nil _ _ ∘ Eq.symm
    | some r =>
      obtain ⟨record', rest⟩ := r
      obtain ⟨len, input, hlen, -, -, hrecord⟩ := replayStep_eq_some hstep
      rw [append_assoc, decodes_getU32 hlength, Except.ok.injEq, Prod.mk.injEq] at hlen
      obtain ⟨-, rfl⟩ := hlen
      obtain ⟨used, hused, hsplit⟩ :=
        (local_readRecord wire).exists_used hdecodes hback hrecord
      intro heq
      rw [cons.injEq] at heq
      rw [heq.1] at hrecord
      have hinput := eq_of_readRecord_remove_empty hrecord
      -- what was read starts with `2, 0, 0` and ends inside the tombstone, so the torn body has
      -- two bytes at most and the tombstone's first byte is one of the three
      rw [encodeRemove_empty] at hinput hsplit
      have hlen := congrArg length hinput
      have hlen' := congrArg length hsplit
      have hpos := length_pos_iff.mpr hused
      simp only [length_append, length_cons, length_nil] at hlen hlen'
      rcases front with _ | ⟨x, _ | ⟨y, _ | ⟨z, front⟩⟩⟩
      · simp at hinput
      · simp at hinput
      · simp at hinput
      · simp only [length_cons] at hlen
        omega

lemma framed_remove {clientId : String} (h : clientId.utf8ByteSize < 2 ^ 16) :
    Framed wire (.remove clientId) (encodeRemove clientId) where
  fits := h
  encode := rfl
  length_lt := by
    simp only [encodeRemove, frame, putStr, length_append, length_asBytes, putU32, putU16,
      length_leBytes, putU8, length_cons, length_nil]
    omega

private lemma exists_framed {records : List Record} (h : Forall₂ (Framed wire) records chunks)
    (hchunk : chunk ∈ chunks) : ∃ record, Framed wire record chunk := by
  induction h with
  | nil => simp at hchunk
  | cons hhead _ ih =>
    rcases mem_cons.mp hchunk with rfl | hchunk
    · exact ⟨_, hhead⟩
    · exact ih hchunk

/-- When an append after a crash is recoverable. A batch that is appended to any byte prefix of a
valid log is always replayed, after the complete records, exactly when the log ends at a record
boundary: the append position is the end of the file. -/
theorem append_recoverable_iff {wire : Wire} {readBack : Publish → Publish}
    (hwire : wire.Lawful readBack) {records : List Record} {chunks : List (List UInt8)}
    (hrecords : Forall₂ (Framed wire) records chunks) {log : List UInt8}
    (hlog : log <+: chunks.flatten) :
    (∀ (batch : List Record) (batchChunks : List (List UInt8)), batch ≠ [] →
        Forall₂ (Framed wire) batch batchChunks →
        replayed wire ((Wal.open log).append batchChunks.flatten).file =
          (records.take (completeFrames chunks log.length) ++ batch).map (Record.stored readBack)) ↔
      ∃ k, log = (chunks.take k).flatten := by
  constructor
  · intro hall
    obtain ⟨tail, hsplit, htail⟩ := exists_torn_tail hlog
    by_cases hnil : tail = []
    · subst hnil
      exact ⟨_, hsplit.trans (append_nil _)⟩
    · obtain ⟨chunk, hchunk, hcut, hne⟩ := htail.resolve_left hnil
      obtain ⟨record, hframed⟩ := exists_framed hrecords hchunk
      -- a tombstone appended to the torn frame is not replayed
      have hbatch := hall [.remove ""] [encodeRemove ""] (cons_ne_nil _ _)
        (.cons (framed_remove (by decide)) .nil)
      rw [Wal.file_append_open, flatten_singleton] at hbatch
      generalize completeFrames chunks log.length = n at hsplit hbatch
      rw [hsplit, append_assoc, replayed_append hwire (forall₂_take n hrecords),
        map_append, append_right_inj] at hbatch
      exact absurd hbatch (replayed_torn_ne hwire hframed hcut hne hnil)
  · rintro ⟨k, rfl⟩ batch batchChunks - hbatch
    have hne : ∀ c ∈ chunks, c ≠ [] := by
      intro c hc
      obtain ⟨record, hframed⟩ := exists_framed hrecords hc
      obtain ⟨body, rfl, hbody, -⟩ := hframed.exists_body (Record.readable hwire record)
      simp [hbody]
    have htake : records.take (completeFrames chunks (chunks.take k).flatten.length) =
        records.take k := by
      have hchunks := completeFrames_flatten_take hne k
      rw [take_eq_take_iff] at hchunks ⊢
      rw [hrecords.length_eq]
      exact hchunks
    rw [Wal.file_append_open, htake, ← flatten_append, ← append_nil (flatten _),
      replayed_append hwire (rel_append (forall₂_take k hrecords) hbatch)]
    simp [replayed, replayFuel]

/-- A wire encoder for logs that hold no publish: it refuses to write one. -/
def refusingWire : Wire where
  write _ := .error "no publish expected"
  read _ := .error "no publish expected"

lemma refusingWire_lawful : refusingWire.Lawful id where
  read_write _ _ h := by cases h
  length_lt _ _ h := by cases h

/-- On a log with one complete tombstone, a later tombstone is replayed after it. -/
theorem append_recoverable_complete :
    replayed refusingWire ((Wal.open (encodeRemove "a")).append (encodeRemove "b")).file =
      [.remove "a", .remove "b"] := by
  have hframed : Forall₂ (Framed refusingWire) [.remove "a"] [encodeRemove "a"] :=
    .cons (framed_remove (by decide)) .nil
  have hiff := append_recoverable_iff refusingWire_lawful hframed
    (show encodeRemove "a" <+: [encodeRemove "a"].flatten by simp)
  exact hiff.mpr ⟨1, by simp⟩ [.remove "b"] [encodeRemove "b"] (cons_ne_nil _ _)
    (.cons (framed_remove (by decide)) .nil)

/-- A crash left the length prefix of a tombstone. The tombstone that the next run appends and
syncs is lost: its first byte reads as an unknown record kind. -/
theorem append_after_torn_prefix_lost : ¬∀ (records : List Record) (chunks : List (List UInt8)),
      Forall₂ (Framed refusingWire) records chunks → ∀ log, log <+: chunks.flatten →
      ∀ (batch : List Record) (batchChunks : List (List UInt8)), batch ≠ [] →
      Forall₂ (Framed refusingWire) batch batchChunks → ∀ sessions,
      applyLog refusingWire ((Wal.open log).append batchChunks.flatten).file sessions =
        (((records.take (completeFrames chunks log.length) ++ batch).map
          (Record.stored id)).foldl applyRecord sessions,
          completeFrames chunks log.length + batch.length) := by
  intro h
  have hlost := congrArg Prod.snd (h [.remove "a"] [encodeRemove "a"]
    (.cons (framed_remove (by decide)) .nil) [4, 0, 0, 0] (by decide) [.remove "b"]
    [encodeRemove "b"] (cons_ne_nil _ _) (.cons (framed_remove (by decide)) .nil) ∅)
  revert hlost
  decide

end Rusquitto
