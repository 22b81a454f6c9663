import Rusquitto.Lib.Reader

/-!
# The WebSocket transport

`Frame::parse`, `pump_frame`, `read` and `send_control` of `websocket.rs`, after the handshake. The
socket is the list of chunks that its next reads return; `sent` collects what is written to it, and
writes do not fail. What the MQTT parser above sees and what the peer is sent back depend on the
bytes alone, not on how the network cuts them or on the read buffers.
-/

namespace Rusquitto.Transport

open Lib List

/-- A decoded frame and how many raw bytes it took. -/
structure Frame where
  opcode : UInt8
  payload : List UInt8
  totalLen : ℕ

/-- Masking and unmasking are one operation. -/
def unmask (mask data : List UInt8) : List UInt8 :=
  data.mapIdx fun i b => b ^^^ mask.getD (i % 4) 0

/-- A big-endian length of `n` bytes, and where the mask starts after it. -/
def extendedLen (buf : List UInt8) (n : ℕ) : Option (ℕ × ℕ) :=
  if buf.length < 2 + n then none else some (leValue ((buf.drop 2).take n).reverse, 2 + n)

def payloadLen (buf : List UInt8) (len : ℕ) : Option (ℕ × ℕ) :=
  if len = 126 then extendedLen buf 2
  else if len = 127 then extendedLen buf 8
  else some (len, 2)

/-- `Frame::parse`: `none` for a partial frame. The source adds up lengths as `usize`, which
overflows if the limit is within 14 of it. -/
def Frame.parse (buf : List UInt8) (maxFrame : ℕ) : Except String (Option Frame) :=
  match buf with
  | b0 :: b1 :: _ =>
    match payloadLen buf (b1 &&& 0x7F).toNat with
    | none => .ok none
    | some (len, offset) =>
      if maxFrame < len then .error "websocket frame exceeds size limit"
      else if 8 ≤ b0 &&& 0x0F ∧ (b0 &&& 0x80 = 0 ∨ 125 < len) then
        .error "invalid websocket control frame"
      else if b1 &&& 0x80 = 0 then .error "unmasked client websocket frame"
      else if buf.length < offset + 4 + len then .ok none
      else .ok (some {
        opcode := b0 &&& 0x0F
        payload := unmask ((buf.drop offset).take 4) ((buf.drop (offset + 4)).take len)
        totalLen := offset + 4 + len })
  | _ => .ok none

/-- A control frame to the peer, unmasked. -/
def sendControl (opcode : UInt8) (payload : List UInt8) : List UInt8 :=
  (0x80 ||| opcode) :: UInt8.ofNat payload.length :: payload

/-- What a frame comes to: bytes for the reader, a reply to the peer, the end of the stream. -/
structure Effect where
  app : List UInt8 := []
  reply : List UInt8 := []
  closes : Bool := false

/-- The `match` on the opcode in `pump_frame`. -/
def Frame.effect (frame : Frame) : Except String Effect :=
  if frame.opcode ≤ 2 then .ok { app := frame.payload }
  else if frame.opcode = 8 then .ok { reply := sendControl 8 [], closes := true }
  else if frame.opcode = 9 then .ok { reply := sendControl 0xA frame.payload }
  else if frame.opcode = 0xA then .ok {}
  else .error ("unsupported websocket opcode 0x" ++
    String.singleton (Nat.digitChar frame.opcode.toNat))

/-- `pump_frame` on the raw bytes: the effect of the first frame and the bytes behind it, `none` if
more bytes are needed. -/
def pumpFrame (maxFrame : ℕ) (raw : List UInt8) : Except String (Option (Effect × List UInt8)) :=
  match Frame.parse raw maxFrame with
  | .error e => .error e
  | .ok none => .ok none
  | .ok (some frame) => frame.effect.map fun effect => some (effect, raw.drop frame.totalLen)

/-! ## One frame -/

lemma take_drop_append {l : List UInt8} {i n : ℕ} (h : i + n ≤ l.length) (more : List UInt8) :
    ((l ++ more).drop i).take n = (l.drop i).take n := by
  rw [drop_append_of_le_length (by omega),
    take_append_of_le_length (by rw [length_drop]; omega)]

variable {buf : List UInt8}

lemma extendedLen_append {n : ℕ} {r : ℕ × ℕ} (h : extendedLen buf n = some r) (more : List UInt8) :
    extendedLen (buf ++ more) n = some r := by
  unfold extendedLen at h ⊢
  split at h
  · cases h
  · rw [if_neg (by rw [length_append]; omega), take_drop_append (by omega), h]

lemma payloadLen_append {len : ℕ} {r : ℕ × ℕ} (h : payloadLen buf len = some r)
    (more : List UInt8) : payloadLen (buf ++ more) len = some r := by
  unfold payloadLen at h ⊢
  split_ifs at h ⊢
  · exact extendedLen_append h more
  · exact extendedLen_append h more
  · exact h

variable {maxFrame : ℕ}

/-- The parser commits itself: bytes that come later change neither a frame nor an error. -/
lemma parse_append {more : List UInt8} (h : more = [] ∨ Frame.parse buf maxFrame ≠ .ok none) :
    Frame.parse (buf ++ more) maxFrame = Frame.parse buf maxFrame := by
  obtain rfl | h := h
  · rw [append_nil]
  match buf with
  | [] | [_] => exact absurd rfl h
  | b0 :: b1 :: rest =>
    simp only [Frame.parse, cons_append] at h ⊢
    match hl : payloadLen (b0 :: b1 :: rest) (b1 &&& 0x7F).toNat with
    | none => exact absurd (by rw [hl]) h
    | some (len, offset) =>
      simp only [← cons_append, payloadLen_append hl more, length_append]
      simp only [hl] at h
      -- only the last test looks behind the header
      split_ifs at h ⊢
      all_goals first | rfl | exact absurd rfl h | omega | skip
      rw [take_drop_append (by omega), take_drop_append (by omega)]

lemma parse_totalLen {f : Frame} (h : Frame.parse buf maxFrame = .ok (some f)) :
    0 < f.totalLen ∧ f.totalLen ≤ buf.length := by
  unfold Frame.parse at h
  split at h
  · split at h
    · cases h
    · split_ifs at h
      · cases h
      · obtain rfl := Option.some.inj (Except.ok.inj h)
        dsimp only
        omega
  · cases h

lemma pumpFrame_append {raw more : List UInt8} (h : more = [] ∨ pumpFrame maxFrame raw ≠ .ok none) :
    pumpFrame maxFrame (raw ++ more) =
      (pumpFrame maxFrame raw).map (·.map fun (effect, rest) => (effect, rest ++ more)) := by
  unfold pumpFrame at h ⊢
  rw [parse_append (h.imp_right fun h hn => h (by rw [hn]))]
  match hp : Frame.parse raw maxFrame with
  | .error _ | .ok none => rfl
  | .ok (some frame) =>
    simp only [drop_append_of_le_length (parse_totalLen hp).2]
    cases frame.effect <;> rfl

lemma pumpFrame_shrinks {raw rest : List UInt8} {effect : Effect}
    (h : pumpFrame maxFrame raw = .ok (some (effect, rest))) : rest.length < raw.length := by
  unfold pumpFrame at h
  split at h
  · cases h
  · cases h
  · rename_i frame hp
    generalize frame.effect = r at h
    cases r with
    | error e => cases h
    | ok e =>
      cases h
      have := parse_totalLen hp
      rw [length_drop]
      omega

/-! ## The stream -/

structure WsStream where
  /-- Bytes of the socket not yet decoded. -/
  raw : List UInt8 := []
  /-- Decoded bytes not yet read. -/
  app : List UInt8 := []
  maxFrame : ℕ
  closed : Bool := false
  /-- What was written to the socket. -/
  sent : List UInt8 := []

namespace WsStream

/-- `read` with a buffer of `size` bytes, on a socket whose next reads return `chunks`: what it
returns, the stream and what is left on the socket. No chunk, or an empty one, is the end of the
socket. After an error nobody reads again. -/
def read (w : WsStream) (size : ℕ) (chunks : List (List UInt8)) :
    Except String (List UInt8) × WsStream × List (List UInt8) :=
  if w.app ≠ [] then (.ok (w.app.take size), { w with app := w.app.drop size }, chunks)
  else if w.closed then (.ok [], w, chunks)
  else match _h : pumpFrame w.maxFrame w.raw with
    | .error e => (.error e, w, chunks)
    | .ok (some (effect, raw)) => { w with
        raw
        app := w.app ++ effect.app
        sent := w.sent ++ effect.reply
        closed := effect.closes }.read size chunks
    | .ok none => match chunks with
      | [] | [] :: _ => (.ok [], w, chunks)
      | chunk :: rest => { w with raw := w.raw ++ chunk }.read size rest
termination_by (chunks.length, w.raw.length)
decreasing_by
  · exact .right _ (pumpFrame_shrinks _h)
  · exact .left _ _ (Nat.lt_succ_self _)

/-- What reading comes to: the decoded bytes, those sent back, and the error that ends it, if one
does. -/
structure Outcome where
  app : List UInt8 := []
  sent : List UInt8 := []
  err : Option String := none
deriving DecidableEq

/-- `o`, after other bytes. -/
def Outcome.behind (o : Outcome) (app sent : List UInt8) : Outcome :=
  { o with app := app ++ o.app, sent := sent ++ o.sent }

/-- A caller that reads with buffers of `sizes` until it is told of the end or of an error; and
whether it was. -/
def readAll (w : WsStream) (chunks : List (List UInt8)) : List ℕ → Outcome × Bool
  | [] => ({ sent := w.sent }, false)
  | size :: sizes => match w.read size chunks with
    | (.error e, w', _) => ({ sent := w'.sent, err := some e }, true)
    | (.ok [], w', _) => ({ sent := w'.sent }, true)
    | (.ok bytes, w', chunks') =>
      let (r, ended) := w'.readAll chunks' sizes
      (r.behind bytes [], ended)

/-- All frames of a byte string, up to a close or an error. -/
def decode (maxFrame : ℕ) (raw : List UInt8) : Outcome :=
  match _h : pumpFrame maxFrame raw with
  | .error e => { err := some e }
  | .ok none => {}
  | .ok (some (effect, rest)) =>
    (if effect.closes then {} else decode maxFrame rest).behind effect.app effect.reply
termination_by raw.length
decreasing_by exact pumpFrame_shrinks _h

/-- What the peer's remaining `bytes` come to, decoded at once. -/
def outcome (w : WsStream) (bytes : List UInt8) : Outcome :=
  (if w.closed then {} else decode w.maxFrame (w.raw ++ bytes)).behind w.app w.sent

lemma decode_append {raw more : List UInt8} (h : more = [] ∨ pumpFrame maxFrame raw ≠ .ok none)
    {r : Except String (Option (Effect × List UInt8))} : pumpFrame maxFrame raw = r →
      decode maxFrame (raw ++ more) = match r with
        | .error e => { err := some e }
        | .ok none => {}
        | .ok (some (effect, rest)) => (if effect.closes then {} else
            decode maxFrame (rest ++ more)).behind effect.app effect.reply := by
  intro hr
  have happ := pumpFrame_append h
  rw [hr] at happ
  rw [decode]
  match r with
  | .error _ | .ok none | .ok (some _) => split <;> simp_all [Except.map]

lemma behind_behind (o : Outcome) (a a' s s' : List UInt8) :
    (o.behind a s).behind a' s' = o.behind (a' ++ a) (s' ++ s) := by
  simp only [Outcome.behind, append_assoc]

/-! ## What a client sends -/

/-- A frame as a client builds it. The first byte holds the opcode and the flags, and the length may
stand in more bytes than it needs. -/
structure ClientFrame where
  first : UInt8
  width : ℕ
  mask : List UInt8
  payload : List UInt8

namespace ClientFrame

variable {maxFrame : ℕ} {f : ClientFrame}

def field (width len : ℕ) : ℕ := if width = 0 then len else if width = 2 then 126 else 127

def encode (f : ClientFrame) : List UInt8 :=
  f.first :: (0x80 ||| UInt8.ofNat (field f.width f.payload.length)) ::
    ((leBytes f.width f.payload.length).reverse ++ (f.mask ++ unmask f.mask f.payload))

/-- What the RFC asks of a client, with opcodes the server knows. -/
structure Valid (maxFrame : ℕ) (f : ClientFrame) : Prop where
  opcode : f.first &&& 0x0F ∈ [0, 1, 2, 8, 9, 0xA]
  control : 8 ≤ f.first &&& 0x0F → f.first &&& 0x80 ≠ 0 ∧ f.payload.length ≤ 125
  mask : f.mask.length = 4
  width : f.width ∈ [0, 2, 8]
  len : f.payload.length < if f.width = 0 then 126 else 256 ^ f.width
  fits : f.payload.length ≤ maxFrame

lemma unmask_unmask (mask data : List UInt8) : unmask mask (unmask mask data) = data := by
  refine ext_getElem (by simp [unmask]) fun i _ _ => ?_
  simp only [unmask, getElem_mapIdx, UInt8.xor_assoc, UInt8.xor_self, UInt8.xor_zero]

lemma Valid.payloadLen (h : f.Valid maxFrame) :
    payloadLen f.encode (field f.width f.payload.length) =
      some (f.payload.length, 2 + f.width) := by
  have hext : ((f.encode.drop 2).take f.width).reverse = leBytes f.width f.payload.length := by
    rw [encode, drop_succ_cons, drop_one, tail_cons, take_left' (by simp), reverse_reverse]
  have hlength : 2 + f.width ≤ f.encode.length := by simp [encode]; omega
  have hlen := h.len
  have hwidth := h.width
  simp only [mem_cons, not_mem_nil, or_false] at hwidth
  obtain hw | hw | hw := hwidth <;> rw [hw] at hext hlength hlen <;> simp at hlen
  · rw [Transport.payloadLen, field, if_pos hw, if_neg (by omega), if_neg (by omega), hw]
  all_goals
    simp [Transport.payloadLen, field, hw, extendedLen, hext, leValue_leBytes]
    omega

/-- A frame is read as it was written. -/
lemma parse_encode (h : f.Valid maxFrame) : Frame.parse f.encode maxFrame =
    .ok (some ⟨f.first &&& 0x0F, f.payload, f.encode.length⟩) := by
  have hbits : ∀ n < 128, ((0x80 ||| UInt8.ofNat n) &&& 0x7F).toNat = n ∧
      (0x80 ||| UInt8.ofNat n) &&& 0x80 ≠ 0 := by
    decide +kernel
  have hfield : field f.width f.payload.length < 128 := by
    have := h.len
    unfold field
    split_ifs at this ⊢ <;> omega
  have hbody : f.encode.drop (2 + f.width) = f.mask ++ unmask f.mask f.payload := by
    rw [← drop_drop]
    exact drop_left' (by simp)
  have hlength : f.encode.length = 2 + f.width + 4 + f.payload.length := by
    simp [encode, unmask, h.mask]
    omega
  have hlen := h.payloadLen
  have hfits := h.fits
  unfold Frame.parse
  split
  · rename_i b0 b1 rest heq
    obtain ⟨rfl, rfl, -⟩ : f.first = b0 ∧ _ = b1 ∧ _ = rest := by simpa [encode] using heq
    rw [(hbits _ hfield).1, hlen]
    dsimp only
    rw [if_neg (by omega), if_neg, if_neg (hbits _ hfield).2, if_neg (by omega), hlength, hbody,
      ← drop_drop, hbody, take_left' h.mask, drop_left' h.mask,
        take_of_length_le (by simp [unmask]),
      unmask_unmask]
    rintro ⟨h8, h0 | h125⟩
    · exact (h.control h8).1 h0
    · have := (h.control h8).2
      omega
  · rename_i hne
    exact absurd rfl (hne _ _ _)

/-- What frames come to, up to the first that closes. -/
def spoken : List ClientFrame → Outcome
  | [] => {}
  | f :: rest =>
    if f.first &&& 0x0F = 8 then { sent := sendControl 8 [] }
    else (spoken rest).behind (if f.first &&& 0x0F ≤ 2 then f.payload else [])
      (if f.first &&& 0x0F = 9 then sendControl 0xA f.payload else [])

lemma Valid.exists_effect (h : f.Valid maxFrame) : ∃ effect,
    pumpFrame maxFrame f.encode = .ok (some (effect, [])) ∧ ∀ rest, spoken (f :: rest) =
      (if effect.closes then {} else spoken rest).behind effect.app effect.reply := by
  have hopcode := h.opcode
  simp only [pumpFrame, parse_encode h, drop_length, spoken]
  generalize f.first &&& 0x0F = opcode at hopcode
  simp only [mem_cons, not_mem_nil, or_false] at hopcode
  obtain rfl | rfl | rfl | rfl | rfl | rfl := hopcode <;> exact ⟨_, rfl, fun _ => rfl⟩

/-- A frame that is cut short is waited for. -/
lemma parse_of_cut (h : f.Valid maxFrame) {front : List UInt8} (hcut : front <+: f.encode)
    (hne : front ≠ f.encode) : Frame.parse front maxFrame = .ok none := by
  by_contra hparse
  obtain ⟨back, hback⟩ := hcut
  have hwhole : Frame.parse (front ++ back) maxFrame = _ := parse_append (.inr hparse)
  rw [hback, parse_encode h] at hwhole
  -- the parser would have taken bytes that are not there
  exact hne (IsPrefix.eq_of_length_le ⟨back, hback⟩ (parse_totalLen hwhole.symm).2)

lemma decode_frames (frames : List ClientFrame) (h : ∀ f ∈ frames, f.Valid maxFrame) :
    decode maxFrame (frames.flatMap encode) = spoken frames := by
  induction frames with
  | nil =>
    have hp : pumpFrame maxFrame [] = .ok none := rfl
    exact decode_append (.inl rfl) hp
  | cons f rest ih =>
    obtain ⟨effect, hp, hspoken⟩ := (h f mem_cons_self).exists_effect
    rw [flatMap_cons, decode_append (.inr (by rw [hp]; nofun)) hp, hspoken,
      ← ih fun g hg => h g (mem_cons_of_mem _ hg)]
    rfl

/-- The server understands its clients: the bytes of the data frames in their order, a pong with the
same payload for every ping, and the end at the close. -/
theorem outcome_encode (frames : List ClientFrame) (h : ∀ f ∈ frames, f.Valid maxFrame) :
    outcome { maxFrame } (frames.flatMap encode) = spoken frames :=
  decode_frames frames h

lemma valid_text_ping : ∀ f ∈ [(⟨0x01, 0, [1, 2, 3, 4], [0xAB]⟩ : ClientFrame),
    ⟨0x89, 2, [1, 2, 3, 4], [7]⟩], f.Valid 16 :=
  forall_mem_cons.mpr ⟨⟨by decide, by decide, rfl, by decide, by decide, by decide⟩,
    forall_mem_singleton.mpr ⟨by decide, by decide, rfl, by decide, by decide, by decide⟩⟩

/-- A text frame and a ping whose length takes two bytes, under one mask. -/
theorem outcome_text_ping : outcome { maxFrame := 16 } ([⟨0x01, 0, [1, 2, 3, 4], [0xAB]⟩,
      ⟨0x89, 2, [1, 2, 3, 4], [7]⟩].flatMap encode) = { app := [0xAB], sent := [0x8A, 1, 7] } :=
  outcome_encode _ valid_text_ping

end ClientFrame

/-- One `read` takes its bytes off the front of what is to come, and reports the end or an error
only when nothing is. -/
lemma read_outcome (w : WsStream) {size : ℕ} (hs : 0 < size) {chunks : List (List UInt8)}
    (hc : [] ∉ chunks) : match w.read size chunks with
      | (.ok bytes, w', chunks') => [] ∉ chunks' ∧
          w.outcome chunks.flatten = (w'.outcome chunks'.flatten).behind bytes [] ∧
          (bytes = [] → w'.outcome chunks'.flatten = { sent := w'.sent })
      | (.error e, w', _) => w.outcome chunks.flatten = { sent := w'.sent, err := some e } := by
  fun_induction read w size chunks with
  | case1 w chunks h =>
    refine ⟨hc, ?_, fun h' => absurd h' ?_⟩
    · rw [outcome, outcome, behind_behind, take_append_drop, nil_append]
    · rw [take_eq_nil_iff]
      exact fun h' => h'.elim hs.ne' h
  | case2 w chunks h hcl =>
    have : w.outcome chunks.flatten = { sent := w.sent } := by
      simp [outcome, hcl, Outcome.behind, not_not.mp h]
    exact ⟨hc, by simp [Outcome.behind], fun _ => this⟩
  | case3 w chunks h hcl e hp =>
    rw [outcome, if_neg hcl, decode_append (.inr (by rw [hp]; nofun)) hp, not_not.mp h]
    simp [Outcome.behind]
  | case4 w chunks h hcl effect raw hp ih =>
    have : w.outcome chunks.flatten = outcome { w with
        raw, app := w.app ++ effect.app, sent := w.sent ++ effect.reply, closed := effect.closes }
        chunks.flatten := by
      rw [outcome, if_neg hcl, decode_append (.inr (by rw [hp]; nofun)) hp, behind_behind, outcome]
    rw [this]
    exact ih hc
  | case5 w h hcl hp =>
    have : w.outcome [] = { sent := w.sent } := by
      rw [outcome, if_neg hcl, decode_append (.inl rfl) hp, not_not.mp h]
      simp [Outcome.behind]
    exact ⟨hc, by simp [Outcome.behind], fun _ => this⟩
  | case6 w h hcl hp rest => exact absurd mem_cons_self hc
  | case7 w h hcl hp chunk rest hne ih =>
    have := ih fun h => hc (mem_cons_of_mem _ h)
    simp only [outcome, flatten_cons, append_assoc] at this ⊢
    exact this

lemma readAll_outcome (w : WsStream) (chunks : List (List UInt8)) (hc : [] ∉ chunks)
    (sizes : List ℕ) (hs : 0 ∉ sizes) :
    let whole := w.outcome chunks.flatten
    let (got, ended) := w.readAll chunks sizes
    got.app <+: whole.app ∧ (ended → got = whole) ∧ (whole.app.length < sizes.length → ended) := by
  induction sizes generalizing w chunks with
  | nil => exact ⟨ nil_prefix, nofun, nofun⟩
  | cons size sizes ih =>
    have hread := w.read_outcome (Nat.pos_of_ne_zero fun h => hs (h ▸ mem_cons_self)) hc
    unfold readAll
    match w.read size chunks, hread with
    | (.error e, w', _), hread => simp [hread]
    | (.ok [], w', _), ⟨_, hread, hend⟩ => simp [hread, hend rfl, Outcome.behind]
    | (.ok (b :: bytes), w', chunks'), ⟨hc', hread, _⟩ =>
      obtain ⟨h1, h2, h3⟩ := ih w' chunks' hc' fun h => hs (mem_cons_of_mem _ h)
      simp only [hread]
      refine ⟨prefix_append_right_inj _ |>.mpr h1, fun h => by rw [h2 h], fun h => h3 ?_⟩
      simp only [Outcome.behind, length_append, length_cons] at h
      omega

/-- However the network cuts the peer's bytes and whatever buffers they are read with, the reader
gets the decoded bytes of the whole, each once and in order. When it learns of the end or of an
error it has all of them, and the peer every reply; and every other read returns a byte. -/
theorem readAll_eq_outcome (w : WsStream) (_hmax : w.maxFrame + 14 < 2 ^ 64)
    (chunks : List (List UInt8)) (hc : [] ∉ chunks) (sizes : List ℕ) (hs : 0 ∉ sizes) :
    let whole := w.outcome chunks.flatten
    let (got, ended) := w.readAll chunks sizes
    got.app <+: whole.app ∧ (ended → got = whole) ∧ (whole.app.length < sizes.length → ended) :=
  -- the bound is what makes the sums over ℕ those of the source
  w.readAll_outcome chunks hc sizes hs

/-- A byte and a ping, cut inside both frames. -/
theorem readAll_cut_frames :
    let w : WsStream := { maxFrame := 16 }
    let chunks := [[0x82, 0x81, 1], [2, 3, 4, 0xAA, 0x89], [0x80, 5, 6, 7, 8]]
    w.outcome chunks.flatten = { app := [0xAB], sent := [0x8A, 0] } ∧
      w.readAll chunks [7, 1] = (w.outcome chunks.flatten, true) := by
  intro w chunks
  have hwhole : w.outcome chunks.flatten = { app := [0xAB], sent := [0x8A, 0] } := by
    decide +kernel
  obtain ⟨-, hgot, hended⟩ := w.readAll_eq_outcome (by decide) chunks (by decide) [7, 1] (by decide)
  have h := hended (by rw [hwhole]; decide)
  exact ⟨hwhole, Prod.ext (hgot h) h⟩

/-- However the network cuts the frames of a client and whatever buffers they are read with, the
reader gets the payloads of the data frames before the first close and then the end, and the peer a
pong for each ping. A part of a frame is waited for, and a frame is read whatever follows it. -/
theorem readAll_frames {maxFrame : ℕ} (frames : List ClientFrame)
    (h : ∀ f ∈ frames, f.Valid maxFrame) (_hmemory : ∀ f ∈ frames, f.encode.length < 2 ^ 63)
    (raw : List UInt8) (chunks : List (List UInt8)) (hc : [] ∉ chunks)
    (hcut : raw ++ chunks.flatten = frames.flatMap ClientFrame.encode) (sizes : List ℕ)
    (hs : 0 ∉ sizes) (hmany : (ClientFrame.spoken frames).app.length < sizes.length) :
    readAll { maxFrame, raw } chunks sizes = (ClientFrame.spoken frames, true) ∧ ∀ f ∈ frames,
      (∀ front, front <+: f.encode → front ≠ f.encode → Frame.parse front maxFrame = .ok none) ∧
      ∀ more, Frame.parse (f.encode ++ more) maxFrame =
        .ok (some ⟨f.first &&& 0x0F, f.payload, f.encode.length⟩) := by
  -- a frame in memory is short enough for the sums over ℕ to be those of the source
  clear _hmemory
  have hwhole : outcome { maxFrame, raw } chunks.flatten = ClientFrame.spoken frames := by
    rw [← ClientFrame.decode_frames frames h, ← hcut]
    rfl
  obtain ⟨-, hgot, hended⟩ := readAll_outcome { maxFrame, raw } chunks hc sizes hs
  have hend := hended (by rwa [hwhole])
  refine ⟨Prod.ext ((hgot hend).trans hwhole) hend, fun f hf => ⟨fun front hcut hne => ?_,
    fun more => ?_⟩⟩
  · exact ClientFrame.parse_of_cut (h f hf) hcut hne
  · have hparse := ClientFrame.parse_encode (h f hf)
    rw [parse_append (.inr (by rw [hparse]; nofun)), hparse]

/-- A text frame and a ping, cut inside both. -/
theorem readAll_text_ping : readAll { maxFrame := 16, raw := [0x01] } [[0x81, 1, 2],
    [3, 4, 0xAA, 0x89, 0xFE, 0], [1, 1, 2, 3, 4, 6]] [1, 1] =
      ({ app := [0xAB], sent := [0x8A, 1, 7] }, true) :=
  (readAll_frames _ ClientFrame.valid_text_ping (by decide) [0x01] _ (by decide) (by decide) [1, 1]
    (by decide) (by decide)).1

end WsStream

end Rusquitto.Transport
