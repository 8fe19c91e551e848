import Mathlib
import Suwappu.Lib.Checked
import Suwappu.Lib.PrimeGroup
import Suwappu.MpcSigner.Bytes

/-!
# secp256k1

The curve and the hash come from libraries and are parameters of the protocols over them.
-/

namespace Suwappu.MpcSigner

/-- The curve with its compressed encoding of points, and SHA-256. -/
structure Secp256k1 (q : ℕ) [Fact q.Prime] (G : Type) [AddCommGroup G] [Module (ZMod q) G]
    extends PrimeGroup q G where
  encode : G → Bytes33
  encode_inj : ∀ P Q, P ≠ 0 → Q ≠ 0 → encode P = encode Q → P = Q
  sha256 : Bytes → Bytes32

/-- `reduce_bytes` -/
def reduceBytes {q : ℕ} (bytes : Bytes32) : ZMod q := ofBeBytes bytes.val

/-- A participant, one of 1, 2 and 3. -/
abbrev ParticipantId := { n : ℕ // 1 ≤ n ∧ n ≤ 3 }

def ParticipantId.scalar {q : ℕ} (id : ParticipantId) : ZMod q := id.val

/-- The place of a participant in an array. -/
def ParticipantId.index (id : ParticipantId) : Fin 3 := ⟨id.val - 1, by grind⟩

/-- The participant of a place. -/
def ParticipantId.ofIndex (i : Fin 3) : ParticipantId := ⟨i.val + 1, by omega⟩

@[simp] lemma ParticipantId.ofIndex_index (id : ParticipantId) : ofIndex id.index = id :=
  Subtype.ext (Nat.sub_add_cancel id.property.1)

/-- Participants are different scalars. -/
lemma ParticipantId.scalar_injective {q : ℕ} (hq : 3 < q) :
    Function.Injective (ParticipantId.scalar (q := q)) := by
  intro a b h
  have h' : a.val % q = b.val % q := (ZMod.natCast_eq_natCast_iff' _ _ _).mp h
  rw [Nat.mod_eq_of_lt (a.property.2.trans_lt hq), Nat.mod_eq_of_lt (b.property.2.trans_lt hq)]
    at h'
  exact Subtype.ext h'

/-- An execution ID, a digest of what the caller supplies. -/
abbrev ExecutionId := Bytes32

end Suwappu.MpcSigner
