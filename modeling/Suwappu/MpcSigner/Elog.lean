import Suwappu.MpcSigner.Ecdsa

/-!
# Proofs of discrete logarithms

`Pi_elog` proves that an ElGamal pair encrypts the discrete logarithm of a point to a given base.
-/

namespace Suwappu.MpcSigner.Presign

open Checked Ecdsa

def PI_ELOG_TAG : Bytes := ascii "suwappu/cggmp24/pi-elog/challenge/v1"
def PI_ELOG_STREAM_TAG : Bytes := ascii "suwappu/cggmp24/pi-elog/hash-stream/v1"

/-- What presigning needs beside the curve: the scalar and the integer that are drawn from the
hash stream of a seed, and the bytes of an integer. The integer is drawn from the range as
`sample_half_pm` does. -/
structure PresignCurve (q : ℕ) [Fact q.Prime] (G : Type) [AddCommGroup G] [Module (ZMod q) G]
    extends EcdsaCurve q G where
  scalarFromStream : Bytes32 → Bytes → ZMod q
  integerFromStream : Bytes32 → Bytes → ℕ → ℤ
  integerFromStream_le : ∀ seed tag range,
    (integerFromStream seed tag range).natAbs ≤ range / 2
  integerBytes : ℤ → Bytes

inductive PresignProofError where
  | ModulusTooSmall | InvalidStatement | InvalidWitness | InvalidPiEncElg
  | InvalidPiElogStatement | InvalidPiElogWitness | InvalidPiElog
  | InvalidPiAffStatement | InvalidPiAffWitness | InvalidPiAff | Paillier
deriving DecidableEq

inductive PiElogKind where
  | GammaShare | PresignatureConsistency
deriving DecidableEq

def PiElogKind.transcriptByte : PiElogKind → UInt8
  | .GammaShare              => 0
  | .PresignatureConsistency => 1

structure PiElogStatement (G : Type) where
  l : G
  m : G
  x : G
  y : G
  h : G

structure PiElogCommitment (G : Type) where
  a : G
  n : G
  b : G

structure PiElogProof (q : ℕ) (G : Type) where
  commitment : PiElogCommitment G
  z : ZMod q
  u : ZMod q

variable {q : ℕ} [Fact q.Prime] {G : Type} [AddCommGroup G] [Module (ZMod q) G] [DecidableEq G]
  (curve : PresignCurve q G)

/-- `transcript_point` -/
def transcriptPoint (point : G) : Except PresignProofError Bytes := do
  guard (point ≠ 0) .InvalidStatement
  return (curve.encode point).val

/-- The points of a transcript, one after the other. -/
def transcriptPoints : List G → Except PresignProofError Bytes
  | []              => .ok []
  | point :: points => do
    let bytes ← transcriptPoint curve point
    let rest ← transcriptPoints points
    return bytes ++ rest

def piElogChallenge (execution : ExecutionId) (prover : ParticipantId) (kind : PiElogKind)
    (statement : PiElogStatement G) (commitment : PiElogCommitment G) :
    Except PresignProofError (ZMod q) := do
  let points ← transcriptPoints curve [statement.l, statement.m, statement.x, statement.y,
    statement.h, commitment.a, commitment.n, commitment.b]
  let seed := curve.sha256 (PI_ELOG_TAG ++ execution.val ++ toBeBytes 2 prover.val ++
    [kind.transcriptByte] ++ points)
  return curve.scalarFromStream seed PI_ELOG_STREAM_TAG

def validatePiElogStatement (statement : PiElogStatement G) : Except PresignProofError Unit :=
  guard (statement.l ≠ 0 ∧ statement.m ≠ 0 ∧ statement.x ≠ 0 ∧ statement.y ≠ 0 ∧ statement.h ≠ 0)
    .InvalidPiElogStatement

def PiElogCommitment.IsValid (commitment : PiElogCommitment G) : Prop :=
  commitment.a ≠ 0 ∧ commitment.n ≠ 0 ∧ commitment.b ≠ 0

instance decidableIsValid (commitment : PiElogCommitment G) : Decidable commitment.IsValid :=
  inferInstanceAs (Decidable (_ ∧ _ ∧ _))

/-- The commitment to the draws `alpha` and `mask`. -/
def piElogCommitment (statement : PiElogStatement G) (alpha mask : ZMod q) :
    PiElogCommitment G where
  a := alpha • curve.generator
  n := mask • curve.generator + alpha • statement.x
  b := mask • statement.h

/-- The proof with the draws the loop ends with, whose commitment is valid. -/
def provePiElog (execution : ExecutionId) (prover : ParticipantId) (kind : PiElogKind)
    (statement : PiElogStatement G) (y lambda alpha mask : ZMod q) :
    Except PresignProofError (PiElogProof q G) := do
  validatePiElogStatement statement
  guard (lambda • curve.generator = statement.l ∧
    y • curve.generator + lambda • statement.x = statement.m ∧ y • statement.h = statement.y)
    .InvalidPiElogWitness
  let commitment := piElogCommitment curve statement alpha mask
  let challenge ← piElogChallenge curve execution prover kind statement commitment
  return ⟨commitment, alpha + challenge * lambda, mask + challenge * y⟩

def verifyPiElog (execution : ExecutionId) (prover : ParticipantId) (kind : PiElogKind)
    (statement : PiElogStatement G) (proof : PiElogProof q G) :
    Except PresignProofError Unit := do
  validatePiElogStatement statement
  guard proof.commitment.IsValid .InvalidPiElog
  let challenge ← piElogChallenge curve execution prover kind statement proof.commitment
  guard (proof.z • curve.generator = proof.commitment.a + challenge • statement.l ∧
    proof.u • curve.generator + proof.z • statement.x =
      proof.commitment.n + challenge • statement.m ∧
    proof.u • statement.h = proof.commitment.b + challenge • statement.y) .InvalidPiElog

end Suwappu.MpcSigner.Presign
