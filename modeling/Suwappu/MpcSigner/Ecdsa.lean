import Suwappu.MpcSigner.Dkg

/-!
# Threshold ECDSA

A pair of signers turns its shares of the key into additive ones. A presignature commits both
signers to their halves of the inverse nonce and of the key divided by the nonce; each of them
answers a message with a partial signature, which is checked against its commitments before the two
are added up.
-/

namespace Suwappu.MpcSigner.Ecdsa

open Checked

inductive EcdsaError where
  | InvalidSigningSet | KeyNotInSigningSet | DkgInvariant | PresignatureMismatch
  | InvalidPartialSet | InvalidSignature | RecoveryFailure
  | InvalidPartialSignature (id : ParticipantId)
deriving DecidableEq

/-- What ECDSA needs of the curve: the x-coordinate of a point, which a point shares with its
negative, and the half of the scalars that is high. -/
structure EcdsaCurve (q : ℕ) [Fact q.Prime] (G : Type) [AddCommGroup G] [Module (ZMod q) G]
    extends Secp256k1 q G where
  xCoordinate : G → Bytes32
  xCoordinate_neg : ∀ P, xCoordinate (-P) = xCoordinate P
  isHigh : ZMod q → Bool
  isHigh_neg : ∀ s, isHigh s = true → isHigh (-s) = false
  keccak256 : Bytes → Bytes32
  trialRecovery : G → Bytes32 → ZMod q → ZMod q → Option (Fin 4)

/-- `[ParticipantId; 2]` -/
abbrev SigningPair := Fin 2 → ParticipantId

structure AdditiveSigningShare (q : ℕ) (G : Type) where
  identifier : ParticipantId
  signingPair : SigningPair
  secretShare : ZMod q
  publicShare : G
  groupPublicKey : G

structure PresignatureCommitment (G : Type) where
  identifier : ParticipantId
  deltaTilde : G
  sTilde : G
deriving DecidableEq

structure PresignaturePublic (G : Type) where
  execution : Bytes32
  signingPair : SigningPair
  gamma : G
  commitments : Fin 2 → PresignatureCommitment G
  groupPublicKey : G
deriving DecidableEq

structure PresignatureShare (q : ℕ) where
  execution : Bytes32
  identifier : ParticipantId
  kTilde : ZMod q
  chiTilde : ZMod q
deriving DecidableEq

structure PartialSignature (q : ℕ) where
  execution : Bytes32
  identifier : ParticipantId
  r : ZMod q
  sigma : ZMod q

structure ThresholdSignature (q : ℕ) where
  r : ZMod q
  s : ZMod q
  recoveryId : Fin 4

variable {q : ℕ} [Fact q.Prime] {G : Type} [AddCommGroup G] [Module (ZMod q) G] [DecidableEq G]

/-! ### Additive shares -/

def validateSigningPair (pair : SigningPair) : Except EcdsaError Unit :=
  guard ((pair 0).val < (pair 1).val) .InvalidSigningSet

/-- The other signer of a pair. -/
def otherOf (pair : SigningPair) (identifier : ParticipantId) : ParticipantId :=
  if pair 0 = identifier then pair 1 else pair 0

def toAdditiveSigningShare (curve : Secp256k1 q G) (key : Dkg.KeyPackage q G)
    (signingPair : SigningPair) : Except EcdsaError (AdditiveSigningShare q G) := do
  validateSigningPair signingPair
  let identifier := key.identifier
  guard (∃ i, signingPair i = identifier) .KeyNotInSigningSet
  let other := otherOf signingPair identifier
  let denominator : ZMod q := other.scalar - identifier.scalar
  let lambda := other.scalar * denominator⁻¹
  let secretShare := key.signingShare * lambda
  let publicShare := lambda • key.verificationShares identifier.index
  guard (secretShare • curve.generator = publicShare) .DkgInvariant
  return {
    identifier := identifier
    signingPair := signingPair
    secretShare := secretShare
    publicShare := publicShare
    groupPublicKey := key.groupPublicKey }

/-! ### Presignatures -/

def validatePresignaturePublic (presignature : PresignaturePublic G) : Except EcdsaError Unit := do
  validateSigningPair presignature.signingPair
  guard (presignature.gamma ≠ 0 ∧ presignature.groupPublicKey ≠ 0) .PresignatureMismatch
  guard (∀ i, (presignature.commitments i).identifier = presignature.signingPair i ∧
    (presignature.commitments i).deltaTilde ≠ 0 ∧ (presignature.commitments i).sTilde ≠ 0)
    .PresignatureMismatch

/-- The commitment of a signer. -/
def PresignaturePublic.commitmentOf (presignature : PresignaturePublic G)
    (identifier : ParticipantId) : Except EcdsaError (PresignatureCommitment G) :=
  if (presignature.commitments 0).identifier = identifier then .ok (presignature.commitments 0)
  else if (presignature.commitments 1).identifier = identifier then
    .ok (presignature.commitments 1)
  else .error .PresignatureMismatch

def assembleVerifiedPresignature (execution : Bytes32) (identifier : ParticipantId)
    (signingPair : SigningPair) (gamma : G) (commitments : Fin 2 → PresignatureCommitment G)
    (groupPublicKey : G) (kTilde chiTilde : ZMod q) :
    Except EcdsaError (PresignaturePublic G × PresignatureShare q) := do
  let presignature : PresignaturePublic G :=
    ⟨execution, signingPair, gamma, commitments, groupPublicKey⟩
  validatePresignaturePublic presignature
  let commitment ← presignature.commitmentOf identifier
  guard (kTilde • gamma = commitment.deltaTilde ∧ chiTilde • gamma = commitment.sTilde)
    .PresignatureMismatch
  return (presignature, ⟨execution, identifier, kTilde, chiTilde⟩)

/-! ### Partial signatures -/

/-- A digest whose preimage is known: one that has been hashed here. -/
structure KnownMessageDigest where
  prehash : Bytes32

def KnownMessageDigest.sha256 (curve : EcdsaCurve q G) (message : Bytes) : KnownMessageDigest :=
  ⟨curve.sha256 message⟩

def KnownMessageDigest.keccak256 (curve : EcdsaCurve q G) (message : Bytes) :
    KnownMessageDigest :=
  ⟨curve.keccak256 message⟩

variable (curve : EcdsaCurve q G)

def xCoordinateToScalar (point : G) : Except EcdsaError (ZMod q) := do
  guard (point ≠ 0) .PresignatureMismatch
  return reduceBytes (curve.xCoordinate point)

def issuePartialSignature (share : PresignatureShare q) (presignature : PresignaturePublic G)
    (message : KnownMessageDigest) : Except EcdsaError (PartialSignature q) := do
  validatePresignaturePublic presignature
  guard (share.execution = presignature.execution ∧
    ∃ i, presignature.signingPair i = share.identifier) .PresignatureMismatch
  let commitment ← presignature.commitmentOf share.identifier
  guard (share.kTilde • presignature.gamma = commitment.deltaTilde ∧
    share.chiTilde • presignature.gamma = commitment.sTilde) .PresignatureMismatch
  let r ← xCoordinateToScalar curve presignature.gamma
  let m : ZMod q := reduceBytes message.prehash
  let sigma := share.kTilde * m + r * share.chiTilde
  guard (sigma ≠ 0) .InvalidSignature
  return ⟨presignature.execution, share.identifier, r, sigma⟩

/-- The check of the partial signature at `index` before it is added. -/
def checkPartial (presignature : PresignaturePublic G) (m r : ZMod q) (index : Fin 2)
    (partialSignature : PartialSignature q) : Except EcdsaError Unit := do
  let expectedId := presignature.signingPair index
  guard (partialSignature.execution = presignature.execution ∧
    partialSignature.identifier = expectedId ∧ partialSignature.r = r) .InvalidPartialSet
  let commitment := presignature.commitments index
  guard (commitment.identifier = expectedId) .InvalidPartialSet
  guard (partialSignature.sigma • presignature.gamma =
    m • commitment.deltaTilde + r • commitment.sTilde) (.InvalidPartialSignature expectedId)

/-- Low-s ECDSA verification of a prehash, as the curve library does it. -/
def verifyPrehash (key : G) (prehash : Bytes32) (r s : ZMod q) : Bool :=
  let point := (reduceBytes prehash * s⁻¹) • curve.generator + (r * s⁻¹) • key
  r ≠ 0 && s ≠ 0 && !curve.isHigh s && reduceBytes (curve.xCoordinate point) = r

/-- `normalize_s` -/
def normalizeS (s : ZMod q) : ZMod q := if curve.isHigh s then -s else s

def aggregatePartialSignatures (presignature : PresignaturePublic G)
    (message : KnownMessageDigest) (partials : List (PartialSignature q)) :
    Except EcdsaError (ThresholdSignature q) := do
  validatePresignaturePublic presignature
  match partials with
  | [first, second] => do
    let r ← xCoordinateToScalar curve presignature.gamma
    let m : ZMod q := reduceBytes message.prehash
    checkPartial presignature m r 0 first
    checkPartial presignature m r 1 second
    let sigma := 0 + first.sigma + second.sigma
    guard (sigma ≠ 0 ∧ r ≠ 0) .InvalidSignature
    let s := normalizeS curve sigma
    guard (verifyPrehash curve presignature.groupPublicKey message.prehash r s) .InvalidSignature
    match curve.trialRecovery presignature.groupPublicKey message.prehash r s with
    | some recoveryId => .ok ⟨r, s, recoveryId⟩
    | none            => .error .RecoveryFailure
  | _ => .error .InvalidPartialSet

end Suwappu.MpcSigner.Ecdsa
