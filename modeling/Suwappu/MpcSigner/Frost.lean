import Mathlib.Tactic
import Suwappu.Lib.Checked
import Suwappu.Lib.PrimeGroup
import Suwappu.MpcSigner.Bytes

/-!
# FROST signing over Ed25519

Every signer of a commitment list answers a message with a share; `aggregate` checks the shares one
by one, adds them up and checks the signature before it returns it. The curve and the hash come
from libraries and are parameters here; the curve is taken as its subgroup of prime order, in which
every point is torsion free.
-/

namespace Suwappu.MpcSigner.Frost

open Checked Std

def CONTEXT : Bytes := ascii "FROST-ED25519-SHA512-v1"

/-- A nonzero `u16`. -/
abbrev ParticipantIdentifier := { n : ℕ // 0 < n ∧ n < 2 ^ 16 }

/-- The order of the identifiers as map keys. -/
def idCmp : ParticipantIdentifier → ParticipantIdentifier → Ordering := compareOn Subtype.val

instance transIdCmp : TransCmp idCmp := by
  unfold idCmp
  infer_instance

instance lawfulEqIdCmp : LawfulEqCmp idCmp where
  eq_of_compare h := Subtype.ext (LawfulEqOrd.eq_of_compare h)

inductive FrostError where
  | InvalidCommitmentList | InvalidElement | InvalidSignature | InvalidKeyPackage
  | CommitmentMismatch
  | MissingParticipant (id : ParticipantIdentifier)
  | InvalidSignatureShare (id : ParticipantIdentifier)
deriving DecidableEq

/-- The curve with its encodings, and the hash. -/
structure Suite (q : ℕ) [Fact q.Prime] (G : Type) [AddCommGroup G] [Module (ZMod q) G]
    extends PrimeGroup q G where
  compress : G → Bytes
  decompress : Bytes → Option G
  decompress_compress : ∀ P, decompress (compress P) = some P
  scalarToBytes : ZMod q → Bytes
  sha512 : Bytes → Bytes
  fromBytesModOrderWide : Bytes → ZMod q

variable {q : ℕ} [Fact q.Prime] {G : Type} [AddCommGroup G] [Module (ZMod q) G]

def ParticipantIdentifier.scalar (id : ParticipantIdentifier) : ZMod q := id.val

structure SigningCommitments (G : Type) where
  hidingPoint : G
  bindingPoint : G
deriving DecidableEq

/-- Nonces are drawn again until both are nonzero. -/
structure SigningNonces (q : ℕ) where
  hidingNonce : ZMod q
  bindingNonce : ZMod q
  hiding_ne : hidingNonce ≠ 0
  binding_ne : bindingNonce ≠ 0

structure ParticipantCommitment (G : Type) where
  identifier : ParticipantIdentifier
  commitments : SigningCommitments G
deriving DecidableEq

structure VerificationShare (G : Type) where
  identifier : ParticipantIdentifier
  point : G
deriving DecidableEq

structure SignatureShare (q : ℕ) where
  identifier : ParticipantIdentifier
  scalar : ZMod q
deriving DecidableEq

structure FrostSignature (q : ℕ) (G : Type) where
  commitment : G
  response : ZMod q
deriving DecidableEq

/-- A key package has been checked when it was made. -/
structure KeyPackage (suite : Suite q G) where
  identifier : ParticipantIdentifier
  signingShare : ZMod q
  verificationShare : VerificationShare G
  groupPublicKey : G
  identifier_eq : verificationShare.identifier = identifier
  share_ne : verificationShare.point ≠ 0
  key_ne : groupPublicKey ≠ 0
  share_eq : signingShare • suite.generator = verificationShare.point

namespace Suite

variable (suite : Suite q G)

/-! ### Hashes -/

def hashToScalar (parts : List Bytes) : ZMod q :=
  suite.fromBytesModOrderWide (suite.sha512 parts.flatten)

def h1 (message : Bytes) : ZMod q := suite.hashToScalar [CONTEXT, ascii "rho", message]

def h2 (message : Bytes) : ZMod q := suite.hashToScalar [message]

def h3 (randomness : Bytes) (secret : ZMod q) : ZMod q :=
  suite.hashToScalar [CONTEXT, ascii "nonce", randomness, suite.scalarToBytes secret]

def h4 (message : Bytes) : Bytes := suite.sha512 (CONTEXT ++ ascii "msg" ++ message)

def h5 (message : Bytes) : Bytes := suite.sha512 (CONTEXT ++ ascii "com" ++ message)

/-- `ParticipantIdentifier::serialize` -/
def serialize (id : ParticipantIdentifier) : Bytes := suite.scalarToBytes id.scalar

def computeChallenge (groupCommitment groupPublicKey : G) (message : Bytes) : ZMod q :=
  suite.h2 (suite.compress groupCommitment ++ suite.compress groupPublicKey ++ message)

/-- The commitments to a pair of nonces. -/
def commitTo (nonces : SigningNonces q) : SigningCommitments G where
  hidingPoint := nonces.hidingNonce • suite.generator
  bindingPoint := nonces.bindingNonce • suite.generator

def commitWithRandomness (signingShare : ZMod q) (hidingRandomness bindingRandomness : Bytes) :
    Option (SigningNonces q × SigningCommitments G) :=
  let hidingNonce := suite.h3 hidingRandomness signingShare
  let bindingNonce := suite.h3 bindingRandomness signingShare
  if h : hidingNonce ≠ 0 ∧ bindingNonce ≠ 0 then
    let nonces : SigningNonces q := ⟨hidingNonce, bindingNonce, h.1, h.2⟩
    some (nonces, suite.commitTo nonces)
  else none

variable [DecidableEq G]

/-! ### Checked values -/

def validateElement (point : G) : Except FrostError Unit := guard (point ≠ 0) .InvalidElement

def deserializeElement (encoded : Bytes) : Except FrostError G :=
  match suite.decompress encoded with
  | none       => .error .InvalidElement
  | some point => do
    guard (suite.compress point = encoded) .InvalidElement
    validateElement point
    return point

/-- `KeyPackage::from_scalars` -/
def keyPackageFromScalars (identifier : ParticipantIdentifier) (signingShare : ZMod q)
    (verificationShare groupPublicKey : G) : Except FrostError (KeyPackage suite) :=
  if hshare : verificationShare = 0 then .error .InvalidElement
  else if hkey : groupPublicKey = 0 then .error .InvalidElement
  else if h : signingShare • suite.generator = verificationShare then .ok {
    identifier := identifier
    signingShare := signingShare
    verificationShare := ⟨identifier, verificationShare⟩
    groupPublicKey := groupPublicKey
    identifier_eq := rfl
    share_ne := hshare
    key_ne := hkey
    share_eq := h }
  else .error .InvalidKeyPackage

/-! ### Commitment lists -/

/-- The loop of `validate_commitment_list`, after an entry of `prior` and those `seen`. -/
def validateEntries : Option ParticipantIdentifier → List ParticipantIdentifier →
    List (ParticipantCommitment G) → Except FrostError Unit
  | _, _, []                       => .ok ()
  | prior, seen, entry :: entries => do
    validateElement entry.commitments.hidingPoint
    validateElement entry.commitments.bindingPoint
    guard (∀ priorId ∈ prior, priorId.val < entry.identifier.val) .InvalidCommitmentList
    guard (entry.identifier ∉ seen) .InvalidCommitmentList
    validateEntries (some entry.identifier) (entry.identifier :: seen) entries

def validateCommitmentList (commitmentList : List (ParticipantCommitment G)) :
    Except FrostError Unit := do
  guard (2 ≤ commitmentList.length) .InvalidCommitmentList
  validateEntries none [] commitmentList

def encodeEntry (entry : ParticipantCommitment G) : Bytes :=
  suite.serialize entry.identifier ++ suite.compress entry.commitments.hidingPoint ++
    suite.compress entry.commitments.bindingPoint

def encodeCommitmentList (commitmentList : List (ParticipantCommitment G)) :
    Except FrostError Bytes := do
  validateCommitmentList commitmentList
  return commitmentList.flatMap suite.encodeEntry

/-- The entry of a participant. -/
def entryOf (commitmentList : List (ParticipantCommitment G)) (id : ParticipantIdentifier) :
    Except FrostError (ParticipantCommitment G) :=
  match commitmentList.find? fun entry => entry.identifier = id with
  | some entry => .ok entry
  | none       => .error (.MissingParticipant id)

def bindingFactorInput (groupPublicKey : G) (commitmentList : List (ParticipantCommitment G))
    (message : Bytes) (id : ParticipantIdentifier) : Except FrostError Bytes := do
  validateElement groupPublicKey
  guard (∃ entry ∈ commitmentList, entry.identifier = id) (.MissingParticipant id)
  let encodedCommitments ← suite.encodeCommitmentList commitmentList
  return suite.compress groupPublicKey ++ suite.h4 message ++ suite.h5 encodedCommitments ++
    suite.serialize id

def bindingFactor (groupPublicKey : G) (commitmentList : List (ParticipantCommitment G))
    (message : Bytes) (id : ParticipantIdentifier) : Except FrostError (ZMod q) := do
  let input ← suite.bindingFactorInput groupPublicKey commitmentList message id
  return suite.h1 input

/-- The loop of `compute_group_commitment` over the remaining `entries`. -/
def sumCommitments (groupPublicKey : G) (commitmentList : List (ParticipantCommitment G))
    (message : Bytes) : G → List (ParticipantCommitment G) → Except FrostError G
  | groupCommitment, []               => .ok groupCommitment
  | groupCommitment, entry :: entries => do
    let rho ← suite.bindingFactor groupPublicKey commitmentList message entry.identifier
    sumCommitments groupPublicKey commitmentList message
      (groupCommitment + (entry.commitments.hidingPoint + rho • entry.commitments.bindingPoint))
      entries

def computeGroupCommitment (groupPublicKey : G) (commitmentList : List (ParticipantCommitment G))
    (message : Bytes) : Except FrostError G := do
  validateCommitmentList commitmentList
  let groupCommitment ←
    suite.sumCommitments groupPublicKey commitmentList message 0 commitmentList
  validateElement groupCommitment
  return groupCommitment

/-- One entry of the products of `derive_interpolating_value`. -/
def interpolationStep (id : ParticipantIdentifier) (products : ZMod q × ZMod q)
    (entry : ParticipantCommitment G) : ZMod q × ZMod q :=
  if entry.identifier = id then products
  else (products.1 * entry.identifier.scalar,
    products.2 * (entry.identifier.scalar - id.scalar))

def deriveInterpolatingValue (commitmentList : List (ParticipantCommitment G))
    (id : ParticipantIdentifier) : Except FrostError (ZMod q) := do
  validateCommitmentList commitmentList
  guard (∃ entry ∈ commitmentList, entry.identifier = id) (.MissingParticipant id)
  let products := commitmentList.foldl (interpolationStep id) (1, 1)
  return products.1 * products.2⁻¹

/-! ### Signing -/

def signShare (package : KeyPackage suite) (nonces : SigningNonces q) (message : Bytes)
    (commitmentList : List (ParticipantCommitment G)) : Except FrostError (SignatureShare q) := do
  validateCommitmentList commitmentList
  let own ← entryOf commitmentList package.identifier
  guard (own.commitments = suite.commitTo nonces) .CommitmentMismatch
  let rho ← suite.bindingFactor package.groupPublicKey commitmentList message package.identifier
  let groupCommitment ←
    suite.computeGroupCommitment package.groupPublicKey commitmentList message
  let lambda ← deriveInterpolatingValue commitmentList package.identifier
  let challenge := suite.computeChallenge groupCommitment package.groupPublicKey message
  let z := nonces.hidingNonce + nonces.bindingNonce * rho +
    lambda * package.signingShare * challenge
  return ⟨package.identifier, z⟩

def verifySignatureShare (verificationShare : VerificationShare G)
    (signatureShare : SignatureShare q) (groupPublicKeyBytes message : Bytes)
    (commitmentList : List (ParticipantCommitment G)) : Except FrostError Unit := do
  guard (verificationShare.identifier = signatureShare.identifier)
    (.InvalidSignatureShare signatureShare.identifier)
  validateCommitmentList commitmentList
  let groupPublicKey ← suite.deserializeElement groupPublicKeyBytes
  let own ← entryOf commitmentList signatureShare.identifier
  let rho ← suite.bindingFactor groupPublicKey commitmentList message signatureShare.identifier
  let groupCommitment ← suite.computeGroupCommitment groupPublicKey commitmentList message
  let lambda ← deriveInterpolatingValue commitmentList signatureShare.identifier
  let challenge := suite.computeChallenge groupCommitment groupPublicKey message
  let commitmentShare := own.commitments.hidingPoint + rho • own.commitments.bindingPoint
  guard (signatureShare.scalar • suite.generator =
      commitmentShare + (challenge * lambda) • verificationShare.point)
    (.InvalidSignatureShare signatureShare.identifier)

def verifySignature (groupPublicKeyBytes message : Bytes) (signature : FrostSignature q G) :
    Except FrostError Unit := do
  let groupPublicKey ← suite.deserializeElement groupPublicKeyBytes
  let challenge := suite.computeChallenge signature.commitment groupPublicKey message
  -- `mul_by_cofactor`
  guard (8 • signature.response • suite.generator =
    8 • (signature.commitment + challenge • groupPublicKey)) .InvalidSignature

/-- The value of a participant in one of the maps of `aggregate`. -/
def shareOf {S : Type} (byId : TreeMap ParticipantIdentifier S idCmp)
    (id : ParticipantIdentifier) : Except FrostError S :=
  match byId[id]? with
  | some share => .ok share
  | none       => .error (.MissingParticipant id)

def aggregate (groupPublicKeyBytes message : Bytes)
    (commitmentList : List (ParticipantCommitment G))
    (verificationShares : List (VerificationShare G)) (signatureShares : List (SignatureShare q)) :
    Except FrostError (FrostSignature q G) := do
  validateCommitmentList commitmentList
  guard (verificationShares.length = commitmentList.length ∧
    signatureShares.length = commitmentList.length) .InvalidCommitmentList
  let verifyingById :=
    TreeMap.ofList (verificationShares.map fun share => (share.identifier, share)) idCmp
  let signatureById :=
    TreeMap.ofList (signatureShares.map fun share => (share.identifier, share)) idCmp
  guard (verifyingById.size = commitmentList.length ∧
    signatureById.size = commitmentList.length) .InvalidCommitmentList
  commitmentList.forM fun commitment => do
    let verificationShare ← shareOf verifyingById commitment.identifier
    let signatureShare ← shareOf signatureById commitment.identifier
    suite.verifySignatureShare verificationShare signatureShare groupPublicKeyBytes message
      commitmentList
  let groupPublicKey ← suite.deserializeElement groupPublicKeyBytes
  let groupCommitment ← suite.computeGroupCommitment groupPublicKey commitmentList message
  let response := signatureShares.foldl (fun acc share => acc + share.scalar) 0
  let signature : FrostSignature q G := ⟨groupCommitment, response⟩
  suite.verifySignature groupPublicKeyBytes message signature
  return signature

end Suite

end Suwappu.MpcSigner.Frost
