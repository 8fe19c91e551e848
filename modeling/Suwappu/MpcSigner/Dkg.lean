import Suwappu.Lib.Checked
import Suwappu.MpcSigner.Secp256k1

/-!
# Distributed key generation

Three participants commit to polynomials of degree one, open their commitments once everyone has
echoed the same set of them, check the private shares against the opened coefficients, and end with
a proof that each of them knows its share. An array `[T; n]` of the source is a function on `Fin n`.
-/

namespace Suwappu.MpcSigner.Dkg

open Checked

def COMMIT_TAG : Bytes := ascii "suwappu/cggmp24/secp256k1-dkg/commit/v1"
def ECHO_TAG : Bytes := ascii "suwappu/cggmp24/secp256k1-dkg/echo/v1"
def SCHNORR_TAG : Bytes := ascii "suwappu/cggmp24/secp256k1-dkg/schnorr/v1"

inductive DkgError where
  | ExecutionMismatch | InvalidPackageSet | EchoMismatch | WrongRecipient | FinalShareMismatch
  | CommitmentOpeningMismatch (id : ℕ)
  | InvalidPoint (id : ℕ)
  | InvalidShare (id : ℕ)
  | InvalidKnowledgeProof (id : ℕ)
deriving DecidableEq

structure Round1Commitment where
  identifier : ParticipantId
  execution : Bytes32
  digest : Bytes32
deriving DecidableEq

structure Round1State (q : ℕ) (G : Type) where
  identifier : ParticipantId
  execution : Bytes32
  coefficients : Fin 2 → ZMod q
  rid : Bytes32
  schnorrNonce : ZMod q
  schnorrCommitment : G
  commitmentBlind : Bytes32

structure Round2Reveal (G : Type) where
  identifier : ParticipantId
  execution : Bytes32
  rid : Bytes32
  coefficientCommitments : Fin 2 → G
  schnorrCommitment : G
  commitmentBlind : Bytes32

structure EchoPackage where
  identifier : ParticipantId
  execution : Bytes32
  digest : Bytes32
deriving DecidableEq

structure PrivateShare (q : ℕ) where
  sender : ParticipantId
  recipient : ParticipantId
  execution : Bytes32
  value : ZMod q

structure KnowledgeProof (q : ℕ) where
  identifier : ParticipantId
  execution : Bytes32
  response : ZMod q

structure PendingKeyPackage (q : ℕ) (G : Type) where
  identifier : ParticipantId
  execution : Bytes32
  signingShare : ZMod q
  verificationShares : Fin 3 → G
  groupPublicKey : G
  schnorrCommitments : Fin 3 → G
  combinedRid : Bytes32
  localProof : KnowledgeProof q

structure KeyPackage (q : ℕ) (G : Type) where
  identifier : ParticipantId
  signingShare : ZMod q
  verificationShares : Fin 3 → G
  groupPublicKey : G

/-- What the participant draws in the first round; the scalars are drawn nonzero. -/
structure Coins (q : ℕ) where
  coefficients : Fin 2 → ZMod q
  coefficients_ne : ∀ i, coefficients i ≠ 0
  rid : Bytes32
  schnorrNonce : ZMod q
  schnorrNonce_ne : schnorrNonce ≠ 0
  commitmentBlind : Bytes32

/-- An element of a set that has been checked to be complete; the source panics without it. -/
def elementAt {α : Type} (l : List α) (i : Fin 3) : Except DkgError α :=
  match l[i.val]? with
  | some a => .ok a
  | none   => .error .InvalidPackageSet

/-- The loop over such a set with the places of its elements. -/
def forEach {α : Type} (l : List α) (check : Fin 3 → α → Except DkgError Unit) :
    Except DkgError Unit :=
  [0, 1, 2].forM fun index => do
    let a ← elementAt l index
    check index a

example : elementAt [4, 5, 6] = .ok ∘ ![4, 5, 6] := by
  funext i
  fin_cases i <;> rfl

variable {q : ℕ} [Fact q.Prime] {G : Type} [AddCommGroup G] [Module (ZMod q) G] [DecidableEq G]
  (curve : Secp256k1 q G)

/-! ### Transcripts -/

/-- `encode_nonidentity_point`, with the error of its callers. -/
def encodeNonidentityPoint (id : ParticipantId) (point : G) : Except DkgError Bytes := do
  guard (point ≠ 0) (.InvalidPoint id.val)
  return (curve.encode point).val

/-- What `opening_digest` hashes. -/
def openingInput (reveal : Round2Reveal G) : Except DkgError Bytes := do
  let constant ← encodeNonidentityPoint curve reveal.identifier (reveal.coefficientCommitments 0)
  let linear ← encodeNonidentityPoint curve reveal.identifier (reveal.coefficientCommitments 1)
  let schnorr ← encodeNonidentityPoint curve reveal.identifier reveal.schnorrCommitment
  return COMMIT_TAG ++ reveal.execution.val ++ toBeBytes 2 reveal.identifier.val ++
    reveal.rid.val ++ constant ++ linear ++ schnorr ++ reveal.commitmentBlind.val

def openingDigest (reveal : Round2Reveal G) : Except DkgError Bytes32 := do
  let input ← openingInput curve reveal
  return curve.sha256 input

/-- What `expected_echo_digest` hashes. -/
def echoInput (execution : Bytes32) (commitments : List Round1Commitment) : Bytes :=
  ECHO_TAG ++ execution.val ++ toBeBytes 4 commitments.length ++
    commitments.flatMap fun commitment =>
      toBeBytes 2 commitment.identifier.val ++ commitment.digest.val

def expectedEchoDigest (execution : Bytes32) (commitments : List Round1Commitment) : Bytes32 :=
  curve.sha256 (echoInput execution commitments)

def schnorrChallenge (execution : Bytes32) (identifier : ParticipantId) (combinedRid : Bytes32)
    (publicShare nonceCommitment : G) : Except DkgError (ZMod q) := do
  let share ← encodeNonidentityPoint curve identifier publicShare
  let nonce ← encodeNonidentityPoint curve identifier nonceCommitment
  return reduceBytes (curve.sha256 (SCHNORR_TAG ++ execution.val ++ toBeBytes 2 identifier.val ++
    combinedRid.val ++ share ++ nonce))

/-! ### Checks of what is received -/

def validateCommitmentSet (execution : Bytes32) (commitments : List Round1Commitment) :
    Except DkgError Unit := do
  guard (commitments.length = 3) .InvalidPackageSet
  forEach commitments fun index commitment => do
    guard (commitment.execution = execution) .ExecutionMismatch
    guard (commitment.identifier = .ofIndex index) .InvalidPackageSet

def validateEchoes (execution : Bytes32) (commitments : List Round1Commitment)
    (echoes : List EchoPackage) : Except DkgError Unit := do
  guard (echoes.length = 3) .InvalidPackageSet
  let expected := expectedEchoDigest curve execution commitments
  forEach echoes fun index echo => do
    guard (echo.execution = execution) .ExecutionMismatch
    guard (echo.identifier = .ofIndex index) .InvalidPackageSet
    guard (echo.digest = expected) .EchoMismatch

def validateReveals (execution : Bytes32) (commitments : List Round1Commitment)
    (reveals : List (Round2Reveal G)) : Except DkgError Unit := do
  guard (reveals.length = 3) .InvalidPackageSet
  forEach reveals fun index reveal => do
    guard (reveal.execution = execution) .ExecutionMismatch
    guard (reveal.identifier = .ofIndex index) .InvalidPackageSet
    guard (reveal.coefficientCommitments 0 ≠ 0 ∧ reveal.coefficientCommitments 1 ≠ 0 ∧
      reveal.schnorrCommitment ≠ 0) (.InvalidPoint (index.val + 1))
    let digest ← openingDigest curve reveal
    let commitment ← elementAt commitments index
    guard (digest = commitment.digest) (.CommitmentOpeningMismatch (index.val + 1))

def verifyPrivateShare (share : PrivateShare q) (reveal : Round2Reveal G) :
    Except DkgError Unit := do
  guard (share.sender = reveal.identifier) (.InvalidShare share.sender.val)
  let x : ZMod q := share.recipient.scalar
  let expected := reveal.coefficientCommitments 0 + x • reveal.coefficientCommitments 1
  guard (share.value • curve.generator = expected) (.InvalidShare share.sender.val)

/-- The loop of `round3` over the shares: the senders seen and the sum so far. -/
def acceptShares (execution : Bytes32) (identifier : ParticipantId)
    (reveals : List (Round2Reveal G)) : List ParticipantId → ZMod q → List (PrivateShare q) →
    Except DkgError (List ParticipantId × ZMod q)
  | seen, signingShare, []              => .ok (seen, signingShare)
  | seen, signingShare, share :: shares => do
    guard (share.execution = execution) .ExecutionMismatch
    guard (share.recipient = identifier) .WrongRecipient
    guard (share.sender ∉ seen) .InvalidPackageSet
    let reveal ← elementAt reveals share.sender.index
    verifyPrivateShare curve share reveal
    acceptShares execution identifier reveals (share.sender :: seen) (signingShare + share.value)
      shares

/-! ### The rounds -/

/-- What a participant opens. -/
def Round1State.reveal (state : Round1State q G) : Round2Reveal G where
  identifier := state.identifier
  execution := state.execution
  rid := state.rid
  coefficientCommitments i := state.coefficients i • curve.generator
  schnorrCommitment := state.schnorrCommitment
  commitmentBlind := state.commitmentBlind

def round1 (execution : ExecutionId) (identifier : ParticipantId) (coins : Coins q) :
    Except DkgError (Round1State q G × Round1Commitment) := do
  let state : Round1State q G := {
    identifier := identifier
    execution := execution
    coefficients := coins.coefficients
    rid := coins.rid
    schnorrNonce := coins.schnorrNonce
    schnorrCommitment := coins.schnorrNonce • curve.generator
    commitmentBlind := coins.commitmentBlind }
  let digest ← openingDigest curve (state.reveal curve)
  return (state, ⟨identifier, execution, digest⟩)

def round2 (state : Round1State q G) (commitments : List Round1Commitment) :
    Except DkgError (EchoPackage × Round2Reveal G × (Fin 3 → PrivateShare q)) := do
  validateCommitmentSet state.execution commitments
  let reveal := state.reveal curve
  let ownCommitment ← elementAt commitments state.identifier.index
  let digest ← openingDigest curve reveal
  guard (digest = ownCommitment.digest) (.CommitmentOpeningMismatch state.identifier.val)
  let echo : EchoPackage :=
    ⟨state.identifier, state.execution, expectedEchoDigest curve state.execution commitments⟩
  let shares (i : Fin 3) : PrivateShare q := {
    sender := state.identifier
    recipient := .ofIndex i
    execution := state.execution
    value := state.coefficients 0 + state.coefficients 1 * (ParticipantId.ofIndex i).scalar }
  return (echo, reveal, shares)

def xorBytes (a b : Bytes32) : Bytes32 :=
  ⟨List.zipWith (· ^^^ ·) a.val b.val, by simp [a.property, b.property]⟩

def round3 (state : Round1State q G) (commitments : List Round1Commitment)
    (echoes : List EchoPackage) (reveals : List (Round2Reveal G)) (shares : List (PrivateShare q)) :
    Except DkgError (PendingKeyPackage q G) := do
  validateCommitmentSet state.execution commitments
  validateEchoes curve state.execution commitments echoes
  validateReveals curve state.execution commitments reveals
  guard (shares.length = 3) .InvalidPackageSet
  let (seen, signingShare) ←
    acceptShares curve state.execution state.identifier reveals [] 0 shares
  guard (seen.length = 3) .InvalidPackageSet
  let aggregateCommitments (i : Fin 2) :=
    reveals.foldl (fun acc reveal => acc + reveal.coefficientCommitments i) 0
  let groupPublicKey := aggregateCommitments 0
  guard (groupPublicKey ≠ 0) (.InvalidPoint state.identifier.val)
  let verificationShares (i : Fin 3) :=
    aggregateCommitments 0 + (ParticipantId.ofIndex i).scalar (q := q) • aggregateCommitments 1
  guard (∀ i, verificationShares i ≠ 0) (.InvalidPoint state.identifier.val)
  let ownVerification := verificationShares state.identifier.index
  guard (signingShare • curve.generator = ownVerification) .FinalShareMismatch
  let combinedRid := reveals.foldl (fun acc reveal => xorBytes acc reveal.rid)
    ⟨List.replicate 32 0, List.length_replicate⟩
  let challenge ← schnorrChallenge curve state.execution state.identifier combinedRid
    ownVerification state.schnorrCommitment
  let first ← elementAt reveals 0
  let second ← elementAt reveals 1
  let third ← elementAt reveals 2
  return {
    identifier := state.identifier
    execution := state.execution
    signingShare := signingShare
    verificationShares := verificationShares
    groupPublicKey := groupPublicKey
    schnorrCommitments :=
      ![first.schnorrCommitment, second.schnorrCommitment, third.schnorrCommitment]
    combinedRid := combinedRid
    localProof :=
      ⟨state.identifier, state.execution, state.schnorrNonce + challenge * signingShare⟩ }

def finalize (pending : PendingKeyPackage q G) (proofs : List (KnowledgeProof q)) :
    Except DkgError (KeyPackage q G) := do
  guard (proofs.length = 3) .InvalidPackageSet
  forEach proofs fun index proof => do
    guard (proof.identifier = .ofIndex index) .InvalidPackageSet
    guard (proof.execution = pending.execution) .ExecutionMismatch
    let publicShare := pending.verificationShares index
    let nonceCommitment := pending.schnorrCommitments index
    let challenge ← schnorrChallenge curve pending.execution (.ofIndex index) pending.combinedRid
      publicShare nonceCommitment
    guard (proof.response • curve.generator = nonceCommitment + challenge • publicShare)
      (.InvalidKnowledgeProof (index.val + 1))
  return {
    identifier := pending.identifier
    signingShare := pending.signingShare
    verificationShares := pending.verificationShares
    groupPublicKey := pending.groupPublicKey }

end Suwappu.MpcSigner.Dkg
