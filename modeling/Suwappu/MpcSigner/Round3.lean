import Suwappu.MpcSigner.DkgAgreement
import Suwappu.MpcSigner.Elog

/-!
# The end of presigning

The third round checks the peer's proof and two global equations, and only then assembles the
presignature. The equations make the normalised commitments of the two signers add up to the
generator and to the group key, so two partial signatures that pass their own checks always make a
signature.
-/

namespace Suwappu.MpcSigner.Presign

open Checked Ecdsa

inductive PresignStateError where
  | InvalidSigningContext | AuxiliaryMismatch | InvalidRound1Message | EchoMismatch
  | InvalidRound2Message | InvalidRound3Message | ConsistencyMismatch | DegeneratePresignature
  | Paillier
  | InvalidRound1Proof (id : ParticipantId)
  | InvalidRound2Proof (id : ParticipantId)
  | InvalidRound3Proof (id : ParticipantId)
  | Proof (e : PresignProofError)
  | Ecdsa (e : EcdsaError)
deriving DecidableEq

/-- The broadcast of the first round; its ciphertexts are integers. -/
structure PresignRound1Broadcast (G : Type) where
  execution : Bytes32
  participant : ParticipantId
  k : ℤ
  g : ℤ
  y : G
  a1 : G
  a2 : G
  b1 : G
  b2 : G

structure PresignRound3Broadcast (q : ℕ) (G : Type) where
  execution : Bytes32
  participant : ParticipantId
  delta : ZMod q
  s : G
  deltaPoint : G
  psiPrime : PiElogProof q G

structure PresignFinalSecrets (q : ℕ) where
  k : ZMod q
  chi : ZMod q

structure PresignRound3State (q : ℕ) (G : Type) where
  execution : ExecutionId
  identifier : ParticipantId
  signingPair : SigningPair
  peer : ParticipantId
  groupPublicKey : G
  gamma : G
  secrets : PresignFinalSecrets q
  peerRound1 : PresignRound1Broadcast G
  own : PresignRound3Broadcast q G

/-- The error of a step under another name. -/
def mapError {ε ε' α : Type} (f : ε → ε') : Except ε α → Except ε' α
  | .ok a    => .ok a
  | .error e => .error (f e)

variable {q : ℕ} [Fact q.Prime] {G : Type} [AddCommGroup G] [Module (ZMod q) G] [DecidableEq G]

def presignRound3Finalize (curve : PresignCurve q G) (state : PresignRound3State q G)
    (peerMessage : PresignRound3Broadcast q G) :
    Except PresignStateError (PresignaturePublic G × PresignatureShare q) := do
  guard (peerMessage.execution = state.execution ∧ peerMessage.participant = state.peer ∧
    peerMessage.deltaPoint ≠ 0) .InvalidRound3Message
  let peerStatement : PiElogStatement G := ⟨state.peerRound1.a1, state.peerRound1.a2,
    state.peerRound1.y, peerMessage.deltaPoint, state.gamma⟩
  mapError (fun _ => .InvalidRound3Proof state.peer) (verifyPiElog curve state.execution state.peer
    .PresignatureConsistency peerStatement peerMessage.psiPrime)
  let delta := state.own.delta + peerMessage.delta
  guard (delta ≠ 0) .DegeneratePresignature
  let deltaPoint := state.own.deltaPoint + peerMessage.deltaPoint
  let s := state.own.s + peerMessage.s
  guard (delta • curve.generator = deltaPoint ∧ delta • state.groupPublicKey = s)
    .ConsistencyMismatch
  let kTilde := state.secrets.k * delta⁻¹
  let chiTilde := state.secrets.chi * delta⁻¹
  guard (kTilde ≠ 0 ∧ chiTilde ≠ 0) .DegeneratePresignature
  let (first, second) :=
    if state.identifier = state.signingPair 0 then (state.own, peerMessage)
    else (peerMessage, state.own)
  let commitments : Fin 2 → PresignatureCommitment G := ![
    ⟨state.signingPair 0, delta⁻¹ • first.deltaPoint, delta⁻¹ • first.s⟩,
    ⟨state.signingPair 1, delta⁻¹ • second.deltaPoint, delta⁻¹ • second.s⟩]
  mapError .Ecdsa (assembleVerifiedPresignature state.execution state.identifier state.signingPair
    state.gamma commitments state.groupPublicKey kTilde chiTilde)

/-! ### The commitments of a presignature -/

lemma mapError_ok_iff {ε ε' α : Type} {f : ε → ε'} {x : Except ε α} {a : α} :
    mapError f x = .ok a ↔ x = .ok a := by
  cases x <;> simp [mapError]

/-- The commitments of the two signers add up to the generator and to the key. -/
structure Normalised (curve : PresignCurve q G) (presignature : PresignaturePublic G) : Prop where
  valid : validatePresignaturePublic presignature = .ok ()
  deltaTilde : (presignature.commitments 0).deltaTilde + (presignature.commitments 1).deltaTilde =
    curve.generator
  sTilde : (presignature.commitments 0).sTilde + (presignature.commitments 1).sTilde =
    presignature.groupPublicKey

variable {curve : PresignCurve q G}

lemma Normalised.gamma_ne {presignature : PresignaturePublic G}
    (hn : Normalised curve presignature) : presignature.gamma ≠ 0 := by
  have h := hn.valid
  simp only [validatePresignaturePublic, bind_ok_iff, guard_ok_iff] at h
  obtain ⟨-, -, -, ⟨hgamma, -⟩, -⟩ := h
  exact hgamma

lemma assembleVerifiedPresignature_ok {execution : Bytes32} {identifier : ParticipantId}
    {signingPair : SigningPair} {gamma : G} {commitments : Fin 2 → PresignatureCommitment G}
    {groupPublicKey : G} {kTilde chiTilde : ZMod q} {presignature : PresignaturePublic G}
    {share : PresignatureShare q}
    (h : assembleVerifiedPresignature execution identifier signingPair gamma commitments
      groupPublicKey kTilde chiTilde = .ok (presignature, share)) :
    presignature = ⟨execution, signingPair, gamma, commitments, groupPublicKey⟩ ∧
      validatePresignaturePublic presignature = .ok () := by
  simp only [assembleVerifiedPresignature, bind_ok_iff, pure_ok_iff, Prod.mk.injEq] at h
  obtain ⟨_, hvalid, commitment, -, -, -, rfl, -⟩ := h
  exact ⟨rfl, hvalid⟩

/-- Whatever the peer has sent, the two equations hold of what is assembled. -/
lemma presignRound3Finalize_normalised {state : PresignRound3State q G}
    {peerMessage : PresignRound3Broadcast q G} {presignature : PresignaturePublic G}
    {share : PresignatureShare q}
    (h : presignRound3Finalize curve state peerMessage = .ok (presignature, share)) :
    Normalised curve presignature := by
  simp only [presignRound3Finalize, bind_ok_iff, guard_ok_iff, mapError_ok_iff] at h
  obtain ⟨-, -, -, -, -, hdelta, -, ⟨hgenerator, hkey⟩, -, -, hassemble⟩ := h
  obtain ⟨rfl, hvalid⟩ := assembleVerifiedPresignature_ok hassemble
  have hscale (P : G) : (state.own.delta + peerMessage.delta)⁻¹ •
      (state.own.delta + peerMessage.delta) • P = P := inv_smul_smul₀ hdelta P
  refine ⟨hvalid, ?_, ?_⟩
  · split <;> simp only [Matrix.cons_val_zero, Matrix.cons_val_one]
    · rw [← smul_add, ← hgenerator, hscale]
    · rw [← smul_add, add_comm peerMessage.deltaPoint, ← hgenerator, hscale]
  · split <;> simp only [Matrix.cons_val_zero, Matrix.cons_val_one]
    · rw [← smul_add, ← hkey, hscale]
    · rw [← smul_add, add_comm peerMessage.s, ← hkey, hscale]

/-! ### Partial signatures that pass -/

lemma checkPartial_ok {presignature : PresignaturePublic G} {m r : ZMod q} {index : Fin 2}
    {partialSignature : PartialSignature q} {u : Unit}
    (h : checkPartial presignature m r index partialSignature = .ok u) :
    partialSignature.sigma • presignature.gamma =
      m • (presignature.commitments index).deltaTilde +
        r • (presignature.commitments index).sTilde := by
  simp only [checkPartial, bind_ok_iff, guard_ok_iff] at h
  obtain ⟨-, -, -, -, h⟩ := h
  exact h

omit [Fact q.Prime] [Module (ZMod q) G] in
lemma commitmentOf_signingPair {presignature : PresignaturePublic G} {u : Unit}
    (h : validatePresignaturePublic presignature = .ok u) (index : Fin 2) :
    (presignature.commitments index).identifier = presignature.signingPair index ∧
      presignature.commitmentOf (presignature.signingPair index) =
        .ok (presignature.commitments index) := by
  simp only [validatePresignaturePublic, validateSigningPair, bind_ok_iff, guard_ok_iff] at h
  obtain ⟨-, hpair, -, -, hcommitments⟩ := h
  have hidentifier := fun i => (hcommitments i).1
  have hne : presignature.signingPair 0 ≠ presignature.signingPair 1 :=
    fun heq => absurd hpair (heq ▸ lt_irrefl _)
  refine ⟨hidentifier index, ?_⟩
  unfold PresignaturePublic.commitmentOf
  rw [hidentifier, hidentifier]
  cases index using Fin.cases with
  | zero   => exact if_pos rfl
  | succ i =>
    obtain rfl := Subsingleton.elim i 0
    rw [Fin.succ_zero_eq_one, if_neg hne, if_pos rfl]

/-- The partial signature that a signer issues passes the check at its place. -/
theorem checkPartial_of_issue {presignature : PresignaturePublic G} {share : PresignatureShare q}
    {message : KnownMessageDigest} {index : Fin 2} {partialSignature : PartialSignature q}
    {r : ZMod q} (h : issuePartialSignature curve.toEcdsaCurve share presignature message =
      .ok partialSignature)
    (hr : xCoordinateToScalar curve.toEcdsaCurve presignature.gamma = .ok r)
    (hindex : presignature.signingPair index = share.identifier) :
    checkPartial presignature (reduceBytes message.prehash) r index partialSignature = .ok () := by
  simp only [issuePartialSignature, bind_ok_iff, guard_ok_iff, pure_ok_iff] at h
  obtain ⟨u, hvalid, -, -, commitment, hcommitment, -, ⟨hdelta, hs⟩, r', hr', -, -, rfl⟩ := h
  obtain rfl : r' = r := Except.ok.inj (hr'.symm.trans hr)
  obtain ⟨hidentifier, hcommitmentOf⟩ := commitmentOf_signingPair hvalid index
  rw [← hindex, hcommitmentOf] at hcommitment
  cases hcommitment
  have hsigma : (share.kTilde * reduceBytes message.prehash + r' * share.chiTilde) •
      presignature.gamma = (reduceBytes message.prehash : ZMod q) •
        (presignature.commitments index).deltaTilde +
        r' • (presignature.commitments index).sTilde := by
    rw [← hdelta, ← hs]
    module
  unfold checkPartial
  dsimp only
  rw [guard_of_true ⟨rfl, hindex.symm, rfl⟩, ok_bind, guard_of_true hidentifier, ok_bind,
    guard_of_true hsigma]

lemma Normalised.sigma_smul {presignature : PresignaturePublic G}
    (hn : Normalised curve presignature) {m r : ZMod q} {first second : PartialSignature q}
    {u u' : Unit} (hfirst : checkPartial presignature m r 0 first = .ok u)
    (hsecond : checkPartial presignature m r 1 second = .ok u') :
    (first.sigma + second.sigma) • presignature.gamma =
      m • curve.generator + r • presignature.groupPublicKey := by
  rw [add_smul, checkPartial_ok hfirst, checkPartial_ok hsecond, ← hn.deltaTilde, ← hn.sTilde]
  module

omit [DecidableEq G] in
/-- A signature on the nonce point verifies, also after it has been normalised. -/
lemma verifyPrehash_of_eq {gamma Y : G} {prehash : Bytes32} {sigma : ZMod q}
    (hr : (reduceBytes (curve.xCoordinate gamma) : ZMod q) ≠ 0) (hsigma : sigma ≠ 0)
    (h : sigma • gamma = (reduceBytes prehash : ZMod q) • curve.generator +
      (reduceBytes (curve.xCoordinate gamma) : ZMod q) • Y) :
    verifyPrehash curve.toEcdsaCurve Y prehash (reduceBytes (curve.xCoordinate gamma))
      (normalizeS curve.toEcdsaCurve sigma) = true := by
  have hpoint {s : ZMod q} : (reduceBytes prehash * s⁻¹) • curve.generator +
      (reduceBytes (curve.xCoordinate gamma) * s⁻¹) • Y = (s⁻¹ * sigma) • gamma := by
    rw [mul_smul s⁻¹ sigma, h]
    module
  unfold verifyPrehash normalizeS
  dsimp only
  rw [hpoint]
  split
  · rename_i hhigh
    rw [inv_neg, neg_mul, inv_mul_cancel₀ hsigma, neg_smul, one_smul, curve.xCoordinate_neg]
    simp [hr, hsigma, curve.isHigh_neg _ hhigh]
  · rename_i hlow
    rw [inv_mul_cancel₀ hsigma, one_smul]
    simp [hr, hsigma, hlow]

/-- Two partial signatures that pass their checks against a presignature make a signature that
verifies under the group key, unless one of its parts is zero. -/
theorem partials_verify (curve : PresignCurve q G) (state : PresignRound3State q G)
    (peerMessage : PresignRound3Broadcast q G) (presignature : PresignaturePublic G)
    (share : PresignatureShare q)
    (h : presignRound3Finalize curve state peerMessage = .ok (presignature, share)) :
    ∃ r, xCoordinateToScalar curve.toEcdsaCurve presignature.gamma = .ok r ∧
      ∀ (message : KnownMessageDigest) (first second : PartialSignature q),
        checkPartial presignature (reduceBytes message.prehash) r 0 first = .ok () →
        checkPartial presignature (reduceBytes message.prehash) r 1 second = .ok () →
        r ≠ 0 → first.sigma + second.sigma ≠ 0 →
        verifyPrehash curve.toEcdsaCurve presignature.groupPublicKey message.prehash r
          (normalizeS curve.toEcdsaCurve (first.sigma + second.sigma)) = true ∧
        aggregatePartialSignatures curve.toEcdsaCurve presignature message [first, second] ≠
          .error .InvalidSignature := by
  have hn := presignRound3Finalize_normalised h
  have hx : xCoordinateToScalar curve.toEcdsaCurve presignature.gamma =
      .ok (reduceBytes (curve.xCoordinate presignature.gamma)) := by
    rw [xCoordinateToScalar, guard_of_true hn.gamma_ne]
    rfl
  refine ⟨_, hx, fun message first second hfirst hsecond hr hsigma => ?_⟩
  have hverify := verifyPrehash_of_eq hr hsigma (hn.sigma_smul hfirst hsecond)
  refine ⟨hverify, ?_⟩
  rw [aggregatePartialSignatures, hn.valid, ok_bind]
  dsimp only
  rw [hx, ok_bind, hfirst, ok_bind, hsecond, ok_bind, zero_add, guard_of_true ⟨hsigma, hr⟩,
    ok_bind, guard_of_true hverify, ok_bind]
  split <;> simp

/-! ### A small presignature -/

/-- The small curve, with the square of a point for its x-coordinate. -/
def smallPresignCurve : PresignCurve 65537 (ZMod 65537) where
  toSecp256k1 := Dkg.smallCurve
  xCoordinate P := bytes32 (P * P).val
  xCoordinate_neg P := by rw [neg_mul_neg]
  isHigh s := 32768 < s.val
  isHigh_neg s h := by
    have hne : s ≠ 0 := by
      rintro rfl
      simp at h
    rw [decide_eq_true_eq] at h
    rw [decide_eq_false_iff_not, ZMod.neg_val, if_neg hne]
    omega
  keccak256 := Dkg.smallCurve.sha256
  trialRecovery _ _ _ _ := some 0
  scalarFromStream seed _ := ofBeBytes seed.val
  integerFromStream seed _ range :=
    (ofBeBytes seed.val % (2 * (range / 2) + 1) : ℕ) - (range / 2 : ℕ)
  integerFromStream_le seed _ range := by
    have hlt := Nat.mod_lt (ofBeBytes seed.val) (show 0 < 2 * (range / 2) + 1 by omega)
    omega
  integerBytes z := toBeBytes 1024 z.natAbs

def smallPair : SigningPair := ![.ofIndex 0, .ofIndex 1]

/-- The statement of the second signer, with nonce share 6 under the nonce point 7. -/
def smallStatement : PiElogStatement (ZMod 65537) :=
  ⟨(12 : ℕ), (126 : ℕ), (10 : ℕ), (42 : ℕ), (7 : ℕ)⟩

def smallPsi : PiElogProof 65537 (ZMod 65537) :=
  match provePiElog smallPresignCurve (bytes32 1) (.ofIndex 1) .PresignatureConsistency
    smallStatement (6 : ℕ) (12 : ℕ) (20 : ℕ) (21 : ℕ) with
  | .ok proof => proof
  | .error _  => ⟨⟨0, 0, 0⟩, 0, 0⟩

def smallPeerMessage : PresignRound3Broadcast 65537 (ZMod 65537) where
  execution := bytes32 1
  participant := .ofIndex 1
  delta := (47 : ℕ)
  s := (609 : ℕ)
  deltaPoint := (42 : ℕ)
  psiPrime := smallPsi

/-- The first signer, with nonce share 5 and key share 8. -/
def smallRound3 : PresignRound3State 65537 (ZMod 65537) where
  execution := bytes32 1
  identifier := .ofIndex 0
  signingPair := smallPair
  peer := .ofIndex 1
  groupPublicKey := (17 : ℕ)
  gamma := (7 : ℕ)
  secrets := ⟨(5 : ℕ), (100 : ℕ)⟩
  peerRound1 := ⟨bytes32 1, .ofIndex 1, 0, 0, (10 : ℕ), (12 : ℕ), (126 : ℕ), 0, 0⟩
  own := ⟨bytes32 1, .ofIndex 0, (30 : ℕ), (700 : ℕ), (35 : ℕ), smallPsi⟩

/-- The two delta shares together. -/
def smallDelta : ZMod 65537 := (77 : ℕ)

def smallPresignature : PresignaturePublic (ZMod 65537) where
  execution := bytes32 1
  signingPair := smallPair
  gamma := (7 : ℕ)
  commitments := ![⟨.ofIndex 0, smallDelta⁻¹ * (35 : ℕ), smallDelta⁻¹ * (700 : ℕ)⟩,
    ⟨.ofIndex 1, smallDelta⁻¹ * (42 : ℕ), smallDelta⁻¹ * (609 : ℕ)⟩]
  groupPublicKey := (17 : ℕ)

lemma smallPresignature_ok : presignRound3Finalize smallPresignCurve smallRound3 smallPeerMessage =
    .ok (smallPresignature, ⟨bytes32 1, .ofIndex 0, 5 * 77⁻¹, 100 * 77⁻¹⟩) := by
  have h : (presignRound3Finalize smallPresignCurve smallRound3 smallPeerMessage).toOption =
      some (smallPresignature, ⟨bytes32 1, .ofIndex 0, 5 * 77⁻¹, 100 * 77⁻¹⟩) := by
    decide +kernel
  cases hresult : presignRound3Finalize smallPresignCurve smallRound3 smallPeerMessage with
  | error e =>
    rw [hresult] at h
    cases h
  | ok result =>
    rw [hresult] at h
    rw [Option.some.inj h]

/-- The partial signatures of the two on the digest 9. -/
def smallPartial (index : Fin 2) : PartialSignature 65537 where
  execution := bytes32 1
  identifier := smallPair index
  r := (49 : ℕ)
  sigma := (![5, 6] index : ℕ) * smallDelta⁻¹ * (9 : ℕ) +
    (49 : ℕ) * ((![100, 87] index : ℕ) * smallDelta⁻¹)

/-- Their sum verifies. -/
theorem smallPartial_verifies : verifyPrehash smallPresignCurve.toEcdsaCurve 17 (bytes32 9) 49
    (normalizeS smallPresignCurve.toEcdsaCurve
      ((smallPartial 0).sigma + (smallPartial 1).sigma)) = true := by
  obtain ⟨r, hr, hverify⟩ := partials_verify smallPresignCurve smallRound3 smallPeerMessage _ _
    smallPresignature_ok
  have hr' : xCoordinateToScalar smallPresignCurve.toEcdsaCurve smallPresignature.gamma =
      .ok 49 := by decide +kernel
  obtain rfl : r = 49 := Except.ok.inj (hr.symm.trans hr')
  exact (hverify ⟨bytes32 9⟩ (smallPartial 0) (smallPartial 1) (by decide +kernel)
    (by decide +kernel) (by decide +kernel) (by decide +kernel)).1

end Suwappu.MpcSigner.Presign
