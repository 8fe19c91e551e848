import Suwappu.Lib.Shamir
import Suwappu.MpcSigner.Ecdsa

/-!
# Agreement on the generated key

Two honest participants that have echoed the same digest hold commitments of the same openings, so
the coefficients the other participants dealt are the same for both of them, and with the
coefficients the group key and the shares it is verified with.
-/

namespace Suwappu.MpcSigner.Dkg

open Checked Polynomial

variable {q : ℕ} [Fact q.Prime] {G : Type} [AddCommGroup G] [Module (ZMod q) G] [DecidableEq G]
  {curve : Secp256k1 q G}

/-! ### One participant -/

/-- Everything a participant receives, from whoever may have sent it. -/
structure Received (q : ℕ) (G : Type) where
  commitments : List Round1Commitment
  echoes : List EchoPackage
  reveals : List (Round2Reveal G)
  shares : List (PrivateShare q)
  proofs : List (KnowledgeProof q)

/-- The rounds of an honest participant: the echo it sends and the key it ends with. -/
def participate (curve : Secp256k1 q G) (execution : ExecutionId) (identifier : ParticipantId)
    (coins : Coins q) (received : Received q G) :
    Except DkgError (EchoPackage × KeyPackage q G) := do
  let (state, _) ← round1 curve execution identifier coins
  let (echo, _, _) ← round2 curve state received.commitments
  let pending ← round3 curve state received.commitments received.echoes received.reveals
    received.shares
  let key ← finalize curve pending received.proofs
  return (echo, key)

/-- What the participant hashes to compare it with a digest. -/
def hashed (curve : Secp256k1 q G) (execution : ExecutionId) (received : Received q G) :
    List Bytes :=
  echoInput execution received.commitments ::
    received.reveals.filterMap fun reveal => (openingInput curve reveal).toOption

/-- The sum of the coefficients of one degree that have been opened. -/
def aggregateCommitments (reveals : List (Round2Reveal G)) (i : Fin 2) : G :=
  reveals.foldl (fun acc reveal => acc + reveal.coefficientCommitments i) 0

lemma elementAt_ok_iff {α : Type} {l : List α} {i : Fin 3} {a : α} :
    elementAt l i = .ok a ↔ l[i.val]? = some a := by
  unfold elementAt
  cases l[i.val]? <;> simp

lemma forEach_ok_iff {α : Type} {l : List α} {check : Fin 3 → α → Except DkgError Unit} {u : Unit} :
    forEach l check = .ok u ↔ ∀ i : Fin 3, ∃ a, l[i.val]? = some a ∧ check i a = .ok () := by
  rw [forEach, forM_ok_iff]
  simp only [bind_ok_iff, elementAt_ok_iff]
  constructor
  · exact fun h i => h i (by fin_cases i <;> simp)
  · exact fun h i _ => h i

/-- What the checks of the third round leave of a participant's view. -/
structure View (curve : Secp256k1 q G) (execution : ExecutionId) (identifier : ParticipantId)
    (received : Received q G) (key : KeyPackage q G) : Prop where
  commitments : received.commitments.length = 3
  reveals : received.reveals.length = 3
  opened : ∀ i : Fin 3, ∃ commitment reveal input, received.commitments[i.val]? = some commitment ∧
    received.reveals[i.val]? = some reveal ∧ openingInput curve reveal = .ok input ∧
    curve.sha256 input = commitment.digest
  identifier_eq : key.identifier = identifier
  groupPublicKey : key.groupPublicKey = aggregateCommitments received.reveals 0
  verificationShares : ∀ i, key.verificationShares i = aggregateCommitments received.reveals 0 +
    (ParticipantId.ofIndex i).scalar (q := q) • aggregateCommitments received.reveals 1
  signingShare : key.signingShare • curve.generator = key.verificationShares identifier.index

lemma validateCommitmentSet_ok {execution : Bytes32} {commitments : List Round1Commitment}
    {u : Unit} (h : validateCommitmentSet execution commitments = .ok u) :
    commitments.length = 3 := by
  simp only [validateCommitmentSet, bind_ok_iff, guard_ok_iff] at h
  exact h.choose_spec.1

lemma validateReveals_ok {execution : Bytes32} {commitments : List Round1Commitment}
    {reveals : List (Round2Reveal G)} {u : Unit}
    (h : validateReveals curve execution commitments reveals = .ok u) : reveals.length = 3 ∧
      ∀ i : Fin 3, ∃ commitment reveal input, commitments[i.val]? = some commitment ∧
        reveals[i.val]? = some reveal ∧ openingInput curve reveal = .ok input ∧
        curve.sha256 input = commitment.digest := by
  simp only [validateReveals, bind_ok_iff, guard_ok_iff, forEach_ok_iff, elementAt_ok_iff,
    openingDigest, pure_ok_iff] at h
  obtain ⟨-, hlength, h⟩ := h
  refine ⟨hlength, fun i => ?_⟩
  obtain ⟨reveal, hreveal, -, -, -, -, -, -, digest, ⟨input, hinput, rfl⟩, commitment, hcommitment,
    hdigest⟩ := h i
  exact ⟨commitment, reveal, input, hcommitment, hreveal, hinput, hdigest⟩

lemma round1_ok {execution : ExecutionId} {identifier : ParticipantId} {coins : Coins q}
    {state : Round1State q G} {commitment : Round1Commitment}
    (h : round1 curve execution identifier coins = .ok (state, commitment)) :
    state.identifier = identifier ∧ state.execution = execution := by
  simp only [round1, bind_ok_iff, pure_ok_iff, Prod.mk.injEq] at h
  obtain ⟨-, -, rfl, -⟩ := h
  exact ⟨rfl, rfl⟩

lemma round2_ok {state : Round1State q G} {commitments : List Round1Commitment}
    {echo : EchoPackage} {reveal : Round2Reveal G} {shares : Fin 3 → PrivateShare q}
    (h : round2 curve state commitments = .ok (echo, reveal, shares)) :
    echo.digest = expectedEchoDigest curve state.execution commitments := by
  simp only [round2, bind_ok_iff, pure_ok_iff, Prod.mk.injEq] at h
  obtain ⟨-, -, -, -, -, -, -, -, rfl, -, -⟩ := h
  rfl

lemma round3_ok {state : Round1State q G} {received : Received q G}
    {pending : PendingKeyPackage q G} {proofs : List (KnowledgeProof q)} {key : KeyPackage q G}
    (h : round3 curve state received.commitments received.echoes received.reveals
      received.shares = .ok pending) (hkey : finalize curve pending proofs = .ok key) :
    View curve state.execution state.identifier received key := by
  simp only [round3, bind_ok_iff, guard_ok_iff, pure_ok_iff] at h
  obtain ⟨_, hcommitments, -, -, _, hreveals, -, -, ⟨seen, signingShare⟩, -, -, -, -, -, -, -, -,
    hshare, challenge, -, first, -, second, -, third, -, rfl⟩ := h
  simp only [finalize, bind_ok_iff, pure_ok_iff] at hkey
  obtain ⟨-, -, -, -, rfl⟩ := hkey
  exact {
    commitments := validateCommitmentSet_ok hcommitments
    reveals := (validateReveals_ok hreveals).1
    opened := (validateReveals_ok hreveals).2
    identifier_eq := rfl
    groupPublicKey := rfl
    verificationShares := fun _ => rfl
    signingShare := hshare }

/-- A participant that ends with a key has checked its view. -/
lemma participate_ok {execution : ExecutionId} {identifier : ParticipantId} {coins : Coins q}
    {received : Received q G} {echo : EchoPackage} {key : KeyPackage q G}
    (h : participate curve execution identifier coins received = .ok (echo, key)) :
    View curve execution identifier received key ∧
      echo.digest = expectedEchoDigest curve execution received.commitments := by
  simp only [participate, bind_ok_iff, pure_ok_iff, Prod.mk.injEq] at h
  obtain ⟨⟨state, commitment⟩, hround1, ⟨echo', reveal, shares⟩, hround2, pending, hround3, key',
    hfinalize, rfl, rfl⟩ := h
  obtain ⟨rfl, rfl⟩ := round1_ok hround1
  exact ⟨round3_ok hround3 hfinalize, round2_ok hround2⟩

/-! ### What a digest covers -/

lemma echoInput_inj {execution execution' : Bytes32} {l l' : List Round1Commitment}
    (hl : l.length = 3) (hl' : l'.length = 3)
    (h : echoInput execution l = echoInput execution' l') :
    execution = execution' ∧ l.map (·.digest) = l'.map (·.digest) := by
  have hwidth (c : Round1Commitment) :
      (toBeBytes 2 c.identifier.val ++ c.digest.val).length = 34 := by
    rw [List.length_append, length_toBeBytes, c.digest.property]
  have hlength : l.length = l'.length := hl.trans hl'.symm
  have hparts : (l.flatMap fun c => toBeBytes 2 c.identifier.val ++ c.digest.val).length =
      (l'.flatMap fun c => toBeBytes 2 c.identifier.val ++ c.digest.val).length := by
    simp only [List.length_flatMap, hwidth, List.map_const', hlength]
  obtain ⟨hhead, htail⟩ := List.append_inj' h hparts
  obtain ⟨hhead, -⟩ := List.append_inj' hhead (by simp)
  obtain ⟨-, hexecution⟩ :=
    List.append_inj' hhead (execution.property.trans execution'.property.symm)
  refine ⟨Subtype.ext hexecution, ?_⟩
  have hmap := congrArg (List.map fun part => part.drop 2) (flatMap_inj hwidth hlength htail)
  rw [List.map_map, List.map_map] at hmap
  have hdrop : ((fun part : Bytes => part.drop 2) ∘ fun c : Round1Commitment =>
      toBeBytes 2 c.identifier.val ++ c.digest.val) = fun c => c.digest.val := by
    funext c
    exact List.drop_left' (length_toBeBytes 2 c.identifier.val)
  rw [hdrop] at hmap
  refine List.map_injective_iff.mpr Subtype.val_injective ?_
  rw [List.map_map, List.map_map]
  exact hmap

lemma encodeNonidentityPoint_ok {id : ParticipantId} {P : G} {bytes : Bytes}
    (h : encodeNonidentityPoint curve id P = .ok bytes) :
    P ≠ 0 ∧ (curve.encode P).val = bytes := by
  simp only [encodeNonidentityPoint, bind_ok_iff, guard_ok_iff, pure_ok_iff] at h
  obtain ⟨-, hP, rfl⟩ := h
  exact ⟨hP, rfl⟩

lemma openingInput_inj {reveal reveal' : Round2Reveal G} {input : Bytes}
    (h : openingInput curve reveal = .ok input) (h' : openingInput curve reveal' = .ok input) :
    reveal.coefficientCommitments = reveal'.coefficientCommitments := by
  simp only [openingInput, bind_ok_iff, pure_ok_iff] at h h'
  obtain ⟨_, h₀, _, h₁, _, hs, rfl⟩ := h
  obtain ⟨_, h₀', _, h₁', _, hs', heq⟩ := h'
  obtain ⟨hne₀, rfl⟩ := encodeNonidentityPoint_ok h₀
  obtain ⟨hne₁, rfl⟩ := encodeNonidentityPoint_ok h₁
  obtain ⟨-, rfl⟩ := encodeNonidentityPoint_ok hs
  obtain ⟨hne₀', rfl⟩ := encodeNonidentityPoint_ok h₀'
  obtain ⟨hne₁', rfl⟩ := encodeNonidentityPoint_ok h₁'
  obtain ⟨-, rfl⟩ := encodeNonidentityPoint_ok hs'
  have hencode (P Q : G) : (curve.encode P).val.length = (curve.encode Q).val.length :=
    (curve.encode P).property.trans (curve.encode Q).property.symm
  obtain ⟨heq, -⟩ := List.append_inj' heq
    (reveal'.commitmentBlind.property.trans reveal.commitmentBlind.property.symm)
  obtain ⟨heq, -⟩ := List.append_inj' heq (hencode _ _)
  obtain ⟨heq, hlinear⟩ := List.append_inj' heq (hencode _ _)
  obtain ⟨-, hconstant⟩ := List.append_inj' heq (hencode _ _)
  funext i
  fin_cases i
  · exact curve.encode_inj _ _ hne₀ hne₀' (Subtype.ext hconstant.symm)
  · exact curve.encode_inj _ _ hne₁ hne₁' (Subtype.ext hlinear.symm)

/-! ### Two participants -/

section Agreement

variable {execution execution' : ExecutionId} {identifier identifier' : ParticipantId}
  {received received' : Received q G} {key key' : KeyPackage q G}

lemma openingInput_mem_hashed {reveal : Round2Reveal G} {input : Bytes} {i : ℕ}
    (hreveal : received.reveals[i]? = some reveal)
    (hinput : openingInput curve reveal = .ok input) :
    input ∈ hashed curve execution received := by
  refine List.mem_cons_of_mem _ (List.mem_filterMap.mpr ⟨reveal, List.mem_of_getElem? hreveal, ?_⟩)
  rw [hinput]
  rfl

/-- With one digest echoed, the same coefficients have been opened to both. -/
lemma View.coefficients_eq (hv : View curve execution identifier received key)
    (hv' : View curve execution' identifier' received' key')
    (hcollision : ∀ x ∈ hashed curve execution received ++ hashed curve execution' received',
      ∀ y ∈ hashed curve execution received ++ hashed curve execution' received',
        curve.sha256 x = curve.sha256 y → x = y)
    (hecho : expectedEchoDigest curve execution received.commitments =
      expectedEchoDigest curve execution' received'.commitments) :
    received.reveals.map (·.coefficientCommitments) =
      received'.reveals.map (·.coefficientCommitments) := by
  have hinput := hcollision _ (List.mem_append_left _ List.mem_cons_self) _
    (List.mem_append_right _ List.mem_cons_self) hecho
  have hdigests := (echoInput_inj hv.commitments hv'.commitments hinput).2
  apply List.ext_getElem?
  intro n
  rcases lt_or_ge n 3 with hn | hn
  · obtain ⟨commitment, reveal, input, hcommitment, hreveal, hopening, hdigest⟩ :=
      hv.opened ⟨n, hn⟩
    obtain ⟨commitment', reveal', input', hcommitment', hreveal', hopening', hdigest'⟩ :=
      hv'.opened ⟨n, hn⟩
    have hsame : commitment.digest = commitment'.digest := by
      have hget := congrArg (fun l => l[n]?) hdigests
      simpa [hcommitment, hcommitment'] using hget
    obtain rfl := hcollision _ (List.mem_append_left _ (openingInput_mem_hashed hreveal hopening)) _
      (List.mem_append_right _ (openingInput_mem_hashed hreveal' hopening'))
      (hdigest.trans (hsame.trans hdigest'.symm))
    dsimp only at hreveal hreveal'
    rw [List.getElem?_map, List.getElem?_map, hreveal, hreveal', Option.map_some, Option.map_some,
      openingInput_inj hopening hopening']
  · rw [List.getElem?_eq_none (by rwa [List.length_map, hv.reveals]),
      List.getElem?_eq_none (by rwa [List.length_map, hv'.reveals])]

omit [Module (ZMod q) G] [DecidableEq G] in
lemma aggregateCommitments_eq (reveals : List (Round2Reveal G)) (i : Fin 2) :
    aggregateCommitments reveals i =
      (reveals.map (·.coefficientCommitments)).foldl (fun acc c => acc + c i) 0 := by
  rw [List.foldl_map]
  rfl

omit [DecidableEq G] in
/-- A participant of a pair weighs its share against the other's place. -/
lemma weight_otherOf {pair : Ecdsa.SigningPair} (hpair : (pair 0).val < (pair 1).val) (i : Fin 2) :
    (Shamir.weight {pair 0, pair 1} ParticipantId.scalar (pair i) : ZMod q) =
      (Ecdsa.otherOf pair (pair i)).scalar *
        ((Ecdsa.otherOf pair (pair i)).scalar - (pair i).scalar)⁻¹ := by
  have hne : pair 0 ≠ pair 1 := fun h => (h ▸ hpair).false
  match i with
  | 0 => rw [Ecdsa.otherOf, if_pos rfl, Shamir.weight_pair hne]
  | 1 => rw [Ecdsa.otherOf, if_neg hne, Finset.pair_comm, Shamir.weight_pair hne.symm]

lemma toAdditiveSigningShare_ok {pair : Ecdsa.SigningPair} (hpair : (pair 0).val < (pair 1).val)
    {key : KeyPackage q G} {i : Fin 2} (hid : key.identifier = pair i)
    (hkey : key.signingShare • curve.generator = key.verificationShares (pair i).index) :
    ∃ share, Ecdsa.toAdditiveSigningShare curve key pair = .ok share ∧
      share.secretShare =
        Shamir.weight {pair 0, pair 1} ParticipantId.scalar (pair i) * key.signingShare := by
  rw [Ecdsa.toAdditiveSigningShare, Ecdsa.validateSigningPair, guard_of_true hpair, ok_bind, hid]
  dsimp only
  rw [guard_of_true ⟨i, rfl⟩, ok_bind, ← weight_otherOf hpair, guard_of_true]
  · exact ⟨_, rfl, mul_comm _ _⟩
  · rw [mul_comm, mul_smul, hkey]

/-- A pair weighs its shares of the key to the key itself. -/
lemma View.additiveShares (hv : View curve execution identifier received key) (hq : 3 < q)
    {secret : ZMod q} (hsecret : secret • curve.generator = key.groupPublicKey)
    {pair : Ecdsa.SigningPair} (hpair : (pair 0).val < (pair 1).val)
    {keys : Fin 2 → KeyPackage q G} (hid : ∀ i, (keys i).identifier = pair i)
    (hshares : ∀ i, (keys i).verificationShares = key.verificationShares)
    (hkeys : ∀ i, (keys i).signingShare • curve.generator =
      key.verificationShares (pair i).index) :
    ∃ a b, Ecdsa.toAdditiveSigningShare curve (keys 0) pair = .ok a ∧
      Ecdsa.toAdditiveSigningShare curve (keys 1) pair = .ok b ∧
      a.secretShare + b.secretShare = secret := by
  obtain ⟨slope, hslope⟩ := curve.exists_smul_generator (aggregateCommitments received.reveals 1)
  have hshare (i : Fin 2) : (keys i).signingShare =
      (C slope * X + C secret : (ZMod q)[X]).eval (pair i).scalar := by
    rw [← curve.smul_generator_inj, hkeys i, hv.verificationShares, ParticipantId.ofIndex_index,
      ← hslope, ← hv.groupPublicKey, ← hsecret]
    simp only [eval_add, eval_mul, eval_C, eval_X]
    module
  have hne : pair 0 ≠ pair 1 := fun h => (h ▸ hpair).false
  have hsum := Shamir.sum_weight_mul_eval (s := {pair 0, pair 1})
    (f := (C slope * X + C secret : (ZMod q)[X])) (ParticipantId.scalar_injective hq).injOn
    (by rw [Finset.card_pair hne]; exact degree_linear_lt)
  rw [Finset.sum_pair hne, ← hshare, ← hshare] at hsum
  obtain ⟨a, ha, ha'⟩ := toAdditiveSigningShare_ok hpair (hid 0) (by rw [hshares]; exact hkeys 0)
  obtain ⟨b, hb, hb'⟩ := toAdditiveSigningShare_ok hpair (hid 1) (by rw [hshares]; exact hkeys 1)
  refine ⟨a, b, ha, hb, ?_⟩
  rw [ha', hb', hsum]
  simp

/-- Two honest participants that end with matching echo digests hold one group key and the same
verification shares, each holds the share it is verified with, and whatever pair signs, the
weighted shares of the two add up to the secret of the group key. -/
theorem agreement (curve : Secp256k1 q G) (hq : 3 < q) {coins coins' : Coins q}
    {echo echo' : EchoPackage}
    (h : participate curve execution identifier coins received = .ok (echo, key))
    (h' : participate curve execution' identifier' coins' received' = .ok (echo', key'))
    (hecho : echo.digest = echo'.digest)
    (hcollision : ∀ x ∈ hashed curve execution received ++ hashed curve execution' received',
      ∀ y ∈ hashed curve execution received ++ hashed curve execution' received',
        curve.sha256 x = curve.sha256 y → x = y) :
    key.groupPublicKey = key'.groupPublicKey ∧
    key.verificationShares = key'.verificationShares ∧
    (key.identifier = identifier ∧
      key.signingShare • curve.generator = key.verificationShares identifier.index) ∧
    (key'.identifier = identifier' ∧
      key'.signingShare • curve.generator = key'.verificationShares identifier'.index) ∧
    ∃ secret : ZMod q, secret • curve.generator = key.groupPublicKey ∧
      ∀ (pair : Ecdsa.SigningPair) (keys : Fin 2 → KeyPackage q G),
        (pair 0).val < (pair 1).val → (∀ i, (keys i).identifier = pair i) →
        (∀ i, (keys i).verificationShares = key.verificationShares) →
        (∀ i, (keys i).signingShare • curve.generator =
          key.verificationShares (pair i).index) →
        ∃ a b, Ecdsa.toAdditiveSigningShare curve (keys 0) pair = .ok a ∧
          Ecdsa.toAdditiveSigningShare curve (keys 1) pair = .ok b ∧
          a.secretShare + b.secretShare = secret := by
  obtain ⟨hv, hdigest⟩ := participate_ok h
  obtain ⟨hv', hdigest'⟩ := participate_ok h'
  have hcoefficients := hv.coefficients_eq hv' hcollision
    (hdigest.symm.trans (hecho.trans hdigest'))
  have haggregate (i : Fin 2) : aggregateCommitments received.reveals i =
      aggregateCommitments received'.reveals i := by
    rw [aggregateCommitments_eq, aggregateCommitments_eq, hcoefficients]
  refine ⟨?_, ?_, ⟨hv.identifier_eq, hv.signingShare⟩, ⟨hv'.identifier_eq, hv'.signingShare⟩, ?_⟩
  · rw [hv.groupPublicKey, hv'.groupPublicKey, haggregate]
  · funext i
    rw [hv.verificationShares, hv'.verificationShares, haggregate, haggregate]
  · obtain ⟨secret, hsecret⟩ := curve.exists_smul_generator key.groupPublicKey
    exact ⟨secret, hsecret, fun pair keys hpair hid hshares hkeys =>
      hv.additiveShares hq hsecret hpair hid hshares hkeys⟩

end Agreement

/-! ### A run of honest participants -/

/-- The scalars modulo 65537 as the curve, with a remainder as the hash. -/
def smallCurve : Secp256k1 65537 (ZMod 65537) where
  toPrimeGroup := .scalars 65537
  encode P := ⟨toBeBytes 33 P.val, length_toBeBytes 33 P.val⟩
  encode_inj P Q _ _ h := by
    have hlt (R : ZMod 65537) : R.val < 256 ^ 33 := (ZMod.val_lt R).trans (by norm_num)
    have hval := congrArg ofBeBytes (congrArg Subtype.val h)
    rw [ofBeBytes_toBeBytes (hlt P), ofBeBytes_toBeBytes (hlt Q)] at hval
    exact ZMod.val_injective 65537 hval
  sha256 message := bytes32 (ofBeBytes message % (2 ^ 255 - 19))

def smallCoins (i : Fin 3) : Coins 65537 where
  coefficients := ![(![5, 11, 17] i : ℕ), (![7, 13, 19] i : ℕ)]
  coefficients_ne := by revert i; decide
  rid := bytes32 i
  schnorrNonce := (![41, 42, 43] i : ℕ)
  schnorrNonce_ne := by revert i; decide
  commitmentBlind := bytes32 (100 + i)

def smallState (i : Fin 3) : Round1State 65537 (ZMod 65537) where
  identifier := .ofIndex i
  execution := bytes32 1
  coefficients := (smallCoins i).coefficients
  rid := (smallCoins i).rid
  schnorrNonce := (smallCoins i).schnorrNonce
  schnorrCommitment := (smallCoins i).schnorrNonce • smallCurve.generator
  commitmentBlind := (smallCoins i).commitmentBlind

def smallDigest (i : Fin 3) : Bytes32 :=
  match openingDigest smallCurve ((smallState i).reveal smallCurve) with
  | .ok digest => digest
  | .error _   => bytes32 0

def smallCommitments : List Round1Commitment :=
  [0, 1, 2].map fun i => ⟨.ofIndex i, bytes32 1, smallDigest i⟩

/-- What everyone receives in an honest run, up to the proofs. -/
def smallRounds (i : Fin 3) : Received 65537 (ZMod 65537) where
  commitments := smallCommitments
  echoes := [0, 1, 2].map fun j =>
    ⟨.ofIndex j, bytes32 1, expectedEchoDigest smallCurve (bytes32 1) smallCommitments⟩
  reveals := [0, 1, 2].map fun j => (smallState j).reveal smallCurve
  shares := [0, 1, 2].map fun j => ⟨.ofIndex j, .ofIndex i, bytes32 1,
    (smallState j).coefficients 0 +
      (smallState j).coefficients 1 * (ParticipantId.ofIndex i).scalar⟩
  proofs := []

def smallProof (i : Fin 3) : KnowledgeProof 65537 :=
  match round3 smallCurve (smallState i) (smallRounds i).commitments (smallRounds i).echoes
    (smallRounds i).reveals (smallRounds i).shares with
  | .ok pending => pending.localProof
  | .error _    => ⟨.ofIndex i, bytes32 1, 0⟩

def smallReceived (i : Fin 3) : Received 65537 (ZMod 65537) :=
  { smallRounds i with proofs := [0, 1, 2].map smallProof }

def smallKey (i : Fin 3) : Except DkgError (EchoPackage × KeyPackage 65537 (ZMod 65537)) :=
  participate smallCurve (bytes32 1) (.ofIndex i) (smallCoins i) (smallReceived i)

lemma smallKey_ok (i : Fin 3) : ∃ echo key, smallKey i = .ok (echo, key) := by
  have hsome : (smallKey i).toOption.isSome = true := by
    revert i
    decide +kernel
  cases hkey : smallKey i with
  | error e =>
    rw [hkey] at hsome
    cases hsome
  | ok result => exact ⟨result.1, result.2, rfl⟩

/-- The first two participants of an honest run agree. -/
theorem smallKey_agreement : ∃ echo key echo' key', smallKey 0 = .ok (echo, key) ∧
    smallKey 1 = .ok (echo', key') ∧ key.groupPublicKey = key'.groupPublicKey := by
  obtain ⟨echo, key, h⟩ := smallKey_ok 0
  obtain ⟨echo', key', h'⟩ := smallKey_ok 1
  have hecho : echo.digest = echo'.digest :=
    (participate_ok h).2.trans (participate_ok h').2.symm
  exact ⟨echo, key, echo', key', h, h',
    (agreement smallCurve (by norm_num) h h' hecho (by decide +kernel)).1⟩

end Suwappu.MpcSigner.Dkg
