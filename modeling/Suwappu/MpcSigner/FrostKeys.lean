import Suwappu.MpcSigner.FrostDkg

/-!
# Keys that were generated together

Whoever ends with a key under the same commitments holds a share of one polynomial, the sum of those
that were committed to, and signs with the others.
-/

namespace Suwappu.MpcSigner.FrostDkg

open Checked Polynomial Frost

variable {q : ℕ} [Fact q.Prime] {G : Type} [AddCommGroup G] [Module (ZMod q) G] [DecidableEq G]
  {suite : Suite q G} {packages : List (Round1Package q G)} {secret : Round1Secret q}
  {shares inbox : List (Round2Share q)} {share : Round2Share q} {key : KeyPackage suite}

/-- The sum of the committed coefficients of one degree. -/
def sumOf (packages : List (Round1Package q G)) (i : Fin 2) : G :=
  (packages.map fun package => package.commitments i).sum

/-! ### One participant -/

omit [Fact q.Prime] [Module (ZMod q) G] [DecidableEq G] in
lemma foldl_groupKey (packages : List (Round1Package q G)) (acc : G) :
    packages.foldl (fun acc package => acc + package.commitments 0) acc =
      acc + sumOf packages 0 := by
  induction packages generalizing acc with
  | nil => exact (add_zero acc).symm
  | cons package packages ih =>
    rw [List.foldl_cons, ih, sumOf, sumOf, List.map_cons, List.sum_cons, add_assoc]

omit [DecidableEq G] in
lemma foldl_verificationShare (x : ZMod q) (packages : List (Round1Package q G)) (acc : G) :
    packages.foldl (fun acc package => acc + package.commitments 0 + x • package.commitments 1)
      acc = acc + (sumOf packages 0 + x • sumOf packages 1) := by
  induction packages generalizing acc with
  | nil => simp [sumOf]
  | cons package packages ih =>
    rw [List.foldl_cons, ih, sumOf, sumOf, sumOf, sumOf, List.map_cons, List.map_cons,
      List.sum_cons, List.sum_cons, smul_add]
    abel

lemma mapError_ok_iff {α : Type} {x : Except FrostError α} {a : α} :
    x.mapError DkgError.Frost = .ok a ↔ x = .ok a := by
  cases x <;> simp [Except.mapError]

lemma keyPackageFromScalars_ok {identifier : ParticipantIdentifier} {signingShare : ZMod q}
    {verificationShare groupPublicKey : G}
    (h : suite.keyPackageFromScalars identifier signingShare verificationShare groupPublicKey =
      .ok key) :
    key.identifier = identifier ∧ key.signingShare = signingShare ∧
      key.groupPublicKey = groupPublicKey := by
  unfold Suite.keyPackageFromScalars at h
  split_ifs at h
  cases h
  exact ⟨rfl, rfl, rfl⟩

/-- The key of a participant comes from the commitments. -/
lemma finalize_ok (h : finalize suite secret packages shares = .ok key) :
    key.identifier = secret.identifier ∧ key.groupPublicKey = sumOf packages 0 ∧
      key.signingShare • suite.generator =
        sumOf packages 0 + secret.identifier.scalar (q := q) • sumOf packages 1 := by
  simp only [finalize, bind_ok_iff, guard_ok_iff, mapError_ok_iff, foldl_groupKey,
    foldl_verificationShare, zero_add] at h
  obtain ⟨_, -, _, -, ⟨seen, signingShare⟩, -, _, -, _, -, _, hshare, hkey⟩ := h
  obtain ⟨hid, hsigning, hgroup⟩ := keyPackageFromScalars_ok hkey
  rw [hsigning, hgroup]
  exact ⟨hid, rfl, hshare.symm⟩

/-! ### Signing together -/

lemma sharing_of_finalize {ids : List ParticipantIdentifier} (hlength : 2 ≤ ids.length)
    (hsorted : ids.Pairwise fun a b => a.val < b.val)
    {secrets : ParticipantIdentifier → Round1Secret q}
    {inboxes : ParticipantIdentifier → List (Round2Share q)}
    {keys : ParticipantIdentifier → KeyPackage suite}
    (hfinal : ∀ i ∈ ids, (secrets i).identifier = i ∧
      finalize suite (secrets i) packages (inboxes i) = .ok (keys i)) {a b : ZMod q}
    (ha : a • suite.generator = sumOf packages 0) (hb : b • suite.generator = sumOf packages 1) :
    Suite.Sharing suite ids (C b * X + C a) keys where
  length := hlength
  sorted := hsorted
  degree := degree_linear_lt.trans_le (by exact_mod_cast hlength)
  identifier i hi := by
    obtain ⟨hid, hkey⟩ := hfinal i hi
    rw [(finalize_ok hkey).1, hid]
  signingShare i hi := by
    obtain ⟨hid, hkey⟩ := hfinal i hi
    have hshare := (finalize_ok hkey).2.2
    rw [hid, ← ha, ← hb, smul_smul, ← add_smul, suite.smul_generator_inj] at hshare
    rw [hshare, eval_add, eval_mul, eval_C, eval_X, eval_C]
    ring
  groupPublicKey i hi := by
    rw [(finalize_ok (hfinal i hi).2).2.1, ← ha]
    simp

/-- Whoever ends with a key under the same commitments, whatever was sent by whom, holds a share of
the secret of one group key and signs under it with the others. -/
theorem finalized_sign (suite : Suite q G) (hq : 2 ^ 16 ≤ q) (packages : List (Round1Package q G))
    (ids : List ParticipantIdentifier) (hlength : 2 ≤ ids.length)
    (hsorted : ids.Pairwise fun a b => a.val < b.val)
    (secrets : ParticipantIdentifier → Round1Secret q)
    (inboxes : ParticipantIdentifier → List (Round2Share q))
    (keys : ParticipantIdentifier → KeyPackage suite)
    (hfinal : ∀ i ∈ ids, (secrets i).identifier = i ∧
      finalize suite (secrets i) packages (inboxes i) = .ok (keys i)) :
    ∃ secret : ZMod q,
      (∀ i ∈ ids, (keys i).identifier = i ∧ (keys i).groupPublicKey = secret • suite.generator) ∧
      ∑ i ∈ ids.toFinset, Shamir.weight ids.toFinset ParticipantIdentifier.scalar i *
        (keys i).signingShare = secret ∧
      ∀ (nonces : ParticipantIdentifier → SigningNonces q) message,
        let Y := secret • suite.generator
        let commitmentList := suite.honestList nonces ids
        suite.sumCommitments Y commitmentList message 0 commitmentList ≠ .ok 0 →
        ∃ (shares : ParticipantIdentifier → SignatureShare q) (signature : FrostSignature q G),
          (∀ i ∈ ids, suite.signShare (keys i) (nonces i) message commitmentList =
            .ok (shares i)) ∧
          suite.aggregate (suite.compress Y) message commitmentList
            (ids.map fun i => (keys i).verificationShare) (ids.map shares) = .ok signature ∧
          suite.Valid Y message signature := by
  obtain ⟨a, ha⟩ := suite.exists_smul_generator (sumOf packages 0)
  obtain ⟨b, hb⟩ := suite.exists_smul_generator (sumOf packages 1)
  have hs := sharing_of_finalize hlength hsorted hfinal ha hb
  have hzero : (C b * X + C a).eval 0 = a := by simp
  refine ⟨a, fun i hi => ⟨hs.identifier i hi, ?_⟩, ?_, ?_⟩
  · rw [hs.groupPublicKey i hi, hzero]
  · have hsum := Shamir.sum_weight_mul_eval (s := ids.toFinset)
      (x := ParticipantIdentifier.scalar (q := q)) (f := C b * X + C a)
      (Suite.scalar_injective hq).injOn (by
        rw [List.toFinset_card_of_nodup (hsorted.imp fun hlt heq => (heq ▸ hlt).false)]
        exact hs.degree)
    rw [← hzero, ← hsum]
    refine Finset.sum_congr rfl fun i hi => ?_
    rw [hs.signingShare i (List.mem_toFinset.mp hi)]
  · intro nonces message Y commitmentList hne
    have hsigns := (Suite.signing_complete_and_sound suite hq).1 ids _ keys nonces message hs
    rw [hzero] at hsigns
    obtain ⟨shares, hshares, hall⟩ := hsigns hne
    obtain ⟨signature, haggregate, hvalid⟩ := hall _ _ (.refl _) (.refl _)
    exact ⟨shares, signature, fun i hi => (hshares i hi).1, haggregate, hvalid⟩

/-! ### Honest participants -/

/-- The participants, in order. -/
def participant (i : Fin 3) : ParticipantIdentifier := ⟨i.val + 1, by omega, by omega⟩

lemma participant_injective : Function.Injective participant := by decide

/-- What an honest participant keeps and sends in the first round. -/
def secretOf (coins : Coins q) (i : Fin 3) : Round1Secret q := ⟨participant i, coins.coefficients⟩

omit [DecidableEq G] in
def dealtPackage (suite : Suite q G) (coins : Coins q) (i : Fin 3) : Round1Package q G :=
  let commitments (j : Fin 2) := coins.coefficients j • suite.generator
  let challenge := proofChallenge suite (participant i) commitments (coins.nonce • suite.generator)
  ⟨participant i, commitments, coins.nonce • suite.generator,
    coins.nonce + challenge * coins.coefficients 0⟩

/-- The share of participant `i` for participant `j`. -/
def dealtShare (coins : Coins q) (i j : Fin 3) : Round2Share q where
  sender := participant i
  recipient := participant j
  value := coins.coefficients 0 + coins.coefficients 1 * (participant j).scalar

lemma validateIdentifier_participant (i : Fin 3) : validateIdentifier (participant i) = .ok () :=
  guard_of_true (by revert i; decide)

omit [DecidableEq G] in
lemma round1_participant (coins : Coins q) (i : Fin 3) :
    round1 suite (participant i) coins = .ok (secretOf coins i, dealtPackage suite coins i) := by
  rw [round1, validateIdentifier_participant]
  rfl

variable {coins : Fin 3 → Coins q} {i j : Fin 3}

/-- The packages of honest participants. -/
def dealt (suite : Suite q G) (coins : Fin 3 → Coins q) : List (Round1Package q G) :=
  List.ofFn fun i => dealtPackage suite (coins i) i

lemma verifyProof_dealt (coins : Coins q) (i : Fin 3) :
    verifyProof suite (dealtPackage suite coins i) = .ok () := by
  refine guard_of_true ?_
  dsimp only [dealtPackage]
  rw [add_smul, mul_smul]

/-- Nothing that is dealt is the identity. -/
lemma validateElement_dealt {s : ZMod q} (hs : s ≠ 0) :
    (Suite.validateElement (s • suite.generator)).mapError DkgError.Frost = .ok () :=
  mapError_ok_iff.mpr (guard_of_true (mt suite.smul_generator_eq_zero.mp hs))

lemma validatePackages_dealt (coins : Coins q) (i : Fin 3) (seen : List ParticipantIdentifier)
    (hseen : participant i ∉ seen) (rest : List (Round1Package q G × ℕ)) :
    validatePackages suite seen ((dealtPackage suite coins i, i.val + 1) :: rest) =
      validatePackages suite (participant i :: seen) rest := by
  have hid : (dealtPackage suite coins i).identifier = participant i := rfl
  rw [validatePackages, hid, guard_of_true ⟨rfl, hseen⟩, ok_bind]
  simp only [dealtPackage]
  rw [validateElement_dealt (coins.coefficients_ne 0), ok_bind,
    validateElement_dealt (coins.coefficients_ne 1), ok_bind,
    validateElement_dealt coins.nonce_ne, ok_bind]
  exact congrArg (· >>= _) (verifyProof_dealt coins i)

lemma validate_dealt (coins : Fin 3 → Coins q) :
    validateRound1Packages suite (dealt suite coins) = .ok () := by
  have hzip : (dealt suite coins).zip [1, 2, 3] =
      [(dealtPackage suite (coins 0) 0, (0 : Fin 3).val + 1),
        (dealtPackage suite (coins 1) 1, (1 : Fin 3).val + 1),
        (dealtPackage suite (coins 2) 2, (2 : Fin 3).val + 1)] := rfl
  have hlength : (dealt suite coins).length = PARTICIPANT_COUNT := List.length_ofFn
  rw [validateRound1Packages, guard_of_true hlength, ok_bind, hzip,
    validatePackages_dealt _ _ _ (by decide), validatePackages_dealt _ _ _ (by decide),
    validatePackages_dealt _ _ _ (by decide), validatePackages]

omit [DecidableEq G] in
lemma packageOf_dealt (coins : Fin 3 → Coins q) (i : Fin 3) (e : DkgError) :
    packageOf (dealt suite coins) (participant i) e = .ok (dealtPackage suite (coins i) i) := by
  fin_cases i <;> rfl

omit [DecidableEq G] in
lemma sumOf_dealt (coins : Fin 3 → Coins q) (k : Fin 2) :
    sumOf (dealt suite coins) k = (∑ i, (coins i).coefficients k) • suite.generator := by
  rw [sumOf, dealt, List.map_ofFn, List.sum_ofFn, Finset.sum_smul]
  rfl

/-! ### What is accepted -/

/-- A share that passes its checks. -/
def Accepted (suite : Suite q G) (packages : List (Round1Package q G))
    (identifier : ParticipantIdentifier) (share : Round2Share q) : Prop :=
  share.recipient = identifier ∧
    ∃ package, packageOf packages share.sender .InvalidShareSet = .ok package ∧
      verifyRound2Share suite share package = .ok ()

lemma acceptShares_ok_iff {identifier : ParticipantIdentifier}
    {seen seen' : List ParticipantIdentifier} {acc sum : ZMod q} :
    acceptShares suite packages identifier seen acc inbox = .ok (seen', sum) ↔
      (∀ share ∈ inbox, Accepted suite packages identifier share ∧ share.sender ∉ seen) ∧
        (inbox.map (·.sender)).Nodup ∧ seen' = (inbox.map (·.sender)).reverse ++ seen ∧
          sum = acc + (inbox.map (·.value)).sum := by
  induction inbox generalizing seen acc with
  | nil => simp [acceptShares, eq_comm]
  | cons share inbox ih =>
    simp only [acceptShares, bind_ok_iff, guard_ok_iff, ih]
    rw [List.forall_mem_cons, List.map_cons, List.map_cons, List.nodup_cons, List.reverse_cons,
      List.append_assoc, List.singleton_append, List.sum_cons, ← add_assoc]
    constructor
    · rintro ⟨_, hrecipient, _, hfresh, package, hpackage, _, hverify, hall, hnodup, hseen, hsum⟩
      refine ⟨⟨⟨⟨hrecipient, package, hpackage, hverify⟩, hfresh⟩, fun share' hshare' => ?_⟩,
        ⟨fun hmem => ?_, hnodup⟩, hseen, hsum⟩
      · exact ⟨(hall share' hshare').1, List.not_mem_of_not_mem_cons (hall share' hshare').2⟩
      · obtain ⟨share', hshare', hsame⟩ := List.mem_map.mp hmem
        exact (hall share' hshare').2 (hsame ▸ List.mem_cons_self)
    · rintro ⟨⟨⟨⟨hrecipient, package, hpackage, hverify⟩, hfresh⟩, hall⟩, ⟨hfirst, hnodup⟩, hrest⟩
      refine ⟨(), hrecipient, (), hfresh, package, hpackage, (), hverify, fun share' hshare' => ?_,
        hnodup, hrest⟩
      refine ⟨(hall share' hshare').1, fun hmem => ?_⟩
      rcases List.mem_cons.mp hmem with hsame | hmem
      · exact hfirst (hsame ▸ List.mem_map_of_mem hshare')
      · exact (hall share' hshare').2 hmem

lemma verifyRound2Share_dealt_iff (coins : Coins q) (i j : Fin 3) (value : ZMod q) :
    verifyRound2Share suite ⟨participant i, participant j, value⟩ (dealtPackage suite coins i) =
      .ok () ↔ value = (dealtShare coins i j).value := by
  have hsender : (⟨participant i, participant j, value⟩ : Round2Share q).sender =
    (dealtPackage suite coins i).identifier := rfl
  rw [verifyRound2Share, guard_of_true hsender, ok_bind, validateIdentifier_participant, ok_bind,
    guard_ok_iff]
  dsimp only [dealtPackage, dealtShare]
  rw [smul_smul, ← add_smul, suite.smul_generator_inj, mul_comm]

omit [DecidableEq G] in
lemma packageOf_ok {identifier : ParticipantIdentifier} {e : DkgError}
    {package : Round1Package q G}
    (h : packageOf (dealt suite coins) identifier e = .ok package) :
    ∃ i, identifier = participant i ∧ package = dealtPackage suite (coins i) i := by
  cases hfind : (dealt suite coins).find? fun package => package.identifier = identifier with
  | none =>
    rw [packageOf, hfind] at h
    cases h
  | some found =>
    rw [packageOf, hfind] at h
    cases h
    have hid : package.identifier = identifier := by simpa using List.find?_some hfind
    obtain ⟨i, rfl⟩ := List.mem_ofFn.mp (List.mem_of_find?_eq_some hfind)
    exact ⟨i, hid.symm, rfl⟩

/-- From honest dealers only the shares they dealt are accepted. -/
lemma accepted_dealt_iff {share : Round2Share q} :
    Accepted suite (dealt suite coins) (participant j) share ↔
      ∃ i, share = dealtShare (coins i) i j := by
  constructor
  · rintro ⟨hrecipient, package, hpackage, hverify⟩
    obtain ⟨i, hsender, rfl⟩ := packageOf_ok hpackage
    obtain ⟨sender, recipient, value⟩ := share
    obtain rfl : sender = participant i := hsender
    obtain rfl : recipient = participant j := hrecipient
    rw [(verifyRound2Share_dealt_iff (coins i) i j value).mp hverify]
    exact ⟨i, rfl⟩
  · rintro ⟨i, rfl⟩
    exact ⟨rfl, dealtPackage suite (coins i) i, packageOf_dealt coins i _,
      (verifyRound2Share_dealt_iff (coins i) i j _).mpr rfl⟩

lemma perm_iff {α : Type} {l : List α} {f : Fin 3 → α} (hf : Function.Injective f) :
    l.Perm (List.ofFn f) ↔ (∀ a ∈ l, ∃ i, a = f i) ∧ l.Nodup ∧ l.length = 3 := by
  constructor
  · intro h
    refine ⟨fun a ha => ?_, h.nodup_iff.mpr (List.nodup_ofFn.mpr hf), ?_⟩
    · obtain ⟨i, rfl⟩ := List.mem_ofFn.mp (h.mem_iff.mp ha)
      exact ⟨i, rfl⟩
    · rw [h.length_eq, List.length_ofFn]
  · rintro ⟨hall, hnodup, hlength⟩
    refine (hnodup.subperm fun a ha => ?_).perm_of_length_le (by rw [List.length_ofFn, hlength])
    obtain ⟨i, rfl⟩ := hall a ha
    exact List.mem_ofFn.mpr ⟨i, rfl⟩

/-- An inbox of honest dealers is accepted where it holds what they dealt, in any order. -/
lemma acceptShares_dealt_iff (suite : Suite q G) {seen : List ParticipantIdentifier}
    {sum : ZMod q} :
    inbox.length = PARTICIPANT_COUNT ∧
        acceptShares suite (dealt suite coins) (participant j) [] 0 inbox = .ok (seen, sum) ↔
      inbox.Perm (List.ofFn fun i => dealtShare (coins i) i j) ∧
        seen = (inbox.map (·.sender)).reverse ∧
          sum = ∑ i, (dealtShare (coins i) i j).value := by
  have hinj : Function.Injective fun i => dealtShare (coins i) i j := fun a b hab =>
    participant_injective (congrArg Round2Share.sender hab)
  rw [acceptShares_ok_iff, perm_iff hinj]
  simp only [accepted_dealt_iff, List.not_mem_nil, not_false_eq_true, and_true, List.append_nil,
    zero_add]
  constructor
  · rintro ⟨hlength, hall, hnodup, hseen, hsum⟩
    have hperm := (perm_iff hinj).mpr ⟨hall, hnodup.of_map _, hlength⟩
    refine ⟨⟨hall, hnodup.of_map _, hlength⟩, hseen, ?_⟩
    rw [hsum, (hperm.map _).sum_eq, List.map_ofFn, List.sum_ofFn]
    rfl
  · rintro ⟨⟨hall, hnodup, hlength⟩, hseen, hsum⟩
    have hperm := (perm_iff hinj).mpr ⟨hall, hnodup, hlength⟩
    refine ⟨hlength, hall, ?_, hseen, ?_⟩
    · rw [(hperm.map _).nodup_iff, List.map_ofFn]
      exact List.nodup_ofFn.mpr participant_injective
    · rw [hsum, (hperm.map _).sum_eq, List.map_ofFn, List.sum_ofFn]
      rfl

lemma exists_keyPackage_iff (identifier : ParticipantIdentifier) {signingShare : ZMod q}
    {verificationShare groupPublicKey : G} :
    (∃ key, suite.keyPackageFromScalars identifier signingShare verificationShare groupPublicKey =
      .ok key) ↔ verificationShare ≠ 0 ∧ groupPublicKey ≠ 0 ∧
        signingShare • suite.generator = verificationShare := by
  unfold Suite.keyPackageFromScalars
  split_ifs <;> simp [*]

lemma finalize_dealt_iff (suite : Suite q G) (coins : Fin 3 → Coins q) (j : Fin 3)
    (inbox : List (Round2Share q)) :
    (∃ key, finalize suite (secretOf (coins j) j) (dealt suite coins) inbox = .ok key) ↔
      inbox.Perm (List.ofFn fun i => dealtShare (coins i) i j) ∧
        ∑ i, (coins i).coefficients 0 ≠ 0 ∧ ∑ i, (dealtShare (coins i) i j).value ≠ 0 := by
  have hsum : ∑ i, (dealtShare (coins i) i j).value = ∑ i, (coins i).coefficients 0 +
      (participant j).scalar * ∑ i, (coins i).coefficients 1 := by
    simp only [dealtShare, Finset.sum_add_distrib, Finset.mul_sum, mul_comm]
  have hverification : (∑ i, (coins i).coefficients 0) • suite.generator +
      (participant j).scalar (q := q) • (∑ i, (coins i).coefficients 1) • suite.generator =
        (∑ i, (dealtShare (coins i) i j).value) • suite.generator := by
    rw [smul_smul, ← add_smul, hsum]
  have hid : (secretOf (coins j) j).identifier = participant j := rfl
  simp only [finalize, hid, bind_ok_iff, guard_ok_iff, mapError_ok_iff, foldl_groupKey,
    foldl_verificationShare, zero_add, hverification, sumOf_dealt, validate_dealt,
    Suite.validateElement, Ne, suite.smul_generator_eq_zero]
  constructor
  · rintro ⟨key, _, -, _, hlength, ⟨seen, sum⟩, haccept, _, -, _, hgroup, _, -, hkey⟩
    obtain ⟨hperm, -, -⟩ := (acceptShares_dealt_iff suite).mp ⟨hlength, haccept⟩
    have hshare := ((exists_keyPackage_iff _).mp ⟨key, hkey⟩).1
    exact ⟨hperm, hgroup, fun hzero => hshare (by rw [hzero, zero_smul])⟩
  · rintro ⟨hperm, hgroup, hshare⟩
    obtain ⟨hlength, haccept⟩ := (acceptShares_dealt_iff suite).mpr ⟨hperm, rfl, rfl⟩
    obtain ⟨key, hkey⟩ := (exists_keyPackage_iff (participant j)).mpr
      ⟨mt suite.smul_generator_eq_zero.mp hshare, mt suite.smul_generator_eq_zero.mp hgroup, rfl⟩
    refine ⟨key, (), trivial, (), hlength, _, haccept, (), ?_, (), hgroup, (), rfl, hkey⟩
    rw [List.length_reverse, List.length_map, hlength]

/-- Honest participants accept each other's packages and shares, and end with a key from exactly the
shares that were dealt to them, in any order, unless the group key or their own share of it
vanishes. -/
theorem honest_completes (suite : Suite q G) (coins : Fin 3 → Coins q) :
    ∃ (secrets : Fin 3 → Round1Secret q) (packages : Fin 3 → Round1Package q G)
      (shares : Fin 3 → Fin 3 → Round2Share q),
      (∀ i, round1 suite (participant i) (coins i) = .ok (secrets i, packages i)) ∧
      (∀ i j, round2Share suite (secrets i) (List.ofFn packages) (participant j) =
          .ok (shares i j) ∧
        verifyRound2Share suite (shares i j) (packages i) = .ok ()) ∧
      ∀ j inbox, (∃ key, finalize suite (secrets j) (List.ofFn packages) inbox = .ok key) ↔
        inbox.Perm (List.ofFn fun i => shares i j) ∧
        ∑ i, (coins i).coefficients 0 ≠ 0 ∧
        ∑ i, ((coins i).coefficients 0 +
          (coins i).coefficients 1 * (participant j).scalar) ≠ 0 := by
  refine ⟨fun i => secretOf (coins i) i, fun i => dealtPackage suite (coins i) i,
    fun i j => dealtShare (coins i) i j, fun i => round1_participant (coins i) i,
    fun i j => ⟨?_, (verifyRound2Share_dealt_iff (coins i) i j _).mpr rfl⟩, fun j inbox => ?_⟩
  · change round2Share suite _ (dealt suite coins) _ = _
    rw [round2Share, validate_dealt, ok_bind, validateIdentifier_participant, ok_bind]
    change (packageOf (dealt suite coins) (participant i) _ >>= _) = _
    rw [packageOf_dealt, ok_bind, guard_of_true (by simp [dealtPackage, secretOf])]
    rfl
  · exact finalize_dealt_iff suite coins j inbox

def smallCoins (i : Fin 3) : Coins 65537 where
  coefficients := ![(![3, 8, 21] i : ℕ), (![9, 14, 25] i : ℕ)]
  coefficients_ne := by revert i; decide
  nonce := (![51, 52, 53] i : ℕ)
  nonce_ne := by revert i; decide

/-- Participants 1 and 3 of an honest run. -/
theorem finalized_sign_pair :
    ∃ (keys : ParticipantIdentifier → KeyPackage smallSuite) (secret : ZMod 65537),
      ∀ i ∈ [participant 0, participant 2],
        (keys i).identifier = i ∧ (keys i).groupPublicKey = secret • smallSuite.generator := by
  have hkey (j : Fin 3) := (finalize_dealt_iff smallSuite smallCoins j _).mpr
    ⟨.refl _, by decide, by revert j; decide⟩
  choose keys hkeys using hkey
  let index (i : ParticipantIdentifier) : Fin 3 := if i = participant 0 then 0 else 2
  obtain ⟨secret, hsecret, -⟩ := finalized_sign smallSuite (by norm_num)
    (dealt smallSuite smallCoins) [participant 0, participant 2] (by decide) (by decide)
    (fun i => secretOf (smallCoins (index i)) (index i))
    (fun i => List.ofFn fun k => dealtShare (smallCoins k) k (index i)) (fun i => keys (index i))
    fun i hi => by
      refine ⟨?_, hkeys (index i)⟩
      rcases List.mem_pair.mp hi with rfl | rfl <;> rfl
  exact ⟨fun i => keys (index i), secret, hsecret⟩

/-- The first participant of that run ends with a key. -/
theorem honest_completes_small :
    ∃ (secrets : Fin 3 → Round1Secret 65537) (packages : Fin 3 → Round1Package 65537 (ZMod 65537))
      (inbox : List (Round2Share 65537)),
      ∃ key, finalize smallSuite (secrets 0) (List.ofFn packages) inbox = .ok key := by
  obtain ⟨secrets, packages, shares, -, -, hfinal⟩ := honest_completes smallSuite smallCoins
  exact ⟨secrets, packages, _, (hfinal 0 _).mpr ⟨.refl _, by decide, by decide⟩⟩

end Suwappu.MpcSigner.FrostDkg
