import Suwappu.Lib.Shamir
import Suwappu.MpcSigner.Frost

/-!
# Completeness and soundness of FROST signing

Honest signers with shares of one secret answer with shares that pass their checks and add up to a
signature under the group key. Whatever the shares are, what `aggregate` returns is a signature
under the group key.
-/

namespace Suwappu.MpcSigner.Frost

open Checked Polynomial Std

variable {q : ℕ} [Fact q.Prime] {G : Type} [AddCommGroup G] [Module (ZMod q) G]

namespace Suite

variable {suite : Suite q G} {Y : G} {message : Bytes} {id : ParticipantIdentifier}
  {commitmentList : List (ParticipantCommitment G)}

/-- The Schnorr equation under the key `Y`. -/
def Valid (suite : Suite q G) (Y : G) (message : Bytes) (signature : FrostSignature q G) : Prop :=
  signature.response • suite.generator =
    signature.commitment + suite.computeChallenge signature.commitment Y message • Y

/-- A list that passes its checks. -/
structure Listed (commitmentList : List (ParticipantCommitment G)) : Prop where
  length : 2 ≤ commitmentList.length
  elements : ∀ entry ∈ commitmentList,
    entry.commitments.hidingPoint ≠ 0 ∧ entry.commitments.bindingPoint ≠ 0
  sorted : commitmentList.Pairwise fun a b => a.identifier.val < b.identifier.val

lemma Listed.nodup (hl : Listed commitmentList) :
    (commitmentList.map (·.identifier)).Nodup :=
  List.pairwise_map.mpr (hl.sorted.imp fun hlt heq => (heq ▸ hlt).false)

/-- The value of a binding factor that is computed. -/
def bindingFactorOf (suite : Suite q G) (Y : G) (commitmentList : List (ParticipantCommitment G))
    (message : Bytes) (id : ParticipantIdentifier) : ZMod q :=
  suite.h1 (suite.compress Y ++ suite.h4 message ++
    suite.h5 (commitmentList.flatMap suite.encodeEntry) ++ suite.serialize id)

/-- What an entry adds to the group commitment. -/
def commitmentShare (suite : Suite q G) (Y : G) (commitmentList : List (ParticipantCommitment G))
    (message : Bytes) (entry : ParticipantCommitment G) : G :=
  entry.commitments.hidingPoint +
    suite.bindingFactorOf Y commitmentList message entry.identifier •
      entry.commitments.bindingPoint

/-- What the identifier counts for among those of the list. -/
def interpolatingValue (commitmentList : List (ParticipantCommitment G))
    (id : ParticipantIdentifier) : ZMod q :=
  Shamir.weight (commitmentList.map (·.identifier)).toFinset ParticipantIdentifier.scalar id

/-- Identifiers are below the order, so they are different scalars. -/
lemma scalar_injective (hq : 2 ^ 16 ≤ q) :
    Function.Injective (ParticipantIdentifier.scalar (q := q)) := by
  intro a b h
  have h' : a.val % q = b.val % q := (ZMod.natCast_eq_natCast_iff' _ _ _).mp h
  rw [Nat.mod_eq_of_lt (a.property.2.trans_le hq), Nat.mod_eq_of_lt (b.property.2.trans_le hq)]
    at h'
  exact Subtype.ext h'

/-! ### The products of an interpolating value -/

omit [AddCommGroup G] [Module (ZMod q) G] in
lemma foldl_interpolationStep (products : ZMod q × ZMod q) :
    commitmentList.foldl (interpolationStep id) products =
      (products.1 * (((commitmentList.map (·.identifier)).filter (· ≠ id)).map
          fun j => ParticipantIdentifier.scalar j).prod,
        products.2 * (((commitmentList.map (·.identifier)).filter (· ≠ id)).map
          fun j => ParticipantIdentifier.scalar j - ParticipantIdentifier.scalar id).prod) := by
  induction commitmentList generalizing products with
  | nil => simp
  | cons entry entries ih =>
    rw [List.foldl_cons, ih, List.map_cons]
    by_cases heq : entry.identifier = id
    · rw [List.filter_cons_of_neg (by simpa using heq), interpolationStep, if_pos heq]
    · rw [List.filter_cons_of_pos (by simpa using heq), interpolationStep, if_neg heq]
      simp only [List.map_cons, List.prod_cons, mul_assoc]

lemma prod_filter_ne {l : List ParticipantIdentifier} (hl : l.Nodup)
    (f : ParticipantIdentifier → ZMod q) :
    ((l.filter (· ≠ id)).map f).prod = ∏ j ∈ l.toFinset.erase id, f j := by
  rw [← List.prod_toFinset f (hl.filter _), List.toFinset_filter]
  refine Finset.prod_congr ?_ fun _ _ => rfl
  ext j
  simp [and_comm]

variable [DecidableEq G]

/-! ### What the checks let through -/

lemma deserializeElement_compress (hY : Y ≠ 0) :
    suite.deserializeElement (suite.compress Y) = .ok Y := by
  rw [deserializeElement, suite.decompress_compress]
  simp [validateElement, hY]

lemma deserializeElement_ok {encoded : Bytes} (h : suite.deserializeElement encoded = .ok Y) :
    suite.compress Y = encoded ∧ Y ≠ 0 := by
  unfold deserializeElement at h
  cases hpoint : suite.decompress encoded with
  | none => simp [hpoint] at h
  | some point =>
    simp only [hpoint, bind_ok_iff, validateElement, guard_ok_iff, pure_ok_iff] at h
    obtain ⟨-, hencoded, -, hne, rfl⟩ := h
    exact ⟨hencoded, hne⟩

lemma validateEntries_ok {prior : Option ParticipantIdentifier}
    {seen : List ParticipantIdentifier}
    (helements : ∀ entry ∈ commitmentList,
      entry.commitments.hidingPoint ≠ 0 ∧ entry.commitments.bindingPoint ≠ 0)
    (hsorted : commitmentList.Pairwise fun a b => a.identifier.val < b.identifier.val)
    (hprior : ∀ priorId ∈ prior, ∀ entry ∈ commitmentList, priorId.val < entry.identifier.val)
    (hseen : ∀ seenId ∈ seen, ∀ entry ∈ commitmentList, seenId.val < entry.identifier.val) :
    validateEntries prior seen commitmentList = .ok () := by
  induction commitmentList generalizing prior seen with
  | nil => rfl
  | cons entry entries ih =>
    obtain ⟨⟨hhiding, hbinding⟩, helements⟩ := List.forall_mem_cons.mp helements
    obtain ⟨hlt, hsorted⟩ := List.pairwise_cons.mp hsorted
    have hfresh : entry.identifier ∉ seen := fun hmem =>
      (hseen _ hmem entry List.mem_cons_self).false
    rw [validateEntries, validateElement, guard_of_true hhiding, validateElement,
      guard_of_true hbinding, guard_of_true fun p hp => hprior p hp entry List.mem_cons_self,
      guard_of_true hfresh]
    refine ih helements hsorted (fun p hp => ?_) fun s hs e he => ?_
    · rw [Option.mem_def, Option.some.injEq] at hp
      exact hp ▸ hlt
    · rcases List.mem_cons.mp hs with rfl | hs
      · exact hlt e he
      · exact hseen s hs e (List.mem_cons_of_mem _ he)

lemma Listed.validate (hl : Listed commitmentList) :
    validateCommitmentList commitmentList = .ok () := by
  rw [validateCommitmentList, guard_of_true hl.length]
  exact validateEntries_ok hl.elements hl.sorted (by simp) (by simp)

omit [DecidableEq G] in
lemma Listed.entryOf (hl : Listed commitmentList) {entry : ParticipantCommitment G}
    (h : entry ∈ commitmentList) : entryOf commitmentList entry.identifier = .ok entry := by
  have hfind : commitmentList.find? (fun e => e.identifier = entry.identifier) = some entry := by
    obtain ⟨before, after, rfl⟩ := List.append_of_mem h
    rw [List.find?_append, List.find?_eq_none.mpr, Option.none_or, List.find?_cons_of_pos (by simp)]
    intro e he
    have hlt := (List.pairwise_append.mp hl.sorted).2.2 e he entry List.mem_cons_self
    simpa using fun heq => (heq ▸ hlt).false
  rw [Suite.entryOf, hfind]

lemma Listed.bindingFactor (hl : Listed commitmentList) (hY : Y ≠ 0)
    (hid : ∃ entry ∈ commitmentList, entry.identifier = id) :
    suite.bindingFactor Y commitmentList message id =
      .ok (suite.bindingFactorOf Y commitmentList message id) := by
  rw [Suite.bindingFactor, bindingFactorInput, validateElement, guard_of_true hY,
    guard_of_true hid, encodeCommitmentList, hl.validate]
  rfl

variable (suite message) in
lemma Listed.sumCommitments (hl : Listed commitmentList) (hY : Y ≠ 0) (acc : G)
    {entries : List (ParticipantCommitment G)} (hsub : entries ⊆ commitmentList) :
    suite.sumCommitments Y commitmentList message acc entries =
      .ok (acc + (entries.map (suite.commitmentShare Y commitmentList message)).sum) := by
  induction entries generalizing acc with
  | nil => simp [Suite.sumCommitments]
  | cons entry entries ih =>
    rw [Suite.sumCommitments, hl.bindingFactor hY ⟨entry, hsub List.mem_cons_self, rfl⟩, ok_bind,
      ih _ (List.subset_of_cons_subset hsub), List.map_cons, List.sum_cons, add_assoc]
    rfl

omit [Module (ZMod q) G] in
lemma Listed.interpolatingValue (hl : Listed commitmentList)
    (hid : ∃ entry ∈ commitmentList, entry.identifier = id) :
    deriveInterpolatingValue commitmentList id =
      .ok (Suite.interpolatingValue commitmentList id : ZMod q) := by
  rw [deriveInterpolatingValue, hl.validate, ok_bind, guard_of_true hid, ok_bind,
    foldl_interpolationStep, prod_filter_ne hl.nodup, prod_filter_ne hl.nodup, one_mul, one_mul]
  rfl

/-! ### Honest signers -/

/-- The commitments of signers with these nonces. -/
def honestList (suite : Suite q G) (nonces : ParticipantIdentifier → SigningNonces q)
    (ids : List ParticipantIdentifier) : List (ParticipantCommitment G) :=
  ids.map fun i => ⟨i, suite.commitTo (nonces i)⟩

omit [DecidableEq G] in
/-- What signers commit to with their randomness is such a list. -/
theorem map_commitWithRandomness {ids : List ParticipantIdentifier}
    {shares : ParticipantIdentifier → ZMod q}
    {hidingRandomness bindingRandomness : ParticipantIdentifier → Bytes}
    {nonces : ParticipantIdentifier → SigningNonces q}
    {commitments : ParticipantIdentifier → SigningCommitments G}
    (h : ∀ i ∈ ids, suite.commitWithRandomness (shares i) (hidingRandomness i)
      (bindingRandomness i) = some (nonces i, commitments i)) :
    ids.map (fun i => ⟨i, commitments i⟩) = suite.honestList nonces ids := by
  refine List.map_congr_left fun i hi => congrArg _ ?_
  have hcommit := h i hi
  simp only [commitWithRandomness, Option.dite_none_right_eq_some, Option.some.injEq,
    Prod.mk.injEq] at hcommit
  obtain ⟨_, hnonces, hcommitments⟩ := hcommit
  rw [← hcommitments, hnonces]

/-- The participants hold the values of `f`, a sharing of its value at zero. -/
structure Sharing (suite : Suite q G) (ids : List ParticipantIdentifier) (f : (ZMod q)[X])
    (packages : ParticipantIdentifier → KeyPackage suite) : Prop where
  length : 2 ≤ ids.length
  sorted : ids.Pairwise fun a b => a.val < b.val
  degree : f.degree < ids.length
  identifier : ∀ i ∈ ids, (packages i).identifier = i
  signingShare : ∀ i ∈ ids, (packages i).signingShare = f.eval i.scalar
  groupPublicKey : ∀ i ∈ ids, (packages i).groupPublicKey = f.eval 0 • suite.generator

variable {ids : List ParticipantIdentifier} {f : (ZMod q)[X]}
  {packages : ParticipantIdentifier → KeyPackage suite}
  {nonces : ParticipantIdentifier → SigningNonces q}

omit [DecidableEq G] in
lemma map_identifier_honestList :
    (suite.honestList nonces ids).map (·.identifier) = ids := by
  rw [honestList, List.map_map]
  exact List.map_id ids

variable (suite nonces) in
omit [DecidableEq G] in
lemma mem_honestList {i : ParticipantIdentifier} (hi : i ∈ ids) :
    ⟨i, suite.commitTo (nonces i)⟩ ∈ suite.honestList nonces ids :=
  List.mem_map_of_mem hi

omit [DecidableEq G] in
lemma Sharing.listed (hs : Sharing suite ids f packages) :
    Listed (suite.honestList nonces ids) where
  length := by simpa [honestList] using hs.length
  elements entry hentry := by
    obtain ⟨i, -, rfl⟩ := List.mem_map.mp hentry
    exact ⟨mt suite.smul_generator_eq_zero.mp (nonces i).hiding_ne,
      mt suite.smul_generator_eq_zero.mp (nonces i).binding_ne⟩
  sorted := List.pairwise_map.mpr hs.sorted

omit [DecidableEq G] in
lemma Sharing.key_ne (hs : Sharing suite ids f packages) : f.eval 0 • suite.generator ≠ 0 := by
  obtain ⟨i, hi⟩ := List.exists_mem_of_length_pos (zero_lt_two.trans_le hs.length)
  rw [← hs.groupPublicKey i hi]
  exact (packages i).key_ne

/-- The share of an honest signer, given the group commitment. -/
def honestShare (suite : Suite q G) (ids : List ParticipantIdentifier) (f : (ZMod q)[X])
    (nonces : ParticipantIdentifier → SigningNonces q) (message : Bytes) (R : G)
    (i : ParticipantIdentifier) : SignatureShare q where
  identifier := i
  scalar := (nonces i).hidingNonce +
    (nonces i).bindingNonce * suite.bindingFactorOf (f.eval 0 • suite.generator)
      (suite.honestList nonces ids) message i +
    interpolatingValue (suite.honestList nonces ids) i * f.eval i.scalar *
      suite.computeChallenge R (f.eval 0 • suite.generator) message

variable {R : G}

omit [DecidableEq G] in
@[simp] lemma honestShare_identifier (i : ParticipantIdentifier) :
    (suite.honestShare ids f nonces message R i).identifier = i := rfl

/-- The group commitment, where it is not the identity. -/
lemma Sharing.groupCommitment (hs : Sharing suite ids f packages)
    (hR : suite.sumCommitments (f.eval 0 • suite.generator) (suite.honestList nonces ids) message 0
      (suite.honestList nonces ids) = .ok R) (hne : R ≠ 0) :
    suite.computeGroupCommitment (f.eval 0 • suite.generator) (suite.honestList nonces ids)
      message = .ok R := by
  rw [computeGroupCommitment, hs.listed.validate, ok_bind, hR, ok_bind, validateElement,
    guard_of_true hne]
  rfl

lemma Sharing.signShare (hs : Sharing suite ids f packages)
    (hR : suite.sumCommitments (f.eval 0 • suite.generator) (suite.honestList nonces ids) message 0
      (suite.honestList nonces ids) = .ok R) (hne : R ≠ 0) {i : ParticipantIdentifier}
    (hi : i ∈ ids) :
    suite.signShare (packages i) (nonces i) message (suite.honestList nonces ids) =
      .ok (suite.honestShare ids f nonces message R i) := by
  have hmem := mem_honestList suite nonces hi
  have hid : ∃ entry ∈ suite.honestList nonces ids, entry.identifier = i := ⟨_, hmem, rfl⟩
  have hentry := hs.listed.entryOf hmem
  rw [Suite.signShare, hs.identifier i hi, hs.groupPublicKey i hi, hs.signingShare i hi,
    hs.listed.validate, ok_bind, hentry, ok_bind, guard_of_true rfl, ok_bind,
    hs.listed.bindingFactor hs.key_ne hid, ok_bind, hs.groupCommitment hR hne, ok_bind,
    hs.listed.interpolatingValue hid]
  rfl

/-- An honest share opens the commitments of its signer. -/
lemma Sharing.verifySignatureShare (hs : Sharing suite ids f packages)
    (hR : suite.sumCommitments (f.eval 0 • suite.generator) (suite.honestList nonces ids) message 0
      (suite.honestList nonces ids) = .ok R) (hne : R ≠ 0) {i : ParticipantIdentifier}
    (hi : i ∈ ids) :
    suite.verifySignatureShare (packages i).verificationShare
      (suite.honestShare ids f nonces message R i)
      (suite.compress (f.eval 0 • suite.generator)) message (suite.honestList nonces ids) =
        .ok () := by
  have hmem := mem_honestList suite nonces hi
  have hid : ∃ entry ∈ suite.honestList nonces ids, entry.identifier = i := ⟨_, hmem, rfl⟩
  have hentry := hs.listed.entryOf hmem
  have hshare : (packages i).verificationShare.point = f.eval i.scalar • suite.generator := by
    rw [← (packages i).share_eq, hs.signingShare i hi]
  rw [Suite.verifySignatureShare, honestShare_identifier,
    guard_of_true ((packages i).identifier_eq.trans (hs.identifier i hi)), ok_bind,
    hs.listed.validate, ok_bind, deserializeElement_compress hs.key_ne, ok_bind, hentry, ok_bind,
    hs.listed.bindingFactor hs.key_ne hid, ok_bind, hs.groupCommitment hR hne, ok_bind,
    hs.listed.interpolatingValue hid, ok_bind]
  apply guard_of_true
  rw [hshare]
  simp only [honestShare, commitTo]
  module

omit [DecidableEq G] in
/-- The weighted shares add up to the secret, the commitments to the group commitment. -/
lemma Sharing.sum_honestShare (hs : Sharing suite ids f packages) (hq : 2 ^ 16 ≤ q)
    (hR : ((suite.honestList nonces ids).map (suite.commitmentShare (f.eval 0 • suite.generator)
      (suite.honestList nonces ids) message)).sum = R) :
    ((ids.map (suite.honestShare ids f nonces message R)).map (·.scalar)).sum • suite.generator =
      R + suite.computeChallenge R (f.eval 0 • suite.generator) message •
        f.eval 0 • suite.generator := by
  have hnodup : ids.Nodup := hs.sorted.imp fun hlt heq => (heq ▸ hlt).false
  have hsecret : (ids.map fun i => (interpolatingValue (suite.honestList nonces ids) i : ZMod q) •
      f.eval i.scalar • suite.generator).sum = f.eval 0 • suite.generator := by
    rw [← List.sum_toFinset _ hnodup]
    simp only [interpolatingValue, map_identifier_honestList]
    exact Shamir.sum_weight_smul (scalar_injective hq).injOn
      (by rw [List.toFinset_card_of_nodup hnodup]; exact hs.degree)
  have hscaled (c : ZMod q) : (ids.map fun i =>
      c • (interpolatingValue (suite.honestList nonces ids) i : ZMod q) •
        f.eval i.scalar • suite.generator).sum = c • f.eval 0 • suite.generator := by
    rw [← hsecret, List.smul_sum, List.map_map]
    rfl
  have hcommitments : (ids.map fun i => suite.commitmentShare (f.eval 0 • suite.generator)
      (suite.honestList nonces ids) message ⟨i, suite.commitTo (nonces i)⟩).sum = R := by
    rw [honestList, List.map_map] at hR
    exact hR
  calc _ = (ids.map fun i => suite.commitmentShare (f.eval 0 • suite.generator)
          (suite.honestList nonces ids) message ⟨i, suite.commitTo (nonces i)⟩ +
        suite.computeChallenge R (f.eval 0 • suite.generator) message •
          (interpolatingValue (suite.honestList nonces ids) i : ZMod q) •
            f.eval i.scalar • suite.generator).sum := by
        rw [List.map_map, List.sum_smul, List.map_map]
        refine congrArg List.sum (List.map_congr_left fun i _ => ?_)
        simp only [Function.comp_apply, honestShare, commitmentShare, commitTo]
        module
    _ = _ := by rw [List.sum_map_add, hscaled, hcommitments]

lemma shareOf_ofList {S : Type} (key : S → ParticipantIdentifier)
    {share : ParticipantIdentifier → S} {l : List S} (hids : ids.Nodup)
    (hkey : ∀ i ∈ ids, key (share i) = i) (hperm : l.Perm (ids.map share)) :
    (TreeMap.ofList (l.map fun s => (key s, s)) idCmp).size = ids.length ∧
      ∀ i ∈ ids, shareOf (TreeMap.ofList (l.map fun s => (key s, s)) idCmp) i =
        .ok (share i) := by
  have hkeys : (l.map key).Perm ids := by
    refine (hperm.map key).trans ?_
    rw [List.map_map, List.map_congr_left (f := key ∘ share) (g := id) hkey, List.map_id]
  have hdistinct : (l.map fun s => (key s, s)).Pairwise fun a b => ¬ idCmp a.1 b.1 = .eq := by
    have hnodup := List.pairwise_map.mp (hkeys.nodup_iff.mpr hids)
    exact List.pairwise_map.mpr (hnodup.imp fun hne heq => hne (LawfulEqCmp.eq_of_compare heq))
  constructor
  · rw [TreeMap.size_ofList hdistinct, List.length_map, hperm.length_eq, List.length_map]
  · intro i hi
    have hmem : (key (share i), share i) ∈ l.map fun s => (key s, s) :=
      List.mem_map_of_mem (f := fun s => (key s, s)) (hperm.mem_iff.mpr (List.mem_map_of_mem hi))
    rw [shareOf, TreeMap.getElem?_ofList_of_mem (by rw [hkey i hi]; exact ReflCmp.compare_self)
      hdistinct hmem]

lemma foldl_scalar (shares : List (SignatureShare q)) (acc : ZMod q) :
    shares.foldl (fun acc share => acc + share.scalar) acc =
      acc + (shares.map (·.scalar)).sum := by
  induction shares generalizing acc with
  | nil => simp
  | cons share shares ih => rw [List.foldl_cons, ih, List.map_cons, List.sum_cons, add_assoc]

/-- The cofactored equation, where the order is odd. -/
lemma verifySignature_ok_iff (hq : 2 ^ 16 ≤ q) {keyBytes : Bytes}
    {signature : FrostSignature q G} : suite.verifySignature keyBytes message signature = .ok () ↔
      ∃ Y, suite.deserializeElement keyBytes = .ok Y ∧ suite.Valid Y message signature := by
  have hodd : ¬ q ∣ 8 := fun h => absurd (Nat.le_of_dvd (by norm_num) h) (by omega)
  simp only [verifySignature, bind_ok_iff, guard_ok_iff, PrimeGroup.nsmul_inj hodd, Valid]

lemma Sharing.aggregate (hs : Sharing suite ids f packages) (hq : 2 ^ 16 ≤ q)
    (hR : suite.sumCommitments (f.eval 0 • suite.generator) (suite.honestList nonces ids) message 0
      (suite.honestList nonces ids) = .ok R) (hne : R ≠ 0)
    {verificationShares : List (VerificationShare G)} {signatureShares : List (SignatureShare q)}
    (hverification : verificationShares.Perm (ids.map fun i => (packages i).verificationShare))
    (hsignature : signatureShares.Perm (ids.map (suite.honestShare ids f nonces message R))) :
    ∃ signature, suite.aggregate (suite.compress (f.eval 0 • suite.generator)) message
      (suite.honestList nonces ids) verificationShares signatureShares = .ok signature ∧
        suite.Valid (f.eval 0 • suite.generator) message signature := by
  have hids : ids.Nodup := hs.sorted.imp fun hlt heq => (heq ▸ hlt).false
  have hlength : (suite.honestList nonces ids).length = ids.length := List.length_map _
  obtain ⟨hsizeV, hshareV⟩ := shareOf_ofList VerificationShare.identifier hids
    (fun i hi => (packages i).identifier_eq.trans (hs.identifier i hi)) hverification
  obtain ⟨hsizeS, hshareS⟩ := shareOf_ofList SignatureShare.identifier hids
    (fun i _ => rfl) hsignature
  have hsum := hR
  rw [hs.listed.sumCommitments suite message hs.key_ne 0 (List.Subset.refl _), Except.ok.injEq,
    zero_add] at hsum
  have hvalid : suite.Valid (f.eval 0 • suite.generator) message
      ⟨R, (signatureShares.map (·.scalar)).sum⟩ := by
    rw [Valid, (hsignature.map _).sum_eq]
    exact hs.sum_honestShare hq hsum
  refine ⟨⟨R, (signatureShares.map (·.scalar)).sum⟩, ?_, hvalid⟩
  rw [Suite.aggregate, hs.listed.validate, ok_bind, guard_of_true, ok_bind]
  · dsimp only
    rw [guard_of_true, ok_bind, (forM_ok_iff (u := ())).mpr, ok_bind,
      deserializeElement_compress hs.key_ne, ok_bind, hs.groupCommitment hR hne, ok_bind,
      foldl_scalar, zero_add,
      (verifySignature_ok_iff hq).mpr ⟨_, deserializeElement_compress hs.key_ne, hvalid⟩]
    · rfl
    · intro entry hentry
      obtain ⟨i, hi, rfl⟩ := List.mem_map.mp hentry
      rw [hshareV i hi, ok_bind, hshareS i hi]
      exact hs.verifySignatureShare hR hne hi
    · exact ⟨hsizeV.trans hlength.symm, hsizeS.trans hlength.symm⟩
  · rw [hverification.length_eq, hsignature.length_eq, hlength, List.length_map, List.length_map]
    exact ⟨rfl, rfl⟩

/-- Honest shares pass their checks and make a signature under the group key, unless the group
commitment is the identity; whatever the shares, a signature that is returned is valid under the
group key. -/
theorem signing_complete_and_sound (suite : Suite q G) (hq : 2 ^ 16 ≤ q) :
    (∀ ids (f : (ZMod q)[X]) (packages : ParticipantIdentifier → KeyPackage suite) nonces message,
      Sharing suite ids f packages →
      let Y := f.eval 0 • suite.generator
      let commitmentList := suite.honestList nonces ids
      suite.sumCommitments Y commitmentList message 0 commitmentList ≠ .ok 0 →
      ∃ shares : ParticipantIdentifier → SignatureShare q,
        (∀ i ∈ ids,
          suite.signShare (packages i) (nonces i) message commitmentList = .ok (shares i) ∧
          suite.verifySignatureShare (packages i).verificationShare (shares i) (suite.compress Y)
            message commitmentList = .ok ()) ∧
        ∀ verificationShares signatureShares,
          verificationShares.Perm (ids.map fun i => (packages i).verificationShare) →
          signatureShares.Perm (ids.map shares) →
          ∃ signature, suite.aggregate (suite.compress Y) message commitmentList
            verificationShares signatureShares = .ok signature ∧ suite.Valid Y message signature) ∧
    ∀ keyBytes message commitmentList verificationShares signatureShares signature,
      suite.aggregate keyBytes message commitmentList verificationShares signatureShares =
        .ok signature →
      ∃ Y, suite.compress Y = keyBytes ∧ suite.Valid Y message signature := by
  constructor
  · intro ids f packages nonces message hs Y commitmentList hne
    have hR := hs.listed.sumCommitments suite message hs.key_ne 0
      (List.Subset.refl (suite.honestList nonces ids))
    have hne' := fun h => hne (hR.trans (congrArg Except.ok h))
    exact ⟨_, fun i hi => ⟨hs.signShare hR hne' hi, hs.verifySignatureShare hR hne' hi⟩,
      fun _ _ hverification hsignature => hs.aggregate hq hR hne' hverification hsignature⟩
  · intro keyBytes message commitmentList verificationShares signatureShares signature h
    simp only [aggregate, bind_ok_iff, pure_ok_iff] at h
    obtain ⟨-, -, -, -, -, -, -, -, Y, -, R, -, ⟨⟩, hverify, rfl⟩ := h
    obtain ⟨Y', hY', hvalid⟩ := (verifySignature_ok_iff hq).mp hverify
    exact ⟨Y', (deserializeElement_ok hY').1, hvalid⟩

end Suite

/-! ### A small suite -/

/-- The scalars modulo 65537 as the curve, with the bytes themselves for their hash. -/
def smallSuite : Suite 65537 (ZMod 65537) where
  toPrimeGroup := .scalars 65537
  compress P := toBeBytes 3 P.val
  decompress bytes := some (ofBeBytes bytes)
  decompress_compress P := by
    have hlt : P.val < 256 ^ 3 := (ZMod.val_lt P).trans (by norm_num)
    rw [ofBeBytes_toBeBytes hlt, ZMod.natCast_zmod_val]
  scalarToBytes s := toBeBytes 3 s.val
  sha512 bytes := bytes
  fromBytesModOrderWide bytes := ofBeBytes bytes

def smallIds : List ParticipantIdentifier := [⟨1, by decide⟩, ⟨3, by decide⟩]

def smallNonces : SigningNonces 65537 := ⟨11, 13, by decide, by decide⟩

lemma five_ne : (5 : ZMod 65537) ≠ 0 := by decide

lemma twelve_ne : (12 : ZMod 65537) ≠ 0 := by decide

lemma twentySix_ne : (26 : ZMod 65537) ≠ 0 := by decide

/-- The shares of participants 1 and 3 of the secret 5. -/
def smallPackage (i : ParticipantIdentifier) : KeyPackage smallSuite :=
  if i.val = 1 then ⟨i, 12, ⟨i, 12⟩, 5, rfl, twelve_ne, five_ne, mul_one _⟩
  else ⟨i, 26, ⟨i, 26⟩, 5, rfl, twentySix_ne, five_ne, mul_one _⟩

lemma smallPackage_sharing :
    Suite.Sharing smallSuite smallIds (C 5 + C 7 * X) smallPackage where
  length := by decide
  sorted := by decide
  degree := by
    have h := degree_linear_lt (a := (7 : ZMod 65537)) (b := 5)
    rw [add_comm]
    exact h
  identifier := by decide +kernel
  signingShare i hi := by
    simp only [smallIds, List.mem_cons, List.not_mem_nil, or_false] at hi
    rcases hi with rfl | rfl
    · simp [smallPackage, ParticipantIdentifier.scalar]
      decide
    · simp [smallPackage, ParticipantIdentifier.scalar]
      decide
  groupPublicKey i hi := by
    simp only [smallIds, List.mem_cons, List.not_mem_nil, or_false] at hi
    rcases hi with rfl | rfl <;> simp [smallPackage, smallSuite, PrimeGroup.scalars]

/-- Participants 1 and 3 sign. -/
theorem smallSuite_signs : ∃ verificationShares signatureShares signature,
    smallSuite.aggregate (smallSuite.compress (5 : ZMod 65537)) [1, 2, 3]
      (smallSuite.honestList (fun _ => smallNonces) smallIds) verificationShares signatureShares =
        .ok signature ∧ smallSuite.Valid 5 [1, 2, 3] signature := by
  have hkey : (C 5 + C 7 * X : (ZMod 65537)[X]).eval 0 • smallSuite.generator = 5 := by
    simp [smallSuite, PrimeGroup.scalars]
  obtain ⟨shares, -, hshares⟩ := (Suite.signing_complete_and_sound smallSuite (by norm_num)).1
    smallIds _ smallPackage (fun _ => smallNonces) [1, 2, 3] smallPackage_sharing
    (by rw [hkey]; decide +kernel)
  rw [hkey] at hshares
  exact ⟨_, _, hshares _ _ (.refl _) (.refl _)⟩

end Suwappu.MpcSigner.Frost
