import Mathlib.Tactic.NormNum.LegendreSymbol
import Suwappu.Lib.Blum
import Suwappu.Lib.Checked

/-!
# Proof of a Paillier-Blum modulus

`Pi_mod` proves that a modulus is the product of two Blum primes and prime to its totient: each
challenge is answered with an `N`-th root of it, and with a fourth root of one of its four
multiples. `piMod_complete`: the proof of an honest prover is accepted.
-/

namespace Suwappu.MpcSigner.PiMod

open Checked Blum NumberTheorySymbols

inductive AuxError where
  | ModulusTooSmall | InvalidParameters | InvalidPiMod | ModularExponentiation
deriving DecidableEq

inductive IsPrime where
  | No | Probably | Yes
deriving DecidableEq

/-! ### Integers -/

def significantBits (n : ℤ) : ℕ := n.natAbs.size

def jacobi (a n : ℤ) : ℤ := J(a | n.natAbs)

/-- `in_mult_group_of`: a unit, by its representative -/
def InMultGroupOf (a n : ℤ) : Prop := 0 ≤ a ∧ a < n ∧ a.gcd n = 1

instance decidableInMultGroupOf (a n : ℤ) : Decidable (InMultGroupOf a n) :=
  inferInstanceAs (Decidable (_ ∧ _ ∧ _))

def invertRef (a n : ℤ) : Option ℤ := if a.gcd n = 1 then some (a.gcdA n % n) else none

def powModRef (a e n : ℤ) : Option ℤ :=
  if 0 ≤ e then some (a ^ e.toNat % n)
  else (invertRef a n).map fun inverse => inverse ^ (-e).toNat % n

/-- `CrtExp`: a power modulo the product of two primes -/
structure CrtExp where
  exp : ℤ → ℤ → Option ℤ

/-- The big integers of `fast-paillier`, of which the test of primes draws its bases. -/
structure Backend where
  isProbablyPrime : ℤ → IsPrime
  buildN : ℤ → ℤ → Option CrtExp

/-- No prime fails the test, and powers are computed by the remainders modulo the two primes. -/
structure Backend.Lawful (backend : Backend) : Prop where
  isProbablyPrime : ∀ p : ℕ, p.Prime → backend.isProbablyPrime p ≠ .No
  buildN : ∀ p q : ℕ, p.Prime → q.Prime → p ≠ q → ∃ crt, backend.buildN p q = some crt ∧
    ∀ a, InMultGroupOf a (p * q : ℕ) → ∀ e : ℕ, crt.exp a e = some (a ^ e % (p * q : ℕ))

def orError {α : Type} (x : Option α) (e : AuxError) : Except AuxError α :=
  match x with
  | some a => .ok a
  | none   => .error e

/-! ### The prover -/

structure PiModProofPoint where
  x : ℤ
  negate : Bool
  multiplyW : Bool
  z : ℤ

structure PiModProof where
  w : ℤ
  points : List PiModProofPoint

def findQuadraticResidue (challenge w p q modulus : ℤ) : Option (Bool × Bool × ℤ) :=
  match jacobi (challenge % p) p, jacobi (challenge % q) q with
  | 1, 1   => some (false, false, challenge)
  | -1, -1 => some (true, false, modulus - challenge)
  | _, _   =>
    let withW := challenge * w % modulus
    match jacobi (withW % p) p, jacobi (withW % q) q with
    | 1, 1   => some (false, true, withW)
    | -1, -1 => some (true, true, modulus - withW)
    | _, _   => none

def blumSquareRoot (value p q modulus : ℤ) : Except AuxError ℤ :=
  orError (powModRef value (((p - 1) * (q - 1) + 4) / 8) modulus) .ModularExponentiation

variable (backend : Backend)

def validatePiModWitness (modulus p q : ℤ) (minModulusBits : ℕ) : Except AuxError Unit := do
  guard (minModulusBits ≤ significantBits modulus ∧ p ≠ q ∧ p * q = modulus) .InvalidParameters
  guard (p % 4 = 3 ∧ q % 4 = 3) .InvalidParameters
  guard (backend.isProbablyPrime p ≠ .No ∧ backend.isProbablyPrime q ≠ .No) .InvalidParameters

def piModPoint (crt : CrtExp) (nInverse w p q modulus challenge : ℤ) :
    Except AuxError PiModProofPoint := do
  let z ← orError (crt.exp challenge nInverse) .ModularExponentiation
  let (negate, multiplyW, residue) ←
    orError (findQuadraticResidue challenge w p q modulus) .InvalidParameters
  let firstRoot ← blumSquareRoot residue p q modulus
  let x ← blumSquareRoot firstRoot p q modulus
  return ⟨x, negate, multiplyW, z⟩

/-- The answers to the challenges. -/
def piModPoints (modulus p q w : ℤ) (challenges : List ℤ) :
    Except AuxError (List PiModProofPoint) := do
  let phi := (p - 1) * (q - 1)
  let nInverse ← orError (invertRef modulus phi) .InvalidParameters
  let crt ← orError (backend.buildN p q) .InvalidParameters
  challenges.mapM (piModPoint crt nInverse w p q modulus)

/-- The proof with the `w` that `sample_negative_jacobi` ends with, and the challenges that
`pi_mod_challenges` draws for it. -/
def provePiModInner (challenges : ℤ → List ℤ) (modulus p q : ℤ) (minModulusBits : ℕ) (w : ℤ) :
    Except AuxError PiModProof := do
  validatePiModWitness backend modulus p q minModulusBits
  let points ← piModPoints backend modulus p q w (challenges w)
  return ⟨w, points⟩

/-! ### The verifier -/

/-- What the fourth power of an answer has to be. -/
def selected (modulus w challenge : ℤ) (negate multiplyW : Bool) : ℤ :=
  let residue := if negate = true then modulus - challenge else challenge
  if multiplyW = true then residue * w % modulus else residue

def verifyPoint (modulus w : ℤ) (point : PiModProofPoint) (challenge : ℤ) :
    Except AuxError Unit := do
  let nthPower ← orError (powModRef point.z modulus modulus) .InvalidPiMod
  guard (nthPower = challenge) .InvalidPiMod
  let fourthPower ← orError (powModRef point.x 4 modulus) .InvalidPiMod
  guard (fourthPower = selected modulus w challenge point.negate point.multiplyW) .InvalidPiMod

def verifyPiModInner (challenges : ℤ → List ℤ) (modulus : ℤ) (proof : PiModProof)
    (minModulusBits : ℕ) : Except AuxError Unit := do
  guard (minModulusBits ≤ significantBits modulus) .ModulusTooSmall
  guard (¬ (modulus % 2 = 0 ∨ modulus ≤ 0)) .InvalidPiMod
  guard (backend.isProbablyPrime modulus = .No) .InvalidPiMod
  guard (InMultGroupOf proof.w modulus ∧ jacobi proof.w modulus = -1) .InvalidPiMod
  guard (∀ point ∈ proof.points,
    InMultGroupOf point.x modulus ∧ InMultGroupOf point.z modulus) .InvalidPiMod
  (proof.points.zip (challenges proof.w)).forM fun (point, challenge) =>
    verifyPoint modulus proof.w point challenge

/-! ### Integers modulo a Blum integer -/

section Integers

variable {a b e n : ℤ} {p q : ℕ} {w c : ℤ}

lemma powModRef_natCast (a : ℤ) (e : ℕ) (n : ℤ) : powModRef a e n = some (a ^ e % n) :=
  if_pos (Int.natCast_nonneg e)

lemma jacobi_emod (a : ℤ) (p : ℕ) : jacobi (a % p) p = J(a | p) := by
  rw [jacobi, Int.natAbs_natCast, ← jacobiSym.mod_left]

lemma inMultGroupOf_emod (h : IsBlum p q) (ha : a.gcd (p * q : ℕ) = 1) :
    InMultGroupOf (a % (p * q : ℕ)) (p * q : ℕ) := by
  have hpos := one_pos.trans h.one_lt
  refine ⟨Int.emod_nonneg _ hpos.ne', Int.emod_lt_of_pos _ hpos, ?_⟩
  rwa [Int.gcd_emod]

lemma emod_isResidue (hresidue : IsResidue p q a) : IsResidue p q (a % (p * q : ℕ)) :=
  hresidue.congr (Int.mod_modEq _ _).symm

/-- The multiple that is selected, by its representative. -/
lemma selected_modEq (negate multiplyW : Bool) :
    selected (p * q : ℕ) w c negate multiplyW ≡ multiple w c (negate, multiplyW)
      [ZMOD (p * q : ℕ)] := by
  have hneg : (p * q : ℕ) - c ≡ -c [ZMOD (p * q : ℕ)] := by
    rw [Int.modEq_iff_dvd]
    exact ⟨-1, by ring⟩
  cases negate <;> cases multiplyW
  · exact (Int.ModEq.refl c).trans (by simp [multiple])
  · exact (Int.mod_modEq _ _).trans (by simp [multiple, mul_comm])
  · exact hneg.trans (by simp [multiple])
  · exact (Int.mod_modEq _ _).trans ((hneg.mul_right w).trans (by simp [multiple, mul_comm]))

lemma InMultGroupOf.pos (hn : 1 < n) (ha : InMultGroupOf a n) : 0 < a := by
  refine lt_of_le_of_ne ha.1 fun hzero => ?_
  have hgcd := ha.2.2
  rw [← hzero, Int.gcd_zero_left] at hgcd
  omega

lemma selected_bounds (h : IsBlum p q) (hc : InMultGroupOf c (p * q : ℕ))
    (negate multiplyW : Bool) :
    0 ≤ selected (p * q : ℕ) w c negate multiplyW ∧
      selected (p * q : ℕ) w c negate multiplyW < (p * q : ℕ) := by
  have hpos := one_pos.trans h.one_lt
  have hc' := hc.pos h.one_lt
  obtain ⟨-, hlt, -⟩ := hc
  cases multiplyW
  · cases negate
    · exact ⟨hc'.le, hlt⟩
    · exact ⟨sub_nonneg.mpr hlt.le, sub_lt_self _ hc'⟩
  · exact ⟨Int.emod_nonneg _ hpos.ne', Int.emod_lt_of_pos _ hpos⟩

/-- The negative of a representative but zero. -/
lemma sub_emod (hn : 0 < n) (ha : a % n ≠ 0) : n - a % n = -a % n := by
  have hpos : 0 < a % n := lt_of_le_of_ne (Int.emod_nonneg a hn.ne') (Ne.symm ha)
  have hlt : n - a % n < n := by omega
  have hmod : n - a % n ≡ -a [ZMOD n] := by
    rw [Int.modEq_iff_dvd, Int.emod_def]
    exact ⟨-(a / n) - 1, by ring⟩
  rw [← Int.emod_eq_of_lt (by have := Int.emod_lt_of_pos a hn; omega) hlt]
  exact hmod

lemma jacobi_emod_emod (a : ℤ) {p n : ℕ} (h : p ∣ n) : jacobi (a % n % p) p = J(a | p) := by
  rw [jacobi_emod]
  exact jacobiSym.mod_left' (Int.emod_emod_of_dvd a (Int.natCast_dvd_natCast.mpr h))

lemma selected_true (h : IsBlum p q) (hne : J(c * w | p) ≠ 0) :
    (p * q : ℕ) - c * w % (p * q : ℕ) = selected (p * q : ℕ) w c true true := by
  have hzero : c * w % (p * q : ℕ) ≠ 0 := by
    intro hzero
    have hdvd : ((p : ℕ) : ℤ) ∣ c * w :=
      (Int.natCast_dvd_natCast.mpr (Dvd.intro q rfl)).trans (Int.dvd_of_emod_eq_zero hzero)
    have hmod : J(c * w | p) = J(0 | p) := jacobiSym.mod_left' (Int.emod_eq_zero_of_dvd hdvd)
    exact hne (hmod.trans (jacobiSym.zero_left h.left_prime.one_lt))
  rw [sub_emod (one_pos.trans h.one_lt) hzero]
  refine (Int.modEq_iff_dvd.mpr ?_ : _ ≡ (((p * q : ℕ) : ℤ) - c) * w [ZMOD (p * q : ℕ)])
  exact ⟨w, by ring⟩

/-- The search finds the multiple that is a square modulo both primes. -/
lemma findQuadraticResidue_eq (h : IsBlum p q) (hw : J(w | p * q) = -1)
    (hc : InMultGroupOf c (p * q : ℕ)) :
    ∃ negate multiplyW,
      findQuadraticResidue c w p q (p * q : ℕ) =
        some (negate, multiplyW, selected (p * q : ℕ) w c negate multiplyW) ∧
      IsResidue p q (selected (p * q : ℕ) w c negate multiplyW) := by
  obtain ⟨⟨negate, multiplyW⟩, hresidue, -⟩ := existsUnique_multiple h hw hc.2.2
  refine ⟨negate, multiplyW, ?_, hresidue.congr (selected_modEq negate multiplyW).symm⟩
  rw [isResidue_multiple h] at hresidue
  cases multiplyW with
  | false =>
    obtain ⟨hp, hq⟩ := hresidue
    rw [if_neg Bool.false_ne_true, one_mul] at hp hq
    rw [findQuadraticResidue, jacobi_emod, jacobi_emod, hp, hq]
    cases negate <;> rfl
  | true =>
    obtain ⟨hp, hq⟩ := hresidue
    rw [if_pos rfl] at hp hq
    have hsign : (if negate = true then (-1 : ℤ) else 1) = 1 ∨
        (if negate = true then (-1 : ℤ) else 1) = -1 := by
      cases negate
      · exact .inl rfl
      · exact .inr rfl
    have hwith : findQuadraticResidue c w p q (p * q : ℕ) =
        match jacobi (c * w % (p * q : ℕ) % p) p, jacobi (c * w % (p * q : ℕ) % q) q with
        | 1, 1   => some (false, true, c * w % (p * q : ℕ))
        | -1, -1 => some (true, true, (p * q : ℕ) - c * w % (p * q : ℕ))
        | _, _   => none := by
      rcases jacobiSym_opposite h hw hsign hp hq with ⟨hleft, hright⟩ | ⟨hleft, hright⟩
      · rw [findQuadraticResidue, jacobi_emod, jacobi_emod, hleft, hright]
        rfl
      · rw [findQuadraticResidue, jacobi_emod, jacobi_emod, hleft, hright]
        rfl
    rw [mul_comm w c] at hp hq
    rw [hwith, jacobi_emod_emod _ (Dvd.intro q rfl), jacobi_emod_emod _ (Dvd.intro_left p rfl), hp,
      hq]
    cases negate with
    | false => rfl
    | true => rw [← selected_true h (by rw [hp]; decide)]; rfl

lemma blumSquareRoot_eq (h : IsBlum p q) (a : ℤ) :
    blumSquareRoot a p q (p * q : ℕ) = .ok (a ^ rootExponent p q % (p * q : ℕ)) := by
  have hexponent : (((p : ℤ) - 1) * (q - 1) + 4) / 8 = (rootExponent p q : ℕ) := by
    have hp := h.left_prime.one_le
    have hq := h.right_prime.one_le
    rw [rootExponent]
    push_cast [hp, hq]
    rfl
  rw [blumSquareRoot, hexponent, powModRef_natCast]
  rfl

/-- The root of the root is a fourth root. -/
lemma fourth_root (h : IsBlum p q) (hresidue : IsResidue p q a) :
    ∃ root x, blumSquareRoot a p q (p * q : ℕ) = .ok root ∧
      blumSquareRoot root p q (p * q : ℕ) = .ok x ∧
      x ^ 4 ≡ a [ZMOD (p * q : ℕ)] ∧ InMultGroupOf x (p * q : ℕ) := by
  have hfirst := emod_isResidue (hresidue.pow (rootExponent p q))
  have hroot := Int.mod_modEq (a ^ rootExponent p q) (p * q : ℕ)
  refine ⟨_, _, blumSquareRoot_eq h a, blumSquareRoot_eq h _, ?_,
    inMultGroupOf_emod h ((hfirst.pow _).gcd_eq_one h)⟩
  generalize a ^ rootExponent p q % (p * q : ℕ) = root at hfirst hroot
  calc (root ^ rootExponent p q % (p * q : ℕ)) ^ 4
      ≡ (root ^ rootExponent p q) ^ 4 [ZMOD (p * q : ℕ)] := (Int.mod_modEq _ _).pow 4
    _ = ((root ^ rootExponent p q) ^ 2) ^ 2 := by ring
    _ ≡ root ^ 2 [ZMOD (p * q : ℕ)] := (hfirst.sq_root h).pow 2
    _ ≡ (a ^ rootExponent p q) ^ 2 [ZMOD (p * q : ℕ)] := hroot.pow 2
    _ ≡ a [ZMOD (p * q : ℕ)] := hresidue.sq_root h

end Integers

/-! ### An honest prover -/

section Complete

variable {backend : Backend} {p q : ℕ} {w c nInverse : ℤ}

lemma totient_eq (h : IsBlum p q) : (p * q).totient = (p - 1) * (q - 1) := by
  rw [Nat.totient_mul h.coprime, Nat.totient_prime h.left_prime, Nat.totient_prime h.right_prime]

/-- A modulus that is prime to its totient has an inverse modulo that. -/
lemma invertRef_totient (h : IsBlum p q) (hgcd : (p * q).gcd ((p - 1) * (q - 1)) = 1) :
    ∃ e k : ℕ, invertRef (p * q : ℕ) ((p - 1) * (q - 1)) = some (e : ℤ) ∧
      e * (p * q) = (p * q).totient * k + 1 := by
  have hphi : ((p : ℤ) - 1) * (q - 1) = ((p * q).totient : ℕ) := by
    have hp := h.left_prime.one_le
    have hq := h.right_prime.one_le
    rw [totient_eq h]
    push_cast [hp, hq]
    rfl
  rw [← totient_eq h] at hgcd
  rw [hphi]
  have htotient : 1 < (p * q).totient := by
    have hp := h.left_mod
    have hq := h.right_mod
    rw [totient_eq h]
    exact one_lt_mul'' (by omega) (by omega)
  generalize p * q = n at *
  generalize n.totient = phi at *
  have hnonneg : 0 ≤ (n : ℤ).gcdA phi % phi := Int.emod_nonneg _ (by omega)
  obtain ⟨e, he⟩ := Int.eq_ofNat_of_zero_le hnonneg
  have hbezout := Int.gcd_eq_gcd_ab n phi
  rw [Int.gcd_natCast_natCast, hgcd] at hbezout
  obtain ⟨k, hk⟩ : ∃ k, (e : ℤ) * n = phi * k + 1 := by
    have hdiv := Int.emod_add_mul_ediv ((n : ℤ).gcdA phi) phi
    refine ⟨-(n : ℤ).gcdB phi - n * ((n : ℤ).gcdA phi / phi), ?_⟩
    rw [← he]
    push_cast at hbezout
    linear_combination (n : ℤ) * hdiv - hbezout
  have hpos : 0 ≤ k := by
    by_contra hneg
    have hle : (phi : ℤ) * k ≤ phi * -1 :=
      mul_le_mul_of_nonneg_left (by omega) (Int.natCast_nonneg phi)
    have hproduct : (0 : ℤ) ≤ e * n := mul_nonneg (Int.natCast_nonneg e) (Int.natCast_nonneg n)
    omega
  obtain ⟨k, rfl⟩ := Int.eq_ofNat_of_zero_le hpos
  refine ⟨e, k, ?_, by exact_mod_cast hk⟩
  rw [invertRef, if_pos (by rw [Int.gcd_natCast_natCast, hgcd]), he]

/-- The answer to one challenge. -/
lemma piModPoint_verifies (h : IsBlum p q) (hw : J(w | p * q) = -1) {crt : CrtExp}
    (hcrt : ∀ a, InMultGroupOf a (p * q : ℕ) → ∀ e : ℕ,
      crt.exp a e = some (a ^ e % (p * q : ℕ)))
    {e k : ℕ} (he : e * (p * q) = (p * q).totient * k + 1) (hc : InMultGroupOf c (p * q : ℕ)) :
    ∃ point, piModPoint crt e w p q (p * q : ℕ) c = .ok point ∧
      (InMultGroupOf point.x (p * q : ℕ) ∧ InMultGroupOf point.z (p * q : ℕ)) ∧
        verifyPoint (p * q : ℕ) w point c = .ok () := by
  obtain ⟨negate, multiplyW, hfind, hresidue⟩ := findQuadraticResidue_eq h hw hc
  obtain ⟨root, x, hroot, hx, hfourth, hgroup⟩ := fourth_root h hresidue
  have hbounds := selected_bounds (w := w) h hc negate multiplyW
  have hpow : (c ^ e % (p * q : ℕ)) ^ (p * q) % (p * q : ℕ) = c := by
    have hmod : (c ^ e % (p * q : ℕ)) ^ (p * q) ≡ c [ZMOD (p * q : ℕ)] :=
      calc (c ^ e % (p * q : ℕ)) ^ (p * q)
          ≡ (c ^ e) ^ (p * q) [ZMOD (p * q : ℕ)] := (Int.mod_modEq _ _).pow _
        _ = c ^ ((p * q).totient * k + 1) := by rw [← pow_mul, he]
        _ ≡ c [ZMOD (p * q : ℕ)] := pow_totient_succ hc.2.2 k
    rw [hmod.eq, Int.emod_eq_of_lt hc.1 hc.2.1]
  have hz : InMultGroupOf (c ^ e % (p * q : ℕ)) (p * q : ℕ) := by
    refine inMultGroupOf_emod h (Int.isCoprime_iff_gcd_eq_one.mp ?_)
    exact (Int.isCoprime_iff_gcd_eq_one.mpr hc.2.2).pow_left
  refine ⟨⟨x, negate, multiplyW, c ^ e % (p * q : ℕ)⟩, ?_, ⟨hgroup, hz⟩, ?_⟩
  · rw [piModPoint, hcrt c hc e, hfind]
    simp only [orError, ok_bind, hroot, hx]
    rfl
  · have hfour : powModRef x 4 (p * q : ℕ) =
        some (selected (p * q : ℕ) w c negate multiplyW) := by
      rw [← Nat.cast_ofNat, powModRef_natCast, hfourth.eq, Int.emod_eq_of_lt hbounds.1 hbounds.2]
    rw [verifyPoint, powModRef_natCast, hpow, hfour]
    simp only [orError, ok_bind, guard_of_true]

/-- The answers to all challenges. -/
lemma piModPoints_verify (h : IsBlum p q) (hgcd : (p * q).gcd ((p - 1) * (q - 1)) = 1)
    (hw : J(w | p * q) = -1) (hbackend : backend.Lawful) {challenges : List ℤ}
    (hchallenges : ∀ c ∈ challenges, InMultGroupOf c (p * q : ℕ)) :
    ∃ points, piModPoints backend (p * q : ℕ) p q w challenges = .ok points ∧
      List.Forall₂ (fun point c =>
        (InMultGroupOf point.x (p * q : ℕ) ∧ InMultGroupOf point.z (p * q : ℕ)) ∧
          verifyPoint (p * q : ℕ) w point c = .ok ())
        points challenges := by
  obtain ⟨e, k, hinvert, he⟩ := invertRef_totient h hgcd
  obtain ⟨crt, hbuild, hcrt⟩ := hbackend.buildN p q h.left_prime h.right_prime h.ne
  rw [piModPoints, hinvert, hbuild]
  simp only [orError, ok_bind]
  induction challenges with
  | nil => exact ⟨[], rfl, .nil⟩
  | cons c challenges ih =>
    obtain ⟨hc, hrest⟩ := List.forall_mem_cons.mp hchallenges
    obtain ⟨point, hpoint, hverify⟩ := piModPoint_verifies h hw hcrt he hc
    obtain ⟨points, hpoints, hall⟩ := ih hrest
    refine ⟨point :: points, ?_, .cons hverify hall⟩
    rw [List.mapM_cons, hpoint, hpoints]
    rfl

/-- For every modulus that is the product of two Blum primes and prime to its totient, every `w` of
Jacobi symbol `-1`, and all challenges that are units: the search finds a multiple for each of them,
the answers satisfy the equations of the verifier and are units, and the proof they make is
accepted, but for the length of the modulus and the test that it is no prime. -/
theorem piMod_complete (h : IsBlum p q) (hgcd : (p * q).gcd ((p - 1) * (q - 1)) = 1)
    (hw : jacobi w (p * q : ℕ) = -1) (hbackend : backend.Lawful) {challenges : ℤ → List ℤ}
    (hchallenges : ∀ c ∈ challenges w, InMultGroupOf c (p * q : ℕ)) (minModulusBits : ℕ) :
    (∀ c ∈ challenges w, ∃ negate multiplyW residue,
      findQuadraticResidue c w p q (p * q : ℕ) = some (negate, multiplyW, residue)) ∧
    ∃ points, piModPoints backend (p * q : ℕ) p q w (challenges w) = .ok points ∧
      List.Forall₂ (fun point c =>
        (InMultGroupOf point.x (p * q : ℕ) ∧ InMultGroupOf point.z (p * q : ℕ)) ∧
          verifyPoint (p * q : ℕ) w point c = .ok ())
        points (challenges w) ∧
      (minModulusBits ≤ significantBits (p * q : ℕ) →
        provePiModInner backend challenges (p * q : ℕ) p q minModulusBits w = .ok ⟨w, points⟩ ∧
        (InMultGroupOf w (p * q : ℕ) → backend.isProbablyPrime (p * q : ℕ) = .No →
          verifyPiModInner backend challenges (p * q : ℕ) ⟨w, points⟩ minModulusBits =
            .ok ())) := by
  have hw' : J(w | p * q) = -1 := by
    rwa [jacobi, Int.natAbs_natCast] at hw
  obtain ⟨points, hpoints, hall⟩ := piModPoints_verify h hgcd hw' hbackend hchallenges
  refine ⟨fun c hc => ?_, points, hpoints, hall, fun hbits => ⟨?_, fun hunit hprime => ?_⟩⟩
  · obtain ⟨negate, multiplyW, hfind, -⟩ := findQuadraticResidue_eq h hw' (hchallenges c hc)
    exact ⟨negate, multiplyW, _, hfind⟩
  · have hp : ((p : ℤ) % 4 = 3) ∧ (q : ℤ) % 4 = 3 := by
      exact_mod_cast And.intro h.left_mod h.right_mod
    have hne : (p : ℤ) ≠ q := by
      exact_mod_cast h.ne
    have hvalid : validatePiModWitness backend (p * q : ℕ) p q minModulusBits = .ok () := by
      rw [validatePiModWitness, guard_of_true ⟨hbits, hne, (Nat.cast_mul p q).symm⟩,
        guard_of_true hp]
      exact guard_of_true ⟨hbackend.isProbablyPrime p h.left_prime,
        hbackend.isProbablyPrime q h.right_prime⟩
    rw [provePiModInner, hvalid, ok_bind, hpoints]
    rfl
  · have hodd : ¬ (((p * q : ℕ) : ℤ) % 2 = 0 ∨ ((p * q : ℕ) : ℤ) ≤ 0) := by
      have hp : Odd p := Nat.odd_iff.mpr (by have := h.left_mod; omega)
      have hq : Odd q := Nat.odd_iff.mpr (by have := h.right_mod; omega)
      have hmod := Nat.odd_iff.mp (hp.mul hq)
      omega
    obtain ⟨hunits, hequations⟩ := (List.forall₂_and_left _ _).mp hall
    rw [verifyPiModInner, guard_of_true hbits, guard_of_true hodd, guard_of_true hprime,
      guard_of_true ⟨hunit, hw⟩, guard_of_true hunits]
    simp only [ok_bind]
    rw [forM_ok_iff]
    rintro ⟨point, c⟩ hmem
    exact (List.forall₂_iff_zip.mp hequations).2 hmem

/-- Integers with an exact test of primes. -/
def exactBackend : Backend where
  isProbablyPrime n := if n.natAbs.Prime then .Yes else .No
  buildN p q := some ⟨fun a e => powModRef a e (p * q)⟩

lemma exactBackend_lawful : exactBackend.Lawful where
  isProbablyPrime p hp := by
    have hyes : exactBackend.isProbablyPrime p = .Yes := if_pos hp
    rw [hyes]
    decide
  buildN p q hp hq hne := by
    refine ⟨_, rfl, fun a ha e => ?_⟩
    rw [Nat.cast_mul]
    exact powModRef_natCast a e _

def oneChallenge (_ : ℤ) : List ℤ := [2]

/-- The modulus 33, with one challenge. -/
theorem piMod_complete_33 :
    ∃ points, provePiModInner exactBackend oneChallenge 33 3 11 6 5 = .ok ⟨5, points⟩ ∧
      verifyPiModInner exactBackend oneChallenge 33 ⟨5, points⟩ 6 = .ok () := by
  have hblum : IsBlum 3 11 := ⟨by norm_num, by norm_num, by decide, rfl, rfl⟩
  have hjacobi : jacobi 5 (3 * 11 : ℕ) = -1 := by
    change J(5 | 33) = -1
    norm_num
  have hchallenges : ∀ c ∈ oneChallenge 5, InMultGroupOf c (3 * 11 : ℕ) := by decide
  have hcomposite : exactBackend.isProbablyPrime (3 * 11 : ℕ) = .No := by
    have hprime : ¬ (33 : ℕ).Prime := by norm_num
    have hif : (if (33 : ℕ).Prime then IsPrime.Yes else .No) = .No := if_neg hprime
    exact hif
  obtain ⟨-, points, -, -, hproof⟩ := piMod_complete hblum rfl hjacobi
    exactBackend_lawful hchallenges 6
  obtain ⟨hprove, hverify⟩ := hproof (by decide)
  exact ⟨points, hprove, hverify (by decide) hcomposite⟩

end Complete

end Suwappu.MpcSigner.PiMod
