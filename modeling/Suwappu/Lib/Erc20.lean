import Suwappu.Lib.Checked

/-!
# Fungible tokens

A standard token: balances, allowances, and what its holders can do with them. The supply of a
token fits a word, and so does every balance. An account that approves nobody loses tokens only
through its own transfers (`Token.apply_of_ne`).
-/

namespace Erc20

open Checked

inductive Error where
  | InsufficientBalance | InsufficientAllowance | Overflow
deriving DecidableEq, Repr

instance : Overflow Error := ⟨.Overflow⟩

structure Token (A : Type) where
  totalSupply : ℕ
  balanceOf : A → ℕ
  allowance : A → A → ℕ

/-- What an account can call. Minting and burning are left to whoever the token lets do it. -/
inductive Op (A : Type) where
  | transfer (dst : A) (amount : ℕ)
  | transferFrom (src dst : A) (amount : ℕ)
  | approve (spender : A) (amount : ℕ)
  | mint (dst : A) (amount : ℕ)
  | burn (amount : ℕ)

namespace Token

variable {A : Type} [DecidableEq A] {t t' : Token A} {a src dst spender caller : A} {amount : ℕ}

/-- A token nobody holds. -/
def empty : Token A := ⟨0, fun _ => 0, fun _ _ => 0⟩

/-- `transfer` of the holder `src`. -/
def transfer (t : Token A) (src dst : A) (amount : ℕ) : Except Error (Token A) := do
  guard (amount ≤ t.balanceOf src) .InsufficientBalance
  let balances := Function.update t.balanceOf src (t.balanceOf src - amount)
  return { t with balanceOf := Function.update balances dst (balances dst + amount) }

def approve (t : Token A) (owner spender : A) (amount : ℕ) : Token A :=
  { t with
    allowance := Function.update t.allowance owner
      (Function.update (t.allowance owner) spender amount) }

/-- The largest allowance stands for an unlimited one. -/
def spendAllowance (t : Token A) (owner spender : A) (amount : ℕ) : Except Error (Token A) :=
  if t.allowance owner spender = 2 ^ 256 - 1 then .ok t
  else do
    guard (amount ≤ t.allowance owner spender) .InsufficientAllowance
    return t.approve owner spender (t.allowance owner spender - amount)

def transferFrom (t : Token A) (spender src dst : A) (amount : ℕ) : Except Error (Token A) := do
  let t ← t.spendAllowance src spender amount
  t.transfer src dst amount

def mint (t : Token A) (dst : A) (amount : ℕ) : Except Error (Token A) := do
  let supply ← addU 256 t.totalSupply amount
  return { t with
    totalSupply := supply
    balanceOf := Function.update t.balanceOf dst (t.balanceOf dst + amount) }

def burn (t : Token A) (src : A) (amount : ℕ) : Except Error (Token A) := do
  guard (amount ≤ t.balanceOf src) .InsufficientBalance
  return { t with
    totalSupply := t.totalSupply - amount
    balanceOf := Function.update t.balanceOf src (t.balanceOf src - amount) }

def apply (t : Token A) (caller : A) : Op A → Except Error (Token A)
  | .transfer dst amount         => t.transfer caller dst amount
  | .transferFrom src dst amount => t.transferFrom caller src dst amount
  | .approve spender amount      => .ok (t.approve caller spender amount)
  | .mint dst amount             => t.mint dst amount
  | .burn amount                 => t.burn caller amount

/-- `a` lets nobody spend its tokens. -/
def Unapproving (t : Token A) (a : A) : Prop := ∀ spender, t.allowance a spender = 0

omit [DecidableEq A] in
lemma Unapproving.of_allowance (h : t.Unapproving a) (heq : t'.allowance = t.allowance) :
    t'.Unapproving a := fun spender => by rw [heq, h]

/-! ### Transfers -/

lemma transfer_ok (h : t.transfer src dst amount = .ok t') :
    amount ≤ t.balanceOf src ∧ t'.allowance = t.allowance ∧
      t.balanceOf src ≤ t'.balanceOf src + amount ∧
      (∀ b, b ≠ src → t.balanceOf b ≤ t'.balanceOf b) ∧
      (dst ≠ src → t'.balanceOf dst = t.balanceOf dst + amount) := by
  simp only [transfer, bind_ok_iff, guard_ok_iff, exists_const, pure_ok_iff] at h
  obtain ⟨hle, rfl⟩ := h
  refine ⟨hle, rfl, ?_, fun b hb => ?_, fun hne => ?_⟩ <;> dsimp only
  · by_cases hdst : src = dst
    · subst hdst
      rw [Function.update_self, Function.update_self]
      omega
    · rw [Function.update_of_ne hdst, Function.update_self]
      omega
  · by_cases hdst : b = dst
    · subst hdst
      rw [Function.update_self, Function.update_of_ne hb]
      omega
    · rw [Function.update_of_ne hdst, Function.update_of_ne hb]
  · rw [Function.update_self, Function.update_of_ne hne]

/-- A holder can always transfer what it holds. -/
lemma transfer_succeeds (dst : A) (h : amount ≤ t.balanceOf src) :
    ∃ t', t.transfer src dst amount = .ok t' := by
  rw [transfer, guard_of_true h]
  exact ⟨_, rfl⟩

lemma spendAllowance_ok {owner : A} (h : t.spendAllowance owner spender amount = .ok t') :
    t'.balanceOf = t.balanceOf ∧ (t.Unapproving a → t'.Unapproving a) ∧
      (t.Unapproving owner → amount = 0) := by
  unfold spendAllowance at h
  split at h
  · rename_i hmax
    cases h
    refine ⟨rfl, id, fun hun => ?_⟩
    rw [hun spender] at hmax
    norm_num at hmax
  · simp only [bind_ok_iff, guard_ok_iff, exists_const, pure_ok_iff] at h
    obtain ⟨hle, rfl⟩ := h
    refine ⟨rfl, fun hun b => ?_, fun hun => ?_⟩
    · by_cases howner : a = owner
      · subst howner
        dsimp only [approve]
        rw [Function.update_self]
        by_cases hb : b = spender
        · rw [hb, Function.update_self, hun, Nat.zero_sub]
        · rw [Function.update_of_ne hb, hun]
      · dsimp only [approve]
        rw [Function.update_of_ne howner, hun]
    · rw [hun spender] at hle
      omega

/-! ### An account that approves nobody -/

lemma transfer_of_unapproving (hun : t.Unapproving a) (h : t.transfer a dst amount = .ok t') :
    t'.Unapproving a ∧ t.balanceOf a ≤ t'.balanceOf a + amount := by
  obtain ⟨-, hallowance, hout, -, -⟩ := transfer_ok h
  exact ⟨hun.of_allowance hallowance, hout⟩

/-- What such an account pulls in is added to its balance. -/
lemma transferFrom_of_unapproving (hun : t.Unapproving a)
    (h : t.transferFrom a src a amount = .ok t') :
    t'.Unapproving a ∧ t.balanceOf a + amount ≤ t'.balanceOf a := by
  simp only [transferFrom, bind_ok_iff] at h
  obtain ⟨t₁, hspend, h⟩ := h
  obtain ⟨hbalance, hkept, hzero⟩ := spendAllowance_ok (a := a) hspend
  obtain ⟨-, hallowance, hout, -, hin⟩ := transfer_ok h
  refine ⟨(hkept hun).of_allowance hallowance, ?_⟩
  rw [← hbalance]
  by_cases hsrc : a = src
  · subst hsrc
    have h0 := hzero hun
    omega
  · exact (hin hsrc).ge

/-- No call of another account takes from it. -/
lemma apply_of_ne {op : Op A} (hne : caller ≠ a) (hun : t.Unapproving a)
    (h : t.apply caller op = .ok t') :
    t'.Unapproving a ∧ t.balanceOf a ≤ t'.balanceOf a := by
  cases op with
  | transfer dst amount =>
    obtain ⟨-, hallowance, -, hkept, -⟩ := transfer_ok h
    exact ⟨hun.of_allowance hallowance, hkept a hne.symm⟩
  | transferFrom src dst amount =>
    simp only [apply, transferFrom, bind_ok_iff] at h
    obtain ⟨t₁, hspend, h⟩ := h
    obtain ⟨hbalance, hkept, hzero⟩ := spendAllowance_ok (a := a) hspend
    obtain ⟨-, hallowance, hout, hother, -⟩ := transfer_ok h
    refine ⟨(hkept hun).of_allowance hallowance, ?_⟩
    rw [← hbalance]
    by_cases hsrc : a = src
    · subst hsrc
      have h0 := hzero hun
      omega
    · exact hother a hsrc
  | approve spender amount =>
    cases h
    refine ⟨fun b => ?_, le_rfl⟩
    dsimp only [approve]
    rw [Function.update_of_ne hne.symm, hun]
  | mint dst amount =>
    simp only [apply, mint, bind_ok_iff, addU_ok_iff, pure_ok_iff] at h
    obtain ⟨supply, -, rfl⟩ := h
    refine ⟨hun, ?_⟩
    dsimp only
    by_cases hdst : a = dst
    · subst hdst
      rw [Function.update_self]
      omega
    · rw [Function.update_of_ne hdst]
  | burn amount =>
    simp only [apply, burn, bind_ok_iff, guard_ok_iff, exists_const, pure_ok_iff] at h
    obtain ⟨-, rfl⟩ := h
    refine ⟨hun, ?_⟩
    dsimp only
    rw [Function.update_of_ne hne.symm]

end Token

end Erc20
