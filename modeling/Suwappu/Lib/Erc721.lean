import Suwappu.Lib.Checked

/-!
# Owners of unique tokens

The ledger of a standard collection: who owns a token and who may move it. `none` stands where the
standard writes the zero address: the owner of no token, or nobody asking.
-/

namespace Erc721

open Checked

inductive Error where
  | NonexistentToken | InsufficientApproval | IncorrectOwner | InvalidReceiver | InvalidSender
  | InvalidApprover | InvalidOperator
deriving DecidableEq, Repr

structure Ledger (A : Type) where
  ownerOf : ℕ → Option A
  balanceOf : A → ℕ
  tokenApprovals : ℕ → Option A
  operatorApprovals : A → A → Bool

namespace Ledger

variable {A : Type} [DecidableEq A] {l l' : Ledger A} {tokenId : ℕ} {dst src auth : Option A}
  {a : A}

/-- A collection with no token. -/
def empty : Ledger A := ⟨fun _ => none, fun _ => 0, fun _ => none, fun _ _ => false⟩

/-- `_isAuthorized` -/
def isAuthorized (l : Ledger A) (owner spender : A) (tokenId : ℕ) : Prop :=
  owner = spender ∨ l.operatorApprovals owner spender = true ∨
    l.tokenApprovals tokenId = some spender

instance (l : Ledger A) (owner spender : A) (tokenId : ℕ) :
    Decidable (l.isAuthorized owner spender tokenId) := inferInstanceAs (Decidable (_ ∨ _ ∨ _))

/-- `_checkAuthorized` -/
def checkAuthorized (l : Ledger A) (owner : Option A) (spender : A) (tokenId : ℕ) :
    Except Error Unit :=
  match owner with
  | none       => .error .NonexistentToken
  | some owner => guard (l.isAuthorized owner spender tokenId) .InsufficientApproval

/-- The optional check of `_update`. -/
def checkAuth (l : Ledger A) (auth : Option A) (tokenId : ℕ) : Except Error Unit :=
  match auth with
  | none         => .ok ()
  | some spender => l.checkAuthorized (l.ownerOf tokenId) spender tokenId

/-- Both balances of a move, and the approval it clears. -/
def move (l : Ledger A) (src dst : Option A) (tokenId : ℕ) : Ledger A :=
  let approvals := match src with
    | none   => l.tokenApprovals
    | some _ => Function.update l.tokenApprovals tokenId none
  let balances := match src with
    | none     => l.balanceOf
    | some src => Function.update l.balanceOf src (l.balanceOf src - 1)
  let balances := match dst with
    | none     => balances
    | some dst => Function.update balances dst (balances dst + 1)
  { l with
    ownerOf := Function.update l.ownerOf tokenId dst
    balanceOf := balances
    tokenApprovals := approvals }

/-- `_update`: moves, mints or burns a token, and returns its previous owner. -/
def update (l : Ledger A) (dst : Option A) (tokenId : ℕ) (auth : Option A) :
    Except Error (Ledger A × Option A) := do
  l.checkAuth auth tokenId
  let src := l.ownerOf tokenId
  return (l.move src dst tokenId, src)

/-- `approve`, by the owner of the token or an operator of that owner. -/
def approve (l : Ledger A) (sender : A) (dst : Option A) (tokenId : ℕ) :
    Except Error (Ledger A) :=
  match l.ownerOf tokenId with
  | none       => .error .NonexistentToken
  | some owner => do
    guard (owner = sender ∨ l.operatorApprovals owner sender = true) .InvalidApprover
    return { l with tokenApprovals := Function.update l.tokenApprovals tokenId dst }

def setApprovalForAll (l : Ledger A) (owner operator : A) (approved : Bool) : Ledger A :=
  { l with
    operatorApprovals := Function.update l.operatorApprovals owner
      (Function.update (l.operatorApprovals owner) operator approved) }

lemma update_ok (h : l.update dst tokenId auth = .ok (l', src)) :
    src = l.ownerOf tokenId ∧ l'.ownerOf = Function.update l.ownerOf tokenId dst ∧
      (auth ≠ none → src ≠ none) := by
  simp only [update, bind_ok_iff, pure_ok_iff, Prod.mk.injEq] at h
  obtain ⟨_, hauth, rfl, rfl⟩ := h
  refine ⟨rfl, rfl, fun hsome hnone => ?_⟩
  cases auth with
  | none => exact hsome rfl
  | some spender =>
    simp only [checkAuth, hnone, checkAuthorized] at hauth
    cases hauth

lemma approve_ok {sender : A} (h : l.approve sender dst tokenId = .ok l') :
    l'.ownerOf = l.ownerOf := by
  unfold approve at h
  split at h
  · cases h
  · simp only [bind_ok_iff, pure_ok_iff] at h
    obtain ⟨-, -, rfl⟩ := h
    rfl

end Ledger

end Erc721
