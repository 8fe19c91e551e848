import Suwappu.Near.ArbiterV2.Basic

/-!
# What the methods of the second arbiter escrow do

One lemma for each method: what a successful call established, and what it left behind.
-/

namespace Suwappu.Near.ArbiterV2

open Checked InFlight

variable {host : Host} {serde : Serde} {c c' : ArbiterEscrow} {e : Escrow} {env : Env} {id : ℕ}

/-- The escrow as it was created: everything that `resolve` and its callbacks write is undone. -/
def Escrow.origin (e : Escrow) : Escrow :=
  { e with
    status := .Created
    resolvingSinceBlock := 0
    lastVerdict := none
    lastReason := none
    evidenceHash := none }

lemma createEscrow_ok {usageBefore usageAfter : ℕ} {worker terms : String}
    (h : createEscrow host c env usageBefore usageAfter worker terms = .ok (c', id)) :
    id = c.nextId ∧ ∃ e, e.origin = e ∧ e.amount + e.storageDeposit = env.attachedDeposit ∧
      c'.nextId = c.nextId + 1 ∧ c'.escrows = Function.update c.escrows c.nextId (some e) := by
  simp only [createEscrow, bind_ok_iff, guard_ok_iff, pure_ok_iff, Prod.mk.injEq] at h
  obtain ⟨-, -, -, -, t, -, -, -, ⟨repo, pr⟩, -, deadline, -, -, -, -, -, -, -, -, -, -, hdeposit,
    rfl, rfl⟩ := h
  have hcost := (le_minDeposit host.storageByteCost (usageAfter - usageBefore + 64)).trans hdeposit
  exact ⟨rfl, _, rfl, Nat.sub_add_cancel hcost, rfl, rfl⟩

lemma resolve_ok {request : Request} (h : resolve host c env id = .ok (c', request)) :
    ∃ e e', c.escrows id = some e ∧ e.status = .Created ∧ c' = c.insert id e' ∧
      e'.status = .Resolving ∧ e'.origin = e.origin := by
  simp only [resolve, bind_ok_iff, guard_ok_iff, expect_ok_iff, pure_ok_iff, Prod.mk.injEq] at h
  obtain ⟨-, -, -, -, e, he, -, hs, t, -, rfl, -⟩ := h
  exact ⟨e, _, he, hs, rfl, rfl, rfl⟩

/-- The callback of a resolution writes over any escrow it finds. -/
lemma onArbiterResult_cases (serde : Serde) (c : ArbiterEscrow) (id : ℕ)
    (result : Option (List UInt8)) :
    (c.escrows id = none ∧
      onArbiterResult serde c id result = .error ⟨"escrow not found"⟩) ∨
      ∃ e e', c.escrows id = some e ∧
        ((onArbiterResult serde c id result = .ok (c.insert id e', none) ∧ e'.status = .Created) ∨
          (onArbiterResult serde c id result = .ok (c.insert id e', some (e.worker, e.amount)) ∧
            e'.status = .Paid)) ∧ e'.origin = e.origin := by
  cases he : c.escrows id with
  | none => exact .inl ⟨rfl, by simp [onArbiterResult, he, expect]⟩
  | some e =>
    simp only [onArbiterResult, he, expect, ok_bind]
    split
    · exact .inr ⟨e, _, rfl, .inr ⟨rfl, rfl⟩, rfl⟩
    · exact .inr ⟨e, _, rfl, .inl ⟨rfl, rfl⟩, rfl⟩

lemma onPayout_false (he : c.escrows id = some e) :
    onPayout c id false = c.insert id { e with status := .PayoutFailed } := by
  simp [onPayout, he]

lemma dropIndex_escrows (e : Escrow) : (dropIndex serde c e).escrows = c.escrows := by
  unfold dropIndex
  split
  · split <;> rfl
  · rfl

lemma dropIndex_nextId (e : Escrow) : (dropIndex serde c e).nextId = c.nextId := by
  unfold dropIndex
  split
  · split <;> rfl
  · rfl

lemma cancelExpired_ok {buyer : String} {amount : ℕ}
    (h : cancelExpired serde c env id = .ok (c', buyer, amount)) :
    ∃ e, c.escrows id = some e ∧ (e.status = .PayoutFailed ∨ e.status = .Created) ∧
      c' = dropIndex serde { c with escrows := Function.update c.escrows id none } e ∧
      buyer = e.buyer ∧ amount = e.amount + e.storageDeposit := by
  simp only [cancelExpired, bind_ok_iff, guard_ok_iff, expect_ok_iff, pure_ok_iff,
    Prod.mk.injEq] at h
  obtain ⟨e, he, -, -, -, hpaid, -, hresolving, -, -, rfl, rfl, rfl⟩ := h
  refine ⟨e, he, ?_, rfl, rfl, rfl⟩
  cases hs : e.status with
  | Created      => exact .inr rfl
  | Resolving    => exact absurd hs hresolving
  | Paid         => exact absurd hs hpaid
  | PayoutFailed => exact .inl rfl

lemma resetStuck_ok (h : resetStuck c env id = .ok c') :
    ∃ e, c.escrows id = some e ∧ e.status = .Resolving ∧
      c' = c.insert id { e with status := .Created } := by
  simp only [resetStuck, bind_ok_iff, guard_ok_iff, expect_ok_iff, pure_ok_iff] at h
  obtain ⟨e, he, -, hs, -, -, rfl⟩ := h
  exact ⟨e, he, hs, rfl⟩

end Suwappu.Near.ArbiterV2
