import Suwappu.Near.ArbiterV3.Basic

/-!
# What the methods of the arbiter escrow do

One lemma for each method: what a successful call established, and what it left behind.
-/

namespace Suwappu.Near.ArbiterV3

open Checked InFlight

variable {host : Host} {serde : Serde} {c c' : ArbiterEscrow} {e : Escrow} {env : Env} {id : ℕ}

/-- The escrow as it was created: everything that `resolve` and its callbacks write is undone. -/
def Escrow.origin (e : Escrow) : Escrow :=
  { e with
    status := .Created
    resolvingSinceBlock := 0
    resolveNonce := 0
    lastVerdict := none
    lastReason := none
    evidenceHash := none }

lemma pullRequest_origin (e : Escrow) : e.origin.pullRequest serde = e.pullRequest serde := rfl

lemma githubTerms_ok {t : Json} {repo : String} {pr : ℕ} (h : githubTerms t = .ok (repo, pr)) :
    (t.get "repo").asStr = some repo ∧ (t.get "pr_number").asU64 = some pr := by
  simp only [githubTerms, bind_ok_iff, guard_ok_iff, expect_ok_iff, pure_ok_iff,
    Prod.mk.injEq] at h
  obtain ⟨repo', hrepo, -, -, author, -, -, -, pr', hpr, -, -, rfl, rfl⟩ := h
  exact ⟨hrepo, hpr⟩

/-- Only a pull request is registered, and only when its key is free. -/
lemma newIndexKey_ok {buyer terms : String} {t : Json} {r : Rubric} {deadline : ℕ}
    {key : Option String} (h : newIndexKey host c buyer terms t r deadline = .ok key) :
    (r.name ≠ RUBRIC_GITHUB_PR ∧ key = none) ∨
      ∃ repo pr, (t.get "repo").asStr = some repo ∧ (t.get "pr_number").asU64 = some pr ∧
        key = some (prKey buyer repo pr) ∧ c.prIndex (prKey buyer repo pr) = none := by
  unfold newIndexKey at h
  split at h
  · simp only [bind_ok_iff, guard_ok_iff, pure_ok_iff] at h
    obtain ⟨-, -, ⟨repo, pr⟩, hterms, -, -, -, hfree, rfl⟩ := h
    obtain ⟨hrepo, hpr⟩ := githubTerms_ok hterms
    exact .inr ⟨repo, pr, hrepo, hpr, rfl, Option.isNone_iff_eq_none.mp hfree⟩
  · rename_i hname
    simp only [bind_ok_iff, guard_ok_iff] at h
    obtain ⟨-, -, h⟩ := h
    split at h
    · simp only [pure_ok_iff] at h
      exact .inl ⟨hname, h.symm⟩
    · cases h

lemma createEscrow_ok {usageBefore usageAfter : ℕ} {worker terms : String}
    (h : createEscrow host c env usageBefore usageAfter worker terms = .ok (c', id)) :
    id = c.nextId ∧ ∃ e, e.origin = e ∧ e.amount + e.storageDeposit = env.attachedDeposit ∧
      c'.nextId = c.nextId + 1 ∧ c'.escrows = Function.update c.escrows c.nextId (some e) ∧
      ((e.rubric ≠ RUBRIC_GITHUB_PR ∧ c'.prIndex = c.prIndex) ∨
        ∃ repo pr, e.pullRequest host.serde = some (repo, pr) ∧
          c.prIndex (prKey e.buyer repo pr) = none ∧
          c'.prIndex = Function.update c.prIndex (prKey e.buyer repo pr) (some c.nextId)) := by
  simp only [createEscrow, bind_ok_iff, guard_ok_iff, expect_ok_iff, pure_ok_iff,
    Prod.mk.injEq] at h
  obtain ⟨-, -, -, -, t, ht, r, hr, deadline, -, -, -, -, -, key, hkey, -, hdeposit, rfl, rfl⟩ := h
  have hcost := (le_minDeposit host.storageByteCost (usageAfter - usageBefore + 384)).trans hdeposit
  refine ⟨rfl, _, rfl, Nat.sub_add_cancel hcost, rfl, rfl, ?_⟩
  rcases newIndexKey_ok hkey with ⟨hname, rfl⟩ | ⟨repo, pr, hrepo, hpr, rfl, hfree⟩
  · exact .inl ⟨rubricDef_name hr ▸ hname, rfl⟩
  · exact .inr ⟨repo, pr, by simp only [Escrow.pullRequest, ht, hrepo, hpr], hfree, rfl⟩

lemma resolve_ok {m : Message} (h : resolve host c env id = .ok (c', m)) :
    m.Idle ∧ ∃ e e', c.escrows id = some e ∧ e.status = .Created ∧ c' = c.insert id e' ∧
      e'.status = .Resolving ∧ e'.origin = e.origin := by
  simp only [resolve, bind_ok_iff, guard_ok_iff, expect_ok_iff, pure_ok_iff, Prod.mk.injEq] at h
  obtain ⟨-, -, -, -, e, he, -, hs, r, -, -, -, t, -, input, -, rfl, rfl⟩ := h
  exact ⟨trivial, e, _, he, hs, rfl, rfl, rfl⟩

/-- The callback of a resolution ignores everything but the current round of an escrow in
`Resolving`. -/
lemma onArbiterResult_cases {nonce : ℕ} {result : Option (List UInt8)}
    {payout : Option (String × ℕ)} (h : onArbiterResult serde c id nonce result = (c', payout)) :
    (c' = c ∧ payout = none) ∨
      ∃ e e', c.escrows id = some e ∧ e.status = .Resolving ∧ e.resolveNonce = nonce ∧
        c' = c.insert id e' ∧ e'.origin = e.origin ∧
        ((e'.status = .Created ∧ payout = none) ∨
          (e'.status = .Paid ∧ payout = some (e.worker, e.amount))) := by
  unfold onArbiterResult at h
  split at h
  · cases h
    exact .inl ⟨rfl, rfl⟩
  · rename_i e he
    split at h
    · cases h
      exact .inl ⟨rfl, rfl⟩
    · rename_i hcurrent
      rw [not_or, not_not, not_not] at hcurrent
      dsimp only at h
      split at h
      · cases h
        exact .inr ⟨e, _, he, hcurrent.1, hcurrent.2, rfl, rfl, .inr ⟨rfl, rfl⟩⟩
      · cases h
        exact .inr ⟨e, _, he, hcurrent.1, hcurrent.2, rfl, rfl, .inl ⟨rfl, rfl⟩⟩

variable (c id) in
lemma onPayout_false :
    (onPayout c id false = c ∧ ∀ e, c.escrows id = some e → e.status ≠ .Paid) ∨
      ∃ e, c.escrows id = some e ∧ e.status = .Paid ∧
        onPayout c id false = c.insert id { e with status := .PayoutFailed } := by
  cases he : c.escrows id with
  | none => exact .inl ⟨by simp [onPayout, he], fun e h => by cases h⟩
  | some e =>
    by_cases hs : e.status = .Paid
    · exact .inr ⟨e, rfl, hs, by simp [onPayout, he, hs, Option.filter]⟩
    · refine .inl ⟨by simp [onPayout, he, hs, Option.filter], fun e' h => ?_⟩
      cases h
      exact hs

lemma dropIndex_escrows (e : Escrow) : (dropIndex serde c e).escrows = c.escrows := by
  unfold dropIndex
  split
  · rfl
  · split <;> rfl

lemma dropIndex_nextId (e : Escrow) : (dropIndex serde c e).nextId = c.nextId := by
  unfold dropIndex
  split
  · rfl
  · split <;> rfl

/-- Only the key of the escrow itself leaves the registry. -/
lemma dropIndex_prIndex {key : String}
    (h : ∀ repo pr, e.rubric = RUBRIC_GITHUB_PR → e.pullRequest serde = some (repo, pr) →
      prKey e.buyer repo pr ≠ key) : (dropIndex serde c e).prIndex key = c.prIndex key := by
  unfold dropIndex
  split
  · rfl
  · rename_i hrubric
    split
    · rename_i repo pr hpr
      exact Function.update_of_ne (h repo pr (not_not.mp hrubric) hpr).symm _ _
    · rfl

lemma cancelExpired_ok {buyer : String} {amount : ℕ}
    (h : cancelExpired serde c env id = .ok (c', buyer, amount)) :
    ∃ e, c.escrows id = some e ∧ env.predecessor = e.buyer ∧
      (e.status = .PayoutFailed ∨
        e.status = .Created ∧ e.deadlineUnix + REFUND_GRACE_SECS ≤ env.now) ∧
      c' = dropIndex serde { c with escrows := Function.update c.escrows id none } e ∧
      buyer = e.buyer ∧ amount = e.amount + e.storageDeposit := by
  simp only [cancelExpired, bind_ok_iff, guard_ok_iff, expect_ok_iff, pure_ok_iff,
    Prod.mk.injEq] at h
  obtain ⟨e, he, -, hbuyer, -, hpaid, -, hresolving, -, htime, rfl, rfl, rfl⟩ := h
  refine ⟨e, he, hbuyer, ?_, rfl, rfl, rfl⟩
  rcases htime with hfailed | hlate
  · exact .inl hfailed
  · cases hs : e.status with
    | Created      => exact .inr ⟨rfl, hlate⟩
    | Resolving    => exact absurd hs hresolving
    | Paid         => exact absurd hs hpaid
    | PayoutFailed => exact .inl rfl

lemma resetStuck_ok (h : resetStuck c env id = .ok c') :
    ∃ e, c.escrows id = some e ∧ e.status = .Resolving ∧
      c' = c.insert id { e with status := .Created } := by
  simp only [resetStuck, bind_ok_iff, guard_ok_iff, expect_ok_iff, pure_ok_iff] at h
  obtain ⟨e, he, -, hs, -, -, rfl⟩ := h
  exact ⟨e, he, hs, rfl⟩

end Suwappu.Near.ArbiterV3
