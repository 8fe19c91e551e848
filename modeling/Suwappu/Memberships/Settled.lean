import Suwappu.Memberships.Soulbound

/-!
# Authorizations settle once

The nonce of an authorization commits to a payer, to what the payer buys, and to how many of the
payer's authorizations were settled before. `settled_once`: so what is settled was signed, and of
the authorizations signed at one count only one settles.
-/

namespace Suwappu.Memberships

open Checked

variable {Digest : Type} [DecidableEq Digest] {keccak : Keccak Digest} {w w' : World Digest}
  {s s' : Storage} {settled : List (Settled Digest)} {e : Settled Digest}

/-- How many of the authorizations are of `payer`. -/
def settledOf (payer : Address) (settled : List (Settled Digest)) : ℕ :=
  settled.countP fun e => e.payer = payer

/-- The next authorization of `payer`, under the nonce of its turn. -/
def nextSettled (keccak : Keccak Digest) (settled : List (Settled Digest)) (payer : Address)
    (tier : Tier) (periods : ℕ) : Settled Digest :=
  ⟨payer, keccak (payer, tier, periods, settledOf payer settled % 2 ^ 256), tier, periods⟩

/-- Authorizations settled in turn. -/
inductive Numbered (keccak : Keccak Digest) : List (Settled Digest) → Prop where
  | nil : Numbered keccak []
  | snoc {settled : List (Settled Digest)} (h : Numbered keccak settled) (payer : Address)
    (tier : Tier) (periods : ℕ) :
    Numbered keccak (settled ++ [nextSettled keccak settled payer tier periods])

omit [DecidableEq Digest] in
lemma settledOf_snoc (payer : Address) :
    settledOf payer (settled ++ [e]) =
      settledOf payer settled + if e.payer = payer then 1 else 0 := by
  rw [settledOf, List.countP_append, List.countP_singleton, settledOf]
  simp only [decide_eq_true_eq]

omit [DecidableEq Digest] in
/-- Each was numbered by fewer than were settled in the end. -/
lemma Numbered.turn (h : Numbered keccak settled) :
    ∀ e ∈ settled, ∃ j < settledOf e.payer settled,
      e.nonce = keccak (e.payer, e.tier, e.periods, j % 2 ^ 256) := by
  induction h with
  | nil => exact fun e he => absurd he List.not_mem_nil
  | @snoc settled _ payer tier periods ih =>
    intro e he
    rw [settledOf_snoc]
    rcases List.mem_append.mp he with he | he
    · obtain ⟨j, hj, hnonce⟩ := ih e he
      exact ⟨j, hj.trans_le (Nat.le_add_right _ _), hnonce⟩
    · obtain rfl := List.mem_singleton.mp he
      refine ⟨settledOf payer settled, ?_, rfl⟩
      rw [if_pos rfl]
      exact Nat.lt_succ_self _

omit [DecidableEq Digest] in
lemma Numbered.alternatives (hkeccak : Function.Injective keccak) (h : Numbered keccak settled)
    (hlength : settled.length ≤ 2 ^ 256) :
    settled.Pairwise fun e e' => ∀ payer tier tier' periods periods' seq,
      e.nonce = keccak (payer, tier, periods, seq) →
        e'.nonce ≠ keccak (payer, tier', periods', seq) := by
  induction h with
  | nil => exact .nil
  | @snoc settled hnumbered payer tier periods ih =>
    rw [List.length_append, List.length_singleton] at hlength
    refine List.pairwise_append.mpr ⟨ih (by omega), List.pairwise_singleton _ _, ?_⟩
    intro e he e' he' payer' tier₁ tier₂ periods₁ periods₂ seq hfirst hsecond
    obtain rfl := List.mem_singleton.mp he'
    obtain ⟨j, hj, hnonce⟩ := hnumbered.turn e he
    have hsame := hkeccak (hnonce.symm.trans hfirst)
    have hnext := hkeccak ((show _ = _ from rfl).trans hsecond)
    simp only [Prod.mk.injEq] at hsame hnext
    have hpayer : e.payer = payer := hsame.1.trans hnext.1.symm
    have hcount : settledOf payer settled ≤ settled.length := List.countP_le_length
    rw [hpayer] at hj
    have hlate := hsame.2.2.2.trans hnext.2.2.2.symm
    rw [Nat.mod_eq_of_lt (by omega), Nat.mod_eq_of_lt (by omega)] at hlate
    exact hj.ne hlate

/-! ### Runs -/

lemma purchase_seq {member : Address} {tier : Tier} {periods price : ℕ}
    (h : purchase s member tier periods price = .ok s') :
    s'.subscriptionSeq = s.subscriptionSeq := by
  simp only [purchase, bind_ok_iff, pure_ok_iff] at h
  obtain ⟨⟨s₁, id⟩, htoken, m, -, rfl⟩ := h
  rcases tokenFor_ok htoken with ⟨rfl, -, -⟩ | ⟨rfl, -, -⟩ <;> rfl

/-- A call settles nothing, or the next authorization of a payer. -/
lemma settled_of_step {call : Call Digest} (h : step keccak w call = .ok w') :
    w'.storage.subscriptionSeq = w.storage.subscriptionSeq ∧ w'.settled = w.settled ∨
      ∃ payer tier periods,
        w'.storage.subscriptionSeq = Function.update w.storage.subscriptionSeq payer
            ((w.storage.subscriptionSeq payer + 1) % 2 ^ 256) ∧
          w'.settled = w.settled ++
            [⟨payer, keccak (payer, tier, periods, w.storage.subscriptionSeq payer), tier,
              periods⟩] := by
  cases call with
  | subscribeWithAuthorization env tier periods maxPricePerPeriod auth =>
    simp only [step, subscribeWithAuthorization, bind_ok_iff, guard_ok_iff, pure_ok_iff] at h
    obtain ⟨s, ⟨price, -, _, -, _, -, _, hnonce, _, -, _, -, hpurchase⟩, rfl⟩ := h
    refine .inr ⟨auth.payer, tier, periods, purchase_seq hpurchase, ?_⟩
    dsimp only
    rw [hnonce]
  | subscribe env tier periods maxPricePerPeriod =>
    simp only [step, subscribe, bind_ok_iff, pure_ok_iff] at h
    obtain ⟨s, ⟨price, -, cost, -, _, -, hpurchase⟩, rfl⟩ := h
    exact .inl ⟨purchase_seq hpurchase, rfl⟩
  | mintFree env =>
    simp only [step, mintFree, bind_ok_iff, pure_ok_iff] at h
    obtain ⟨_, ⟨⟨s, id⟩, hmint, rfl⟩, rfl⟩ := h
    obtain ⟨rfl, -, -⟩ := mintTo_ok hmint
    exact .inl ⟨rfl, rfl⟩
  | grantTime env dst tier duration =>
    simp only [step, bind_ok_iff, pure_ok_iff] at h
    obtain ⟨s, hgrant, rfl⟩ := h
    obtain ⟨-, -, -, s₁, id, m, htoken, rfl, -⟩ := grantTime_credited hgrant
    rcases tokenFor_ok htoken with ⟨rfl, -, -⟩ | ⟨rfl, -, -⟩ <;> exact .inl ⟨rfl, rfl⟩
  | transferFrom env src dst tokenId =>
    simp only [step, bind_ok_iff] at h
    obtain ⟨_, htransfer, -⟩ := h
    exact absurd htransfer transferFrom_fails
  | approve => cases h
  | setApprovalForAll => cases h
  | renounceOwnership => cases h
  | setTreasury env treasury =>
    simp only [step, setTreasury, bind_ok_iff, pure_ok_iff] at h
    obtain ⟨_, ⟨_, -, _, -, rfl⟩, rfl⟩ := h
    exact .inl ⟨rfl, rfl⟩
  | setPrice env tier price =>
    simp only [step, setPrice, bind_ok_iff, pure_ok_iff] at h
    obtain ⟨_, ⟨_, -, _, -, _, -, rfl⟩, rfl⟩ := h
    exact .inl ⟨rfl, rfl⟩
  | transferOwnership env newOwner =>
    simp only [step, transferOwnership, bind_ok_iff, pure_ok_iff] at h
    obtain ⟨_, ⟨_, -, _, -, rfl⟩, rfl⟩ := h
    exact .inl ⟨rfl, rfl⟩
  | advance time =>
    simp only [step, bind_ok_iff, pure_ok_iff] at h
    obtain ⟨_, -, rfl⟩ := h
    exact .inl ⟨rfl, rfl⟩

/-- The sequence numbers count what was settled. -/
structure Counted (keccak : Keccak Digest) (w : World Digest) : Prop where
  numbered : Numbered keccak w.settled
  seq_eq : ∀ payer, w.storage.subscriptionSeq payer = settledOf payer w.settled % 2 ^ 256

lemma Counted.of_step {call : Call Digest} (h : Counted keccak w)
    (hstep : step keccak w call = .ok w') : Counted keccak w' := by
  rcases settled_of_step hstep with ⟨hseq, hsettled⟩ | ⟨payer, tier, periods, hseq, hsettled⟩
  · refine ⟨hsettled ▸ h.numbered, fun a => ?_⟩
    rw [hseq, hsettled]
    exact h.seq_eq a
  · rw [h.seq_eq payer] at hseq hsettled
    refine ⟨hsettled ▸ h.numbered.snoc payer tier periods, fun a => ?_⟩
    rw [hseq, hsettled, settledOf_snoc]
    dsimp only
    by_cases ha : payer = a
    · subst ha
      rw [Function.update_self, if_pos rfl, Nat.mod_add_mod]
    · rw [Function.update_of_ne (Ne.symm ha), if_neg ha, h.seq_eq, Nat.add_zero]

lemma settled_length_step {call : Call Digest} (h : step keccak w call = .ok w') :
    w'.settled.length ≤ w.settled.length + 1 := by
  rcases settled_of_step h with ⟨-, hsettled⟩ | ⟨payer, tier, periods, -, hsettled⟩
  · rw [hsettled]
    exact Nat.le_succ _
  · rw [hsettled, List.length_append, List.length_singleton]

theorem settled_once (keccak : Keccak Digest) (hkeccak : Function.Injective keccak)
    (treasury owner : Address) (now : BlockTime) (calls : List (Call Digest))
    (hlength : calls.length ≤ 2 ^ 256) :
    let settled := ((machine keccak).run (.init treasury owner now) calls).settled
    (∀ e ∈ settled, ∃ seq, e.nonce = keccak (e.payer, e.tier, e.periods, seq)) ∧
      settled.Pairwise fun e e' => ∀ payer tier tier' periods periods' seq,
        e.nonce = keccak (payer, tier, periods, seq) →
          e'.nonce ≠ keccak (payer, tier', periods', seq) := by
  intro settled
  have hcounted := Machine.run_induction (M := machine keccak) (I := Counted keccak)
    (fun _ _ _ hs hstep => hs.of_step hstep)
    (s := World.init treasury owner now) ⟨.nil, fun _ => rfl⟩ calls
  have hle := Machine.run_le_length (M := machine keccak) (f := fun w => w.settled.length)
    (fun _ _ _ hstep => settled_length_step hstep) (s := World.init treasury owner now) calls
  rw [show (World.init treasury owner now : World Digest).settled.length = 0 from rfl,
    Nat.zero_add] at hle
  refine ⟨fun e he => ?_, hcounted.numbered.alternatives hkeccak (hle.trans hlength)⟩
  obtain ⟨j, -, hnonce⟩ := hcounted.numbered.turn e he
  exact ⟨_, hnonce⟩

/-- Two months of one payer, under two authorizations. -/
theorem settled_once_renewal :
    let pay (seq : ℕ) : Call (Address × Tier × ℕ × ℕ) :=
      .subscribeWithAuthorization ⟨.ofNat 5, fun _ => true⟩ .Pro 1 9990000
        ⟨.ofNat 7, 9990000, (.ofNat 7, .Pro, 1, seq)⟩
    let settled := ((machine id).run (.init (.ofNat 1) (.ofNat 2) (.ofNat 1000))
      [pay 0, pay 0, pay 1]).settled
    settled.map (fun e => e.nonce) = [(.ofNat 7, .Pro, 1, 0), (.ofNat 7, .Pro, 1, 1)] ∧
      settled.Pairwise fun e e' => ∀ payer tier tier' periods periods' seq,
        e.nonce = (payer, tier, periods, seq) → e'.nonce ≠ (payer, tier', periods', seq) :=
  ⟨by decide +kernel, (settled_once id Function.injective_id (.ofNat 1) (.ofNat 2) (.ofNat 1000) _
    (by norm_num)).2⟩

end Suwappu.Memberships
