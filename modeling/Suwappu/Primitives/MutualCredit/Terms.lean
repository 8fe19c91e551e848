import Suwappu.Primitives.MutualCredit.Change

/-!
# The terms that are accepted

`acceptLine` names the proposer but not the terms, so it binds whatever the proposer proposed
last. Between the moment the acceptor reads a proposal and the moment the acceptance is executed
the proposer can cancel and propose again; the terms that are read are the terms that are bound
exactly as long as every such proposal repeats them.
-/

namespace Suwappu.MutualCredit

open Checked

variable {s s' : State} {l l' : Line} {acceptor proposer token : Address} {now : BlockTime}
  {key : LineKey} {call : Call}

/-- What a proposal fixes. -/
structure Terms where
  feeRate : ℕ
  grace : BlockTime
  limit : ℕ
deriving DecidableEq

/-- The terms of a line between `proposer` and `acceptor`. -/
def Line.terms (l : Line) (proposer acceptor : Address) : Terms :=
  ⟨l.feeRate, l.grace, l.extended proposer acceptor⟩

lemma proposed_terms (hne : proposer ≠ acceptor) (now : BlockTime) (myLimit feeRate : ℕ)
    (grace : BlockTime) :
    (Line.proposed now proposer acceptor myLimit feeRate grace).terms proposer acceptor
      = ⟨feeRate, grace, myLimit⟩ := by
  rw [Line.terms, Line.extended, Line.proposed]
  dsimp only
  rcases lt_or_gt_of_ne hne with hlt | hgt
  · rw [pair_of_lt hlt, if_pos hlt, if_pos rfl]
  · rw [pair_of_gt hgt, if_neg hgt.asymm, if_neg hne]

/-- The acceptor sets its own limit only. -/
lemma accepted_terms (hne : proposer ≠ acceptor) (l : Line) (now : BlockTime) (myLimit : ℕ) :
    (l.accepted now acceptor proposer myLimit).terms proposer acceptor
      = l.terms proposer acceptor := by
  rw [Line.terms, Line.terms, Line.extended, Line.extended, Line.accepted]
  dsimp only
  rcases lt_or_gt_of_ne hne with hlt | hgt
  · rw [pair_of_gt hlt, if_pos hlt, if_pos hlt, if_neg hne.symm]
  · rw [pair_of_lt hgt, if_neg hgt.asymm, if_neg hgt.asymm, if_pos rfl]

/-! ### One call -/

/-- Acceptance of the line reverts, or activates it with the terms `terms`. -/
def Binds (acceptor proposer token : Address) (terms : Terms) (s : State) : Prop :=
  ∀ myLimit s', acceptLine s acceptor proposer token myLimit = .ok s' →
    (s'.lines (lineKey acceptor proposer token)).status = .Active ∧
      (s'.lines (lineKey acceptor proposer token)).terms proposer acceptor = terms

/-- If the call is a successful proposal of `proposer` to `acceptor`, it has the terms `terms`. -/
def Repeats (acceptor proposer token : Address) (terms : Terms) (s : State) : Call → Prop
  | .proposeLine sender counterparty token' myLimit feeRate grace =>
    sender = proposer ∧ counterparty = acceptor ∧ token' = token ∧
        (proposeLine s sender counterparty token' myLimit feeRate grace).isOk = true →
      (⟨feeRate, grace, myLimit⟩ : Terms) = terms
  | _ => True

/-- The proposal of `proposer`, if there is one, has the terms `terms`. -/
def Offers (acceptor proposer : Address) (terms : Terms) (l : Line) : Prop :=
  l.status = .Proposed → l.proposer = proposer → l.terms proposer acceptor = terms

lemma acceptLine_eq {myLimit : ℕ} (hne : proposer ≠ acceptor)
    (hs : (s.lines (lineKey acceptor proposer token)).status = .Proposed)
    (hproposer : (s.lines (lineKey acceptor proposer token)).proposer = proposer) :
    acceptLine s acceptor proposer token myLimit = .ok (s.setLine (lineKey acceptor proposer token)
      ((s.lines (lineKey acceptor proposer token)).accepted s.now acceptor proposer myLimit)) := by
  simp only [acceptLine, bind_ok_iff, guard_ok_iff, exists_const, pure_ok_iff]
  refine ⟨⟨hs, hproposer, hne⟩, ?_⟩
  unfold Line.accepted
  split_ifs <;> rfl

lemma binds_iff_offers {terms : Terms} (hne : proposer ≠ acceptor) :
    Binds acceptor proposer token terms s ↔
      Offers acceptor proposer terms (s.lines (lineKey acceptor proposer token)) := by
  constructor
  · intro h hs hproposer
    have h := (h 0 _ (acceptLine_eq hne hs hproposer)).2
    rwa [setLine_self, accepted_terms hne] at h
  · intro h myLimit s' hok
    have hguard := hok
    simp only [acceptLine, bind_ok_iff, guard_ok_iff, exists_const] at hguard
    obtain ⟨⟨hs, hproposer, -⟩, -⟩ := hguard
    rw [acceptLine_eq hne hs hproposer, Except.ok.injEq] at hok
    obtain rfl := hok
    rw [setLine_self, accepted_terms hne]
    exact ⟨by rw [Line.accepted], h hs hproposer⟩

lemma proposeLine_ok {sender counterparty : Address} {myLimit feeRate : ℕ} {grace : BlockTime}
    (h : proposeLine s sender counterparty token myLimit feeRate grace = .ok s') :
    s' = s.setLine (lineKey sender counterparty token)
      (.proposed s.now sender counterparty myLimit feeRate grace) := by
  simp only [proposeLine, bind_ok_iff, guard_ok_iff, exists_const, pure_ok_iff] at h
  exact h.2.2.2.symm

/-- A successful call that repeats the terms keeps the offer. -/
lemma Change.offers {terms : Terms} (h : Change now (lineKey acceptor proposer token) call l l')
    (ho : Offers acceptor proposer terms l) (hne : proposer ≠ acceptor)
    (hok : (step s call).isOk = true) (hr : Repeats acceptor proposer token terms s call) :
    Offers acceptor proposer terms l' := by
  intro hs' hproposer'
  cases h with
  | keep => exact ho hs' hproposer'
  | propose hkey =>
    obtain ⟨rfl, ⟨rfl, rfl⟩ | ⟨rfl, rfl⟩⟩ := lineKey_eq_iff.mp hkey
    · exact absurd hproposer'.symm hne
    · rw [proposed_terms hne]
      exact hr ⟨rfl, rfl, rfl, hok⟩
  | accept => exact absurd hs' (by simp [Line.accepted])
  | withdraw => exact absurd hs' (by simp)
  | pay hkey hs => exact absurd hs' (by simp [hs])
  | reduce hkey hs => exact absurd hs' (by rcases hs with hs | hs <;> simp [hs])
  | demand hkey hs => exact absurd (hs.symm.trans hs') (by simp)
  | default => exact absurd hs' (by simp)
  | close => exact absurd hs' (by simp)

/-- The condition on a call says exactly that the call keeps the offer. -/
lemma repeats_iff_offers {terms : Terms} (hS : Sound s) (hne : proposer ≠ acceptor)
    (ho : Offers acceptor proposer terms (s.lines (lineKey acceptor proposer token))) :
    Repeats acceptor proposer token terms s call ↔ Offers acceptor proposer terms
      ((machine.exec s call).lines (lineKey acceptor proposer token)) := by
  constructor
  · intro hr
    rcases Machine.exec_cases (M := machine) s call with hexec | hexec
    · rwa [hexec]
    · have hexec : step s call = .ok (machine.exec s call) := hexec
      exact ((changed_of_step hS hexec).line _).offers ho hne (by rw [hexec]; rfl) hr
  · intro h
    cases call with
    | proposeLine sender counterparty token' myLimit feeRate grace =>
      rintro ⟨rfl, rfl, rfl, hok⟩
      have hexec := Machine.step_of_isOk (M := machine)
        (a := .proposeLine sender counterparty token' myLimit feeRate grace) hok
      rw [proposeLine_ok hexec, lineKey_comm, setLine_self] at h
      rw [← proposed_terms hne s.now]
      exact h rfl rfl
    | _ => trivial

/-! ### Every run -/

/-- The acceptor has seen a proposal. In every state reached from there the acceptance reverts or
binds the terms that were seen, if and only if every proposal made since repeats them. -/
theorem acceptance_binds_iff (t₀ : BlockTime) (pre mid : List Call)
    (acceptor proposer token : Address)
    (hseen : ((machine.run (State.init t₀) pre).lines
      (lineKey acceptor proposer token)).status = .Proposed) :
    let seen := machine.run (State.init t₀) pre
    let terms := (seen.lines (lineKey acceptor proposer token)).terms proposer acceptor
    machine.Along (Repeats acceptor proposer token terms) seen mid ↔
      ∀ mid', mid' <+: mid → Binds acceptor proposer token terms (machine.run seen mid') := by
  intro seen terms
  have hS : Sound seen := sound_of_run t₀ pre
  have hne : proposer ≠ acceptor :=
    (ne_of_lineKey_lt (hS.proper (lineKey acceptor proposer token) (by simp [seen, hseen]))).symm
  refine Machine.along_iff_forall_initial (M := machine) (I := Sound) (fun s call hS => ?_)
    (fun s call hS ho => ?_) mid hS ?_
  · exact Machine.exec_induction (M := machine) (fun _ h => hS.of_step h) hS
  · rw [binds_iff_offers hne] at ho ⊢
    exact repeats_iff_offers hS hne ho
  · rw [binds_iff_offers hne]
    exact fun _ _ => rfl

/-- Withdrawn and made again with the same terms, a proposal binds as it was seen. -/
theorem acceptance_binds_repeated :
    Binds 2 1 9 ⟨0, 60, 100⟩ (machine.run (State.init 5) ([.proposeLine 1 2 9 100 0 60] ++
      [.cancelProposal 1 2 9, .proposeLine 1 2 9 100 0 60])) := by
  rw [Machine.run_append]
  exact (acceptance_binds_iff 5 [.proposeLine 1 2 9 100 0 60]
    [.cancelProposal 1 2 9, .proposeLine 1 2 9 100 0 60] 2 1 9 (by decide +kernel)).mp
    ⟨trivial, fun _ => by decide +kernel, trivial⟩ _ List.prefix_rfl

/-- A proposal can be replaced by a dearer one before it is accepted. -/
theorem accepted_terms_unseen :
    ¬ ∀ (t₀ : BlockTime) (pre mid : List Call) (acceptor proposer token : Address),
      ((machine.run (State.init t₀) pre).lines
        (lineKey acceptor proposer token)).status = .Proposed →
      Binds acceptor proposer token (((machine.run (State.init t₀) pre).lines
        (lineKey acceptor proposer token)).terms proposer acceptor)
        (machine.run (machine.run (State.init t₀) pre) mid) := by
  intro h
  have h := (h 5 [.proposeLine 1 2 9 100 0 60]
    [.cancelProposal 1 2 9, .proposeLine 1 2 9 100 (10 ^ 9) 0] 2 1 9 (by decide +kernel) 50 _
    rfl).2
  revert h
  decide +kernel

end Suwappu.MutualCredit
