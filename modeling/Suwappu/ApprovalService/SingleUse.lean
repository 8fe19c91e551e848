import Suwappu.ApprovalService.Basic
import Suwappu.Lib.Rows

/-!
# Approvals are decided and used once

Whatever the calls do to one another, an approval is decided and consumed at most once, by one who
owns it, and a challenge stands behind at most one decision. That a decision is also in time holds
in the runs in which nothing expires while a transaction that decides by it is open.
-/

namespace Suwappu.ApprovalService

open Checked

variable (owners : Owners)

/-- How a status may move. -/
def Moves (before after : Status) : Prop :=
  before = after ∨ before = .pending ∧ (after = .approved ∨ after = .denied) ∨
    before = .approved ∧ after = .consumed

/-- Each approval is decided once at most, by an owner, and consumed once at most, and each
challenge is used once at most, for its approval and by its user, and was valid when it was looked
up. -/
structure SingleUse (s : State) : Prop where
  decided : ∀ id, s.decisions.countP (fun d => d.approvalId = id) ≤ 1
  consumed : ∀ id, s.consumptions.count id ≤ 1
  owned : ∀ d ∈ s.decisions, ∃ row, s.approvals[d.approvalId]? = some row ∧
    approvalOwnershipCondition owners d.userId row
  used : ∀ c, s.decisions.countP (fun d => d.challenge.map Prod.fst = some c) ≤ 1
  issued : ∀ d ∈ s.decisions, ∀ c ∈ d.challenge, ∃ row, s.challenges[c.1]? = some row ∧
    row.approvalId = d.approvalId ∧ row.userId = d.userId ∧ c.2 < row.expiresAt

/-- The decision is committed no earlier than the row says, and before its approval expires, and
its challenge if it has one. -/
structure Timely (s : State) (d : Decision) : Prop where
  built : d.decidedAt ≤ d.committedAt
  approval : ∃ row, s.approvals[d.approvalId]? = some row ∧ d.committedAt < row.expiresAt
  challenge : ∀ c ∈ d.challenge, ∃ row, s.challenges[c.1]? = some row ∧
    d.committedAt < row.expiresAt

def InTime (s : State) : Prop := ∀ d ∈ s.decisions, Timely s d

/-- An approval has not expired while the UPDATE that decides it waited for its row, nor have it
and the challenge until the transaction that has approved it is to commit. -/
def Prompt (s : State) : Proc → Answer → Prop
  | .decideWrite id _ _ startedAt, .none => id ∉ s.approvalLocks → ∀ row ∈ s.approvals[id]?,
    row.status = .pending → startedAt < row.expiresAt → s.now < row.expiresAt
  | .stepUpCommit id _ challengeId _ _, .none =>
    (∀ row ∈ s.approvals[id]?, s.now < row.expiresAt) ∧
      ∀ row ∈ s.challenges[challengeId]?, s.now < row.expiresAt
  | _, _ => True

instance decidablePrompt (s : State) : ∀ p answer, Decidable (Prompt s p answer) :=
  fun p answer => by unfold Prompt; split <;> infer_instance

/-! ### Rows -/

/-- What happens to the row of an approval. -/
structure Kept (a b : ApprovalRequest) : Prop where
  organizationId : b.organizationId = a.organizationId
  userId : b.userId = a.userId
  expiresAt : b.expiresAt = a.expiresAt
  status : Moves a.status b.status

/-- What happens to the row of a challenge. -/
structure Marked (a b : StepUpChallenge) : Prop where
  userId : b.userId = a.userId
  approvalId : b.approvalId = a.approvalId
  expiresAt : b.expiresAt = a.expiresAt

lemma Kept.refl (a : ApprovalRequest) : Kept a a := ⟨rfl, rfl, rfl, .inl rfl⟩

lemma Marked.refl (a : StepUpChallenge) : Marked a a := ⟨rfl, rfl, rfl⟩

structure Grows (s s' : State) : Prop where
  approvals : Rows.Extends Kept s.approvals s'.approvals
  challenges : Rows.Extends Marked s.challenges s'.challenges

variable {owners} {s s' : State} {id : ApprovalId} {userId : UserId} {c : ChallengeId}
  {usedAt : Time}

/-- No row has changed. -/
lemma Grows.of_eq (happrovals : s'.approvals = s.approvals)
    (hchallenges : s'.challenges = s.challenges) : Grows s s' :=
  ⟨happrovals ▸ .refl Kept.refl _, hchallenges ▸ .refl Marked.refl _⟩

/-- The approval is the user's. -/
def Owned (owners : Owners) (s : State) (id : ApprovalId) (userId : UserId) : Prop :=
  ∃ row, s.approvals[id]? = some row ∧ approvalOwnershipCondition owners userId row

/-- The challenge was issued to the user for the approval, and was looked up in time. -/
def Issued (s : State) (id : ApprovalId) (userId : UserId) (c : ChallengeId) (usedAt : Time) :
    Prop :=
  ∃ row, s.challenges[c]? = some row ∧ row.approvalId = id ∧ row.userId = userId ∧
    usedAt < row.expiresAt

lemma Owned.grows (h : Owned owners s id userId) (hs : Grows s s') :
    Owned owners s' id userId := by
  obtain ⟨row, hrow, howner⟩ := h
  obtain ⟨row', hrow', hkept⟩ := hs.approvals _ _ hrow
  refine ⟨row', hrow', ?_⟩
  rwa [approvalOwnershipCondition, hkept.organizationId, hkept.userId]

lemma Issued.grows (h : Issued s id userId c usedAt) (hs : Grows s s') :
    Issued s' id userId c usedAt := by
  obtain ⟨row, hrow, hid, huser, hused⟩ := h
  obtain ⟨row', hrow', hmarked⟩ := hs.challenges _ _ hrow
  exact ⟨row', hrow', by rw [hmarked.approvalId, hid], by rw [hmarked.userId, huser],
    by rwa [hmarked.expiresAt]⟩

lemma Timely.grows {d : Decision} (h : Timely s d) (hs : Grows s s') : Timely s' d where
  built := h.built
  approval := by
    obtain ⟨row, hrow, hlt⟩ := h.approval
    obtain ⟨row', hrow', hkept⟩ := hs.approvals _ _ hrow
    exact ⟨row', hrow', by rwa [hkept.expiresAt]⟩
  challenge c hc := by
    obtain ⟨row, hrow, hlt⟩ := h.challenge c hc
    obtain ⟨row', hrow', hmarked⟩ := hs.challenges _ _ hrow
    exact ⟨row', hrow', by rwa [hmarked.expiresAt]⟩

/-! ### The invariant -/

def Pending (s : State) (id : ApprovalId) : Prop :=
  ∃ row, s.approvals[id]? = some row ∧ row.status = .pending

structure Sound (owners : Owners) (s : State) (m : ApprovalId → ℕ) : Prop where
  holders : ∀ id, m id = s.approvalLocks.count id
  nodup : s.approvalLocks.Nodup
  locked : ∀ id ∈ s.approvalLocks, Pending s id
  decided : ∀ d ∈ s.decisions, Owned owners s d.approvalId d.userId ∧ ¬ Pending s d.approvalId ∧
    ∀ c ∈ d.challenge, Issued s d.approvalId d.userId c.1 c.2
  decisions : ∀ id, s.decisions.countP (fun d => d.approvalId = id) ≤ 1
  consumed : ∀ id ∈ s.consumptions, ∃ row, s.approvals[id]? = some row ∧ row.status = .consumed
  consumptions : ∀ id, s.consumptions.count id ≤ 1

/-- What a call knows of its approval and its challenge. -/
def Knows (owners : Owners) (s : State) : Proc → Prop
  | .decideUpdate id userId _ | .decideWrite id userId _ _ | .stepUpBegin id userId _
  | .stepUpSelect id userId _ _ => Owned owners s id userId
  | .stepUpUse id userId c _ usedAt => Owned owners s id userId ∧ Issued s id userId c usedAt
  | .stepUpApprove id userId c _ usedAt _ | .stepUpCommit id userId c usedAt _ =>
    Owned owners s id userId ∧ Issued s id userId c usedAt
  | _ => True

/-- The row that a transaction has written. -/
def holder : Proc → ApprovalId → ℕ
  | .stepUpCommit id _ _ _ _ => Pi.single id 1
  | _                        => 0

lemma Knows.grows {p : Proc} (h : Knows owners s p) (hs : Grows s s') : Knows owners s' p := by
  cases p with
  | decideUpdate | decideWrite | stepUpBegin | stepUpSelect => exact Owned.grows h hs
  | stepUpUse | stepUpApprove | stepUpCommit => exact ⟨h.1.grows hs, h.2.grows hs⟩
  | _ => trivial

/-! ### What the writes do -/

variable {m rest : ApprovalId → ℕ} {d : Decision} {input : CreateApprovalInput}

lemma grows_create (row : ApprovalRequest) : Grows s { s with approvals := s.approvals ++ [row] } :=
  ⟨.append Kept.refl _ _, .refl Marked.refl _⟩

lemma grows_issue (row : StepUpChallenge) :
    Grows s { s with challenges := s.challenges ++ [row] } :=
  ⟨.refl Kept.refl _, .append Marked.refl _ _⟩

lemma grows_useChallenge (c : ChallengeId) (usedAt : Time) : Grows s (s.useChallenge c usedAt) :=
  ⟨.refl Kept.refl _, .modify Marked.refl fun _ _ => ⟨rfl, rfl, rfl⟩⟩

lemma grows_decide (hpending : Pending s d.approvalId) : Grows s (s.decide d) := by
  obtain ⟨row, hrow, hstatus⟩ := hpending
  refine ⟨.modify Kept.refl fun a ha => ⟨rfl, rfl, rfl, .inr (.inl ⟨?_, ?_⟩)⟩,
    .refl Marked.refl _⟩
  · rw [hrow] at ha
    rw [← Option.some.inj ha, hstatus]
  · dsimp only
    cases d.outcome
    · exact .inl rfl
    · exact .inr rfl

lemma grows_consume (happroved : ∃ row ∈ s.approvals[id]?, row.status = .approved) :
    Grows s (s.consume id) := by
  obtain ⟨row, hrow, hstatus⟩ := happroved
  refine ⟨.modify Kept.refl fun a ha => ⟨rfl, rfl, rfl, .inr (.inr ⟨?_, rfl⟩)⟩,
    .refl Marked.refl _⟩
  rw [Option.mem_def.mp hrow] at ha
  rw [← Option.some.inj ha, hstatus]

/-- A step that moves no status. -/
lemma Sound.quiet (h : Sound owners s m) (hs : Grows s s')
    (hrows : ∀ (i : ℕ) (a : ApprovalRequest), s.approvals[i]? = some a →
      s'.approvals[i]? = some a)
    (hlocks : s'.approvalLocks = s.approvalLocks) (hdecisions : s'.decisions = s.decisions)
    (hconsumptions : s'.consumptions = s.consumptions) : Sound owners s' m where
  holders := by rw [hlocks]; exact h.holders
  nodup := by rw [hlocks]; exact h.nodup
  locked i hi := by
    obtain ⟨row, hrow, hstatus⟩ := h.locked i (hlocks ▸ hi)
    exact ⟨row, hrows _ _ hrow, hstatus⟩
  decided d hd := by
    obtain ⟨howned, hpending, hissued⟩ := h.decided d (hdecisions ▸ hd)
    refine ⟨howned.grows hs, ?_, fun c hc => (hissued c hc).grows hs⟩
    rintro ⟨row', hrow', hstatus⟩
    obtain ⟨row, hrow, -⟩ := howned
    rw [hrows _ _ hrow] at hrow'
    exact hpending ⟨row, hrow, Option.some.inj hrow' ▸ hstatus⟩
  decisions := by rw [hdecisions]; exact h.decisions
  consumed i hi := by
    obtain ⟨row, hrow, hstatus⟩ := h.consumed i (hconsumptions ▸ hi)
    exact ⟨row, hrows _ _ hrow, hstatus⟩
  consumptions := by rw [hconsumptions]; exact h.consumptions

lemma updateApproval_of_ne {i : ApprovalId} (f : ApprovalRequest → ApprovalRequest) (hi : i ≠ id) :
    (s.updateApproval id f).approvals[i]? = s.approvals[i]? := by
  rw [State.updateApproval, List.getElem?_modify]
  simp [Ne.symm hi]

lemma Pending.of_ne {i : ApprovalId} {f : ApprovalRequest → ApprovalRequest} (hi : i ≠ id) :
    Pending (s.updateApproval id f) i ↔ Pending s i := by
  rw [Pending, Pending, updateApproval_of_ne f hi]

/-- A decision on a pending approval that no transaction has written. -/
lemma Sound.decide (h : Sound owners s m) (hpending : Pending s d.approvalId)
    (hfree : d.approvalId ∉ s.approvalLocks) (howned : Owned owners s d.approvalId d.userId)
    (hissued : ∀ c ∈ d.challenge, Issued s d.approvalId d.userId c.1 c.2) :
    Sound owners (s.decide d) m := by
  have hgrows := grows_decide (s := s) (d := d) hpending
  have hnone : ∀ d' ∈ s.decisions, d'.approvalId ≠ d.approvalId := fun d' hd' heq =>
    (h.decided d' hd').2.1 (heq ▸ hpending)
  refine ⟨h.holders, h.nodup, fun i hi => ?_, fun d' hd' => ?_, fun i => ?_, fun i hi => ?_,
    h.consumptions⟩
  · have hne : i ≠ d.approvalId := fun heq => hfree (heq ▸ hi)
    exact (Pending.of_ne hne).mpr (h.locked i hi)
  · rcases List.mem_append.mp hd' with hold | hnew
    · obtain ⟨howned', hpending', hissued'⟩ := h.decided d' hold
      exact ⟨howned'.grows hgrows, mt (Pending.of_ne (hnone d' hold)).mp hpending',
        fun c hc => (hissued' c hc).grows hgrows⟩
    · rw [List.mem_singleton.mp hnew]
      refine ⟨howned.grows hgrows, ?_, fun c hc => (hissued c hc).grows hgrows⟩
      rintro ⟨row', hrow', hstatus⟩
      obtain ⟨row, hrow, -⟩ := hpending
      rw [State.decide, State.updateApproval, List.getElem?_modify, hrow] at hrow'
      simp only [Option.map_eq_map, Option.map_some, if_true, Option.some.injEq] at hrow'
      rw [← hrow'] at hstatus
      cases hd : d.outcome <;> simp [hd, Outcome.status] at hstatus
  · rw [State.decide, List.countP_append, List.countP_singleton]
    by_cases hi : d.approvalId = i
    · have hzero : s.decisions.countP (fun d' => d'.approvalId = i) = 0 :=
        List.countP_eq_zero.mpr fun d' hd' => by simpa [← hi] using hnone d' hd'
      simp [hzero, hi]
    · simpa [hi] using h.decisions i
  · obtain ⟨row, hrow, hstatus⟩ := h.consumed i hi
    have hne : i ≠ d.approvalId := by
      rintro rfl
      obtain ⟨row', hrow', hstatus'⟩ := hpending
      rw [hrow] at hrow'
      rw [Option.some.inj hrow', hstatus'] at hstatus
      cases hstatus
    exact ⟨row, (updateApproval_of_ne _ hne).trans hrow, hstatus⟩

lemma Sound.consume (h : Sound owners s m)
    (happroved : ∃ row ∈ s.approvals[id]?, row.status = .approved) :
    Sound owners (s.consume id) m := by
  have hgrows := grows_consume happroved
  obtain ⟨row, hrow, hstatus⟩ := happroved
  have hnot : ∀ status, (∃ row', s.approvals[id]? = some row' ∧ row'.status = status) →
      status = .approved := by
    rintro status ⟨row', hrow', rfl⟩
    rw [Option.mem_def.mp hrow] at hrow'
    rw [← Option.some.inj hrow', hstatus]
  have hconsumed : (s.consume id).approvals[id]? =
      some { row with status := .consumed, consumedAt := some s.now } := by
    rw [State.consume, State.updateApproval, List.getElem?_modify, Option.mem_def.mp hrow]
    simp
  refine ⟨h.holders, h.nodup, fun i hi => ?_, fun d hd => ?_, h.decisions, fun i hi => ?_,
    fun i => ?_⟩
  · have hne : i ≠ id := by
      rintro rfl
      cases hnot _ (h.locked i hi)
    exact (Pending.of_ne hne).mpr (h.locked i hi)
  · obtain ⟨howned, hpending, hissued⟩ := h.decided d hd
    refine ⟨howned.grows hgrows, ?_, fun c hc => (hissued c hc).grows hgrows⟩
    by_cases hne : d.approvalId = id
    · rintro ⟨row', hrow', hstatus'⟩
      rw [hne, hconsumed] at hrow'
      rw [← Option.some.inj hrow'] at hstatus'
      cases hstatus'
    · exact mt (Pending.of_ne hne).mp hpending
  · by_cases hne : i = id
    · rw [hne]
      exact ⟨_, hconsumed, rfl⟩
    · rcases List.mem_append.mp hi with hold | hnew
      · obtain ⟨row', hrow', hstatus'⟩ := h.consumed i hold
        exact ⟨row', (updateApproval_of_ne _ hne).trans hrow', hstatus'⟩
      · exact absurd (List.mem_singleton.mp hnew) hne
  · rw [State.consume, List.count_append, List.count_singleton]
    by_cases hne : id = i
    · have hzero : s.consumptions.count i = 0 := by
        refine List.count_eq_zero.mpr fun hmem => ?_
        cases hnot _ (hne ▸ h.consumed i hmem)
      simp [hzero, hne]
    · simpa [hne] using h.consumptions i

lemma Sound.lockApproval (h : Sound owners s (0 + rest)) (hfree : id ∉ s.approvalLocks)
    (hpending : Pending s id) : Sound owners (s.lockApproval id) (Pi.single id 1 + rest) := by
  refine ⟨fun i => ?_, List.nodup_cons.mpr ⟨hfree, h.nodup⟩, fun i hi => ?_, h.decided,
    h.decisions, h.consumed, h.consumptions⟩
  · have hi := h.holders i
    rw [zero_add] at hi
    rw [State.lockApproval, List.count_cons, ← hi, Pi.add_apply, Pi.single_apply, add_comm]
    by_cases heq : i = id
    · simp [heq]
    · simp [heq, Ne.symm heq]
  · rcases List.mem_cons.mp hi with rfl | hold
    · exact hpending
    · exact h.locked i hold

lemma Sound.unlockApproval (h : Sound owners s (Pi.single id 1 + rest)) :
    Sound owners (s.unlockApproval id) (0 + rest) := by
  refine ⟨fun i => ?_, h.nodup.erase id, fun i hi => h.locked i (List.mem_of_mem_erase hi),
    h.decided, h.decisions, h.consumed, h.consumptions⟩
  have hi := h.holders i
  rw [Pi.add_apply, Pi.single_apply] at hi
  rw [zero_add, State.unlockApproval, List.count_erase, ← hi]
  by_cases heq : i = id
  · simp [heq]
  · simp [heq, Ne.symm heq]

/-- The transaction that has written a row is alone with it. -/
lemma Sound.mem_of_holder (h : Sound owners s (Pi.single id 1 + rest)) : id ∈ s.approvalLocks := by
  have hi := h.holders id
  rw [Pi.add_apply, Pi.single_eq_same] at hi
  exact List.count_pos_iff.mp (by omega)

lemma Sound.free_of_unlock (h : Sound owners s m) : id ∉ (s.unlockApproval id).approvalLocks :=
  fun hmem => absurd (h.nodup.mem_erase_iff.mp hmem).1 (by simp)

/-- The step of a call that commits its challenge. -/
lemma Sound.commit {decidedAt : Time} (h : Sound owners s (Pi.single id 1 + rest))
    (howned : Owned owners s id userId) (hissued : Issued s id userId c usedAt) :
    Sound owners ((s.useChallenge c usedAt).decide
      ⟨id, userId, .approved, decidedAt, s.now, some (c, usedAt)⟩ |>.unlockApproval id)
      (0 + rest) := by
  have hgrows := grows_useChallenge (s := s) c usedAt
  have hquiet : Sound owners (s.useChallenge c usedAt) (Pi.single id 1 + rest) :=
    h.quiet hgrows (fun _ _ ha => ha) rfl rfl rfl
  have hunlocked : Grows s ((s.useChallenge c usedAt).unlockApproval id) :=
    ⟨hgrows.approvals, hgrows.challenges⟩
  refine Sound.decide (s := (s.useChallenge c usedAt).unlockApproval id) hquiet.unlockApproval
    (h.locked id h.mem_of_holder) hquiet.free_of_unlock (howned.grows hunlocked) ?_
  rintro c' hc'
  cases hc'
  exact hissued.grows hunlocked

/-! ### Steps -/

variable {p p' : Proc} {answer : Answer}

lemma owned_of_actionable (h : s.actionable owners id userId) : Owned owners s id userId := by
  obtain ⟨row, hrow, howner, -⟩ := h
  exact ⟨row, hrow, howner⟩

lemma pending_of_decidable {startedAt : Time} (h : s.decidable id startedAt) : Pending s id := by
  obtain ⟨row, hrow, hstatus, -⟩ := h
  exact ⟨row, hrow, hstatus⟩

lemma issued_of_validChallenge {stepUpChallenge : Nonce}
    (h : s.validChallenge stepUpChallenge userId id = some c) : Issued s id userId c s.now := by
  obtain ⟨-, hvalid⟩ := Option.filter_eq_some_iff.mp h
  obtain ⟨row, hrow, huser, hid, -, hexpires⟩ := of_decide_eq_true hvalid
  exact ⟨row, hrow, hid, huser, hexpires⟩

lemma Sound.create (h : Sound owners s m) (row : ApprovalRequest) :
    Sound owners { s with approvals := s.approvals ++ [row] } m :=
  h.quiet (grows_create row) (fun _ _ ha =>
    (List.getElem?_append_left (List.getElem?_eq_some_iff.mp ha).1).trans ha) rfl rfl rfl

lemma Sound.issue (h : Sound owners s m) (row : StepUpChallenge) :
    Sound owners { s with challenges := s.challenges ++ [row] } m :=
  h.quiet (grows_issue row) (fun _ _ ha => ha) rfl rfl rfl

lemma Sound.lockChallenge (h : Sound owners s m) (c : ChallengeId) :
    Sound owners (s.lockChallenge c) m :=
  h.quiet (.of_eq rfl rfl) (fun _ _ ha => ha) rfl rfl rfl

lemma Sound.unlockChallenge (h : Sound owners s m) (c : ChallengeId) :
    Sound owners (s.unlockChallenge c) m :=
  h.quiet (.of_eq rfl rfl) (fun _ _ ha => ha) rfl rfl rfl

theorem Sound.step (hI : Sound owners s (holder p + rest)) (hK : Knows owners s p)
    (h : ApprovalService.step owners s p answer = .ok (s', p')) :
    Sound owners s' (holder p' + rest) ∧ Knows owners s' p' ∧ Grows s s' := by
  cases p with
  | create input =>
    cases answer with
    | none =>
      dsimp only [ApprovalService.step] at h
      split_ifs at h
      · cases h
        exact ⟨hI, trivial, .of_eq rfl rfl⟩
      · cases h
        exact ⟨hI, trivial, .of_eq rfl rfl⟩
    | _ => cases h
  | createLookup input expiresAt =>
    cases answer with
    | agentOwner | fails =>
      cases h
      exact ⟨hI, trivial, .of_eq rfl rfl⟩
    | _ => cases h
  | createInsert input userId expiresAt =>
    cases answer with
    | none =>
      cases h
      exact ⟨hI.create _, trivial, grows_create _⟩
    | fails =>
      cases h
      exact ⟨hI, trivial, .of_eq rfl rfl⟩
    | _ => cases h
  | decide id userId outcome =>
    cases answer with
    | none =>
      dsimp only [ApprovalService.step] at h
      cases h
      split_ifs with howned
      · exact ⟨hI, owned_of_actionable howned, .of_eq rfl rfl⟩
      · exact ⟨hI, trivial, .of_eq rfl rfl⟩
    | fails =>
      cases h
      exact ⟨hI, trivial, .of_eq rfl rfl⟩
    | _ => cases h
  | decideUpdate id userId outcome =>
    cases answer with
    | none =>
      cases h
      exact ⟨hI, hK, .of_eq rfl rfl⟩
    | _ => cases h
  | decideWrite id userId outcome startedAt =>
    cases answer with
    | none =>
      dsimp only [ApprovalService.step] at h
      split_ifs at h with hlocked hdecidable
      · cases h
        have hpending := pending_of_decidable hdecidable
        exact ⟨hI.decide hpending hlocked hK nofun, trivial, grows_decide hpending⟩
      · cases h
        exact ⟨hI, trivial, .of_eq rfl rfl⟩
    | fails =>
      cases h
      exact ⟨hI, trivial, .of_eq rfl rfl⟩
    | _ => cases h
  | stepUp id userId stepUpChallenge =>
    cases answer with
    | none =>
      dsimp only [ApprovalService.step] at h
      cases h
      split_ifs with howned
      · exact ⟨hI, owned_of_actionable howned, .of_eq rfl rfl⟩
      · exact ⟨hI, trivial, .of_eq rfl rfl⟩
    | fails =>
      cases h
      exact ⟨hI, trivial, .of_eq rfl rfl⟩
    | _ => cases h
  | stepUpBegin id userId stepUpChallenge =>
    cases answer with
    | none =>
      cases h
      exact ⟨hI, hK, .of_eq rfl rfl⟩
    | _ => cases h
  | stepUpSelect id userId stepUpChallenge startedAt =>
    cases answer with
    | none =>
      dsimp only [ApprovalService.step] at h
      split at h
      · rename_i hvalid
        cases h
        exact ⟨hI, ⟨hK, issued_of_validChallenge hvalid⟩, .of_eq rfl rfl⟩
      · cases h
        exact ⟨hI, trivial, .of_eq rfl rfl⟩
    | fails =>
      cases h
      exact ⟨hI, trivial, .of_eq rfl rfl⟩
    | _ => cases h
  | stepUpUse id userId challengeId startedAt usedAt =>
    cases answer with
    | none =>
      dsimp only [ApprovalService.step] at h
      split_ifs at h
      cases h
      exact ⟨hI.lockChallenge _, hK, .of_eq rfl rfl⟩
    | fails =>
      cases h
      exact ⟨hI, trivial, .of_eq rfl rfl⟩
    | _ => cases h
  | stepUpApprove id userId challengeId startedAt usedAt decidedAt =>
    cases answer with
    | none =>
      dsimp only [ApprovalService.step] at h
      split_ifs at h with hlocked hdecidable
      · cases h
        exact ⟨hI.lockApproval hlocked (pending_of_decidable hdecidable), hK, .of_eq rfl rfl⟩
      · cases h
        exact ⟨hI.unlockChallenge _, trivial, .of_eq rfl rfl⟩
    | fails =>
      cases h
      exact ⟨hI.unlockChallenge _, trivial, .of_eq rfl rfl⟩
    | _ => cases h
  | stepUpCommit id userId challengeId usedAt decidedAt =>
    cases answer with
    | none =>
      cases h
      refine ⟨(hI.commit hK.1 hK.2).unlockChallenge _, trivial, ?_, ?_⟩
      · exact (grows_decide (s := s) (d := ⟨_, _, .approved, _, _, some (_, _)⟩)
          (hI.locked _ hI.mem_of_holder)).approvals
      · exact (grows_useChallenge _ _).challenges
    | fails =>
      cases h
      exact ⟨hI.unlockApproval.unlockChallenge _, trivial, .of_eq rfl rfl⟩
    | _ => cases h
  | issue id userId =>
    cases answer with
    | none =>
      dsimp only [ApprovalService.step] at h
      cases h
      split_ifs
      · exact ⟨hI, trivial, .of_eq rfl rfl⟩
      · exact ⟨hI, trivial, .of_eq rfl rfl⟩
    | fails =>
      cases h
      exact ⟨hI, trivial, .of_eq rfl rfl⟩
    | _ => cases h
  | issueInsert id userId expiresAt =>
    cases answer with
    | random challenge =>
      dsimp only [ApprovalService.step] at h
      split_ifs at h
      · cases h
        exact ⟨hI, trivial, .of_eq rfl rfl⟩
      · cases h
        exact ⟨hI.issue _, trivial, grows_issue _⟩
    | fails =>
      cases h
      exact ⟨hI, trivial, .of_eq rfl rfl⟩
    | _ => cases h
  | consume id =>
    cases answer with
    | none =>
      dsimp only [ApprovalService.step] at h
      split_ifs at h with happroved
      · cases h
        exact ⟨hI.consume happroved, trivial, grows_consume happroved⟩
      · cases h
        exact ⟨hI, trivial, .of_eq rfl rfl⟩
    | fails =>
      cases h
      exact ⟨hI, trivial, .of_eq rfl rfl⟩
    | _ => cases h
  | returned | failed => cases answer <;> cases h

/-! ### In time -/

/-- The UPDATE of a call was built in the past. -/
def KnowsTime (s : State) : Proc → Prop
  | .decideWrite _ _ _ startedAt       => startedAt ≤ s.now
  | .stepUpApprove _ _ _ _ _ decidedAt => decidedAt ≤ s.now
  | .stepUpCommit _ _ _ _ decidedAt    => decidedAt ≤ s.now
  | _                                  => True

lemma KnowsTime.later (h : KnowsTime s p) (hnow : s.now ≤ s'.now) : KnowsTime s' p := by
  cases p with
  | decideWrite | stepUpApprove | stepUpCommit => exact le_trans h hnow
  | _ => trivial

lemma InTime.grows (h : InTime s) (hs : Grows s s') (hdecisions : s'.decisions = s.decisions) :
    InTime s' := fun d hd => (h d (hdecisions ▸ hd)).grows hs

lemma InTime.concat (h : InTime s) (hs : Grows s s') (hd : Timely s d)
    (hdecisions : s'.decisions = s.decisions ++ [d]) : InTime s' := by
  intro d' hd'
  rcases List.mem_append.mp (hdecisions ▸ hd') with hold | hnew
  · exact (h d' hold).grows hs
  · rw [List.mem_singleton.mp hnew]
    exact hd.grows hs

/-- A call makes no decision, or one in time. -/
lemma step_decisions (hK : Knows owners s p) (hT : KnowsTime s p) (hC : Prompt s p answer)
    (h : ApprovalService.step owners s p answer = .ok (s', p')) :
    s'.decisions = s.decisions ∨ ∃ d, s'.decisions = s.decisions ++ [d] ∧ Timely s d := by
  cases p with
  | decideWrite id userId outcome startedAt =>
    cases answer with
    | none =>
      dsimp only [ApprovalService.step] at h
      split_ifs at h with hlocked hdecidable
      · cases h
        obtain ⟨row, hrow, hpending, hexpires⟩ := hdecidable
        exact .inr ⟨_, rfl, hT, ⟨row, hrow, hC hlocked row hrow hpending hexpires⟩, nofun⟩
      · cases h
        exact .inl rfl
    | fails =>
      cases h
      exact .inl rfl
    | _ => cases h
  | stepUpCommit id userId challengeId usedAt decidedAt =>
    cases answer with
    | none =>
      cases h
      obtain ⟨⟨row, hrow, -⟩, challengeRow, hchallenge, -⟩ := hK
      refine .inr ⟨_, rfl, hT, ⟨row, hrow, hC.1 row hrow⟩, fun c hc => ?_⟩
      cases hc
      exact ⟨challengeRow, hchallenge, hC.2 challengeRow hchallenge⟩
    | fails =>
      cases h
      exact .inl rfl
    | _ => cases h
  -- the others decide nothing
  | _ =>
    refine .inl ?_
    cases answer
    all_goals dsimp only [ApprovalService.step] at h
    all_goals first
      | (cases h; rfl)
      | (split_ifs at h <;> (cases h; rfl))
      | (split at h <;> (cases h; rfl))
      | cases h

lemma step_now (h : ApprovalService.step owners s p answer = .ok (s', p')) : s'.now = s.now := by
  unfold ApprovalService.step at h
  split at h
  all_goals first
    | (cases h; rfl)
    | (split_ifs at h <;> (cases h; rfl))
    | (split at h <;> (cases h; rfl))
    | cases h

/-- The UPDATE of a decision is built where the call comes to it, or where it has marked its
challenge. -/
lemma step_time (hT : KnowsTime s p)
    (h : ApprovalService.step owners s p answer = .ok (s', p')) : KnowsTime s' p' := by
  refine KnowsTime.later ?_ (step_now h).ge
  cases p with
  | decideUpdate id userId outcome =>
    cases answer with
    | none =>
      cases h
      exact le_rfl
    | _ => cases h
  | stepUpUse id userId challengeId startedAt usedAt =>
    cases answer with
    | none =>
      dsimp only [ApprovalService.step] at h
      split_ifs at h
      cases h
      exact le_rfl
    | fails =>
      cases h
      trivial
    | _ => cases h
  | stepUpApprove id userId challengeId startedAt usedAt decidedAt =>
    cases answer with
    | none =>
      dsimp only [ApprovalService.step] at h
      split_ifs at h with hlocked hdecidable
      · cases h
        exact hT
      · cases h
        trivial
    | fails =>
      cases h
      trivial
    | _ => cases h
  -- the others build none
  | _ =>
    cases answer
    all_goals dsimp only [ApprovalService.step] at h
    all_goals first
      | (cases h; trivial)
      | (cases h; split_ifs <;> trivial)
      | (split_ifs at h <;> (cases h; trivial))
      | (split at h <;> (cases h; trivial))
      | cases h

/-! ### Runs -/

variable {n : ℕ}

lemma sound_inductive (owners : Owners) :
    (program owners).Inductive holder (Sound owners) (Knows owners) (fun _ _ _ _ => True)
      (fun _ _ _ => True) where
  step hI hK _ hstep := ⟨(hI.step hK hstep).1, (hI.step hK hstep).2.1⟩
  stable hI hK _ hstep _ hq := hq.grows (hI.step hK hstep).2.2
  environment hI _ hstep := by
    cases hstep
    exact ⟨hI.quiet (.of_eq rfl rfl) (fun _ _ ha => ha) rfl rfl rfl,
      fun _ _ hq => hq.grows (.of_eq rfl rfl)⟩

lemma inTime_inductive (owners : Owners) :
    (program owners).Inductive holder (fun s m => Sound owners s m ∧ InTime s)
      (fun s p => Knows owners s p ∧ KnowsTime s p) (fun s _ => Prompt s)
      (fun _ _ _ => True) where
  step hI hK hC hstep := by
    obtain ⟨hsound, hknows, hgrows⟩ := hI.1.step hK.1 hstep
    refine ⟨⟨hsound, ?_⟩, hknows, step_time hK.2 hstep⟩
    rcases step_decisions hK.1 hK.2 hC hstep with hsame | ⟨d, hnew, hd⟩
    · exact hI.2.grows hgrows hsame
    · exact hI.2.concat hgrows hd hnew
  stable hI hK _ hstep _ hq :=
    ⟨hq.1.grows (hI.1.step hK.1 hstep).2.2, hq.2.later (step_now hstep).ge⟩
  environment hI _ hstep := by
    cases hstep
    exact ⟨⟨hI.1.quiet (.of_eq rfl rfl) (fun _ _ ha => ha) rfl rfl rfl,
      hI.2.grows (.of_eq rfl rfl) rfl⟩,
      fun _ _ hq => ⟨hq.1.grows (.of_eq rfl rfl), hq.2.later (Nat.le_add_right _ _)⟩⟩

lemma Sound.singleUse (h : Sound owners s m) : SingleUse owners s where
  decided := h.decisions
  consumed := h.consumptions
  owned d hd := (h.decided d hd).1
  used c := by
    by_cases hc : ∃ d ∈ s.decisions, d.challenge.map Prod.fst = some c
    · obtain ⟨d, hd, hdc⟩ := hc
      obtain ⟨⟨c', usedAt⟩, hchallenge, rfl⟩ := Option.map_eq_some_iff.mp hdc
      obtain ⟨row, hrow, -⟩ := (h.decided d hd).2.2 _ hchallenge
      refine le_trans (List.countP_mono_left fun d' hd' hdc' => ?_) (h.decisions row.approvalId)
      obtain ⟨⟨c'', usedAt'⟩, hchallenge', heq⟩ :=
        Option.map_eq_some_iff.mp (of_decide_eq_true hdc')
      obtain ⟨row', hrow', hid, -⟩ := (h.decided d' hd').2.2 _ hchallenge'
      dsimp only at heq hrow hrow'
      rw [heq, hrow] at hrow'
      rw [Option.some.inj hrow', hid]
      exact decide_eq_true rfl
    · rw [List.countP_eq_zero.mpr fun d hd => by
        simpa using fun t ht => hc ⟨d, hd, by simp [ht]⟩]
      exact Nat.zero_le _
  issued d hd c hc := (h.decided d hd).2.2 c hc

/-- The next step moves the status of each approval as it may. -/
def StatusMoves (owners : Owners) (c : Config n) (a : Action n) : Prop :=
  ∀ c', ((program owners).machine n).step c a = .ok c' →
    ∀ (id : ApprovalId) (row : ApprovalRequest), c.shared.approvals[id]? = some row →
      ∃ row', c'.shared.approvals[id]? = some row' ∧ Moves row.status row'.status

lemma start_holder (call : Call) : holder call.start = 0 := by
  cases call <;> rfl

lemma start_knows (call : Call) : Knows owners s call.start := by
  cases call <;> trivial

lemma start_knowsTime (call : Call) : KnowsTime s call.start := by
  cases call <;> trivial

lemma sound_initial (owners : Owners) (now : Time) (calls : Fin n → Call) :
    Program.Invariant holder (Sound owners) (Knows owners) (initial now calls) where
  shared := by
    have htotal : (initial now calls).total holder = 0 :=
      Finset.sum_eq_zero fun i _ => start_holder (calls i)
    rw [htotal]
    exact ⟨fun _ => rfl, List.nodup_nil, nofun, nofun, fun _ => Nat.zero_le 1, nofun,
      fun _ => Nat.zero_le 1⟩
  knows i := start_knows (calls i)

/-- Whatever the calls do, every approval is decided and consumed once at most, by an owner, and its
status moves as it may. -/
theorem singleUse_run (owners : Owners) (now : Time) (calls : Fin n → Call)
    (acts : List (Action n)) :
    SingleUse owners (((program owners).machine n).run (initial now calls) acts).shared ∧
      ((program owners).machine n).Along (StatusMoves owners) (initial now calls) acts := by
  have hinitial := sound_initial owners now calls
  have hany : ((program owners).machine n).Along
      (Program.Meets holder (fun _ _ _ _ => True) fun _ _ _ => True) (initial now calls) acts :=
    (Machine.along_of_forall (C := fun _ => True) fun _ _ => trivial).mono (I := fun _ => True)
      (fun _ _ _ _ _ _ => trivial) (fun _ a _ _ => by cases a <;> trivial) trivial
  refine ⟨((sound_inductive owners).run acts hinitial hany).shared.singleUse, ?_⟩
  refine hany.mono (fun _ _ _ hI hC hstep => (sound_inductive owners).next hI hC hstep)
    (fun c a hI _ => ?_) hinitial
  intro c' hstep id row hrow
  cases a with
  | take i answer =>
    obtain ⟨s, p, hp, rfl⟩ := Program.take_ok hstep
    have hshared := hI.shared
    rw [c.total_eq holder i] at hshared
    obtain ⟨-, -, hgrows⟩ := hshared.step (hI.knows i) hp
    obtain ⟨row', hrow', hkept⟩ := hgrows.approvals _ _ hrow
    exact ⟨row', hrow', hkept.status⟩
  | environment event =>
    obtain ⟨s, hs, rfl⟩ := Program.environment_ok hstep
    cases hs
    exact ⟨row, hrow, .inl rfl⟩

/-- In every run in which no approval and no challenge expires while a transaction that decides by
it is open, every approval is decided once at most, by an owner and in time. -/
theorem singleUse_of_prompt (owners : Owners) (now : Time) (calls : Fin n → Call)
    (acts : List (Action n))
    (h : ((program owners).machine n).Along
      (Program.Meets holder (fun s _ => Prompt s) fun _ _ _ => True) (initial now calls)
      acts) :
    SingleUse owners (((program owners).machine n).run (initial now calls) acts).shared ∧
      InTime (((program owners).machine n).run (initial now calls) acts).shared ∧
      ((program owners).machine n).Along (StatusMoves owners) (initial now calls) acts := by
  have hinitial : Program.Invariant holder (fun s m => Sound owners s m ∧ InTime s)
      (fun s p => Knows owners s p ∧ KnowsTime s p) (initial now calls) :=
    ⟨⟨(sound_initial owners now calls).shared, nofun⟩,
      fun i => ⟨start_knows (calls i), start_knowsTime (calls i)⟩⟩
  have hrun := (inTime_inductive owners).run acts hinitial h
  obtain ⟨hsingle, hmoves⟩ := singleUse_run owners now calls acts
  exact ⟨hsingle, hrun.shared.2, hmoves⟩

/-- An agent's request, a challenge for it, its approval and its use. -/
def requestAndApprove : Fin 4 → Call
  | 0 => .create ⟨7, none, some 1⟩
  | 1 => .issueStepUpChallenge 0 1
  | 2 => .decideApproveWithStepUp 0 1 42
  | 3 => .finalizeConsume 0

/-- The approval is requested and a challenge is issued shortly before it expires. -/
def challenged : List (Action 4) :=
  [.take 0 .none, .take 0 .none, .environment (APPROVAL_TTL_MS - 1000), .take 1 .none,
    .take 1 (.random 42)]

theorem approved_and_consumed_in_time :
    SingleUse (fun _ => none) (((program fun _ => none).machine 4).run
        (initial 0 requestAndApprove) (challenged ++ [.take 2 .none, .take 2 .none, .take 2 .none,
          .take 2 .none, .take 2 .none, .take 2 .none, .take 3 .none])).shared ∧
      InTime (((program fun _ => none).machine 4).run
        (initial 0 requestAndApprove) (challenged ++ [.take 2 .none, .take 2 .none, .take 2 .none,
          .take 2 .none, .take 2 .none, .take 2 .none, .take 3 .none])).shared ∧
      ((program fun _ => none).machine 4).Along (StatusMoves fun _ => none)
        (initial 0 requestAndApprove) (challenged ++ [.take 2 .none, .take 2 .none, .take 2 .none,
          .take 2 .none, .take 2 .none, .take 2 .none, .take 3 .none]) :=
  singleUse_of_prompt _ _ _ _ (by decide +kernel)

/-- The transaction starts before the approval expires, and comes to it a minute later. -/
theorem late_step_up_approves :
    ¬ ∀ (n : ℕ) (owners : Owners) (now : Time) (calls : Fin n → Call) (acts : List (Action n)),
      SingleUse owners (((program owners).machine n).run (initial now calls) acts).shared ∧
        InTime (((program owners).machine n).run (initial now calls) acts).shared ∧
        ((program owners).machine n).Along (StatusMoves owners) (initial now calls) acts := by
  intro h
  obtain ⟨-, htime, -⟩ := h 4 (fun _ => none) 0 requestAndApprove
    (challenged ++ [.take 2 .none, .take 2 .none, .take 2 .none, .environment 60000,
      .take 2 .none, .take 2 .none, .take 2 .none])
  obtain ⟨row, hrow, hlt⟩ := (htime ⟨0, 1, .approved, 959000, 959000, some (0, 899000)⟩
    (by decide +kernel)).approval
  have hexpires : row.expiresAt = 900000 := by
    have hrow' : ((((program fun _ => none).machine 4).run (initial 0 requestAndApprove)
        (challenged ++ [.take 2 .none, .take 2 .none, .take 2 .none, .environment 60000,
          .take 2 .none, .take 2 .none, .take 2 .none])).shared.approvals[0]?).map
            ApprovalRequest.expiresAt = some 900000 := by decide +kernel
    rw [hrow] at hrow'
    exact Option.some.inj hrow'
  rw [hexpires] at hlt
  exact absurd hlt (by decide)

end Suwappu.ApprovalService
